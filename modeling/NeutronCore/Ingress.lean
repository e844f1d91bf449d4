/-
Blocks arriving from peers: `ProcessNewBlock` (`main.cpp:2558`) with its orphan pool, and
the fresh-data-directory branch of `LoadBlockIndex` (`main.cpp:2891`) that starts every
run.

A block whose parent is unknown is filed twice, under its own hash in `mapOrphanBlocks`
and under its parent's hash in the multimap `mapOrphanBlocksByPrev`. When a block is
accepted, the orphans filed under its hash are handed to `AcceptBlock` breadth first, and
the hashes of those accepted are queued in turn (`main.cpp:2688`). The drain is written
for any acceptance function, so that what it keeps of the pool can be stated for the
functions that index a block only when they accept it, and checked against `AcceptBlock`,
which does not.
-/
import NeutronCore.Accept

set_option autoImplicit false

namespace NeutronCore

/-! ## The start of a run -/

/-- The globals before the block index is loaded (`main.cpp:54`): nothing indexed, no tip,
`nBestHeight = -1`, an empty database. -/
def ChainState.empty : ChainState where
  mapBlockIndex := fun _ => none
  pnext := fun _ => none
  pindexGenesisBlock := none
  pindexBest := none
  hashBestChain := 0
  nBestHeight := -1
  nBestChainTrust := 0
  nBestInvalidTrust := 0
  txdb := ⟨⟨fun _ => none, fun _ => none, 0⟩, none, 0⟩
  blockFile := fun _ => none
  nNextBlockPos := 0
  mempool := []
  setStakeSeen := []
  mapOrphanBlocks := []
  mapOrphanBlocksByPrev := []
  setStakeSeenOrphan := []
  mapOrphanTransactions := []
  mapOrphanTransactionsByPrev := []

/-- `LoadBlockIndex(fAllowNew)` (`main.cpp:2891`) on an empty data directory: the genesis
block is written to the block file and indexed, which makes it the tip through the
genesis branch of `SetBestChain`. -/
def LoadBlockIndex (p : Params) (env : Env) (genesis : Block) : Bool × ChainState :=
  let s := ChainState.empty
  let s := { s with blockFile := update s.blockFile (1, s.nNextBlockPos) (some genesis),
                    nNextBlockPos := s.nNextBlockPos + 1 }
  AddToBlockIndex p env genesis 1 0 s

/-! ## The orphan pool -/

/-- `mapOrphanBlocks.count(hash)`. -/
def hasOrphan (s : ChainState) (h : Hash) : Bool := s.mapOrphanBlocks.any (·.1 == h)

/-- `mapOrphanBlocksByPrev.count(hash)`: some orphan waits for `h`. -/
def hasOrphanChild (s : ChainState) (h : Hash) : Bool := s.mapOrphanBlocksByPrev.any (·.1 == h)

/-- The orphans filed under `hashPrev`, in insertion order: the range
`[lower_bound(hashPrev), upper_bound(hashPrev))` of the multimap. -/
def orphansOf (s : ChainState) (hashPrev : Hash) : List Block :=
  (s.mapOrphanBlocksByPrev.filter (·.1 == hashPrev)).map (·.2)

/-- Filing an orphan (`main.cpp:2653`): its stake is remembered, and it goes into both
maps. -/
def stashOrphan (b : Block) (s : ChainState) : ChainState :=
  { s with setStakeSeenOrphan :=
             if b.IsProofOfStake then setInsert s.setStakeSeenOrphan b.GetProofOfStake
             else s.setStakeSeenOrphan
           mapOrphanBlocks := s.mapOrphanBlocks ++ [(b.hash, b)]
           mapOrphanBlocksByPrev := s.mapOrphanBlocksByPrev ++ [(b.hashPrevBlock, b)] }

/-- An orphan leaves `mapOrphanBlocks` and `setStakeSeenOrphan` (`main.cpp:2704`). -/
def dropOrphan (b : Block) (s : ChainState) : ChainState :=
  { s with mapOrphanBlocks := s.mapOrphanBlocks.filter (·.1 != b.hash)
           setStakeSeenOrphan := s.setStakeSeenOrphan.erase b.GetProofOfStake }

section Drain

variable (accept : Block → ChainState → Bool × ChainState)

/-- The inner loop of the drain (`main.cpp:2696`): each orphan of one parent goes through
`accept` and leaves the pool; the hashes of those accepted join the work queue. -/
def drainChildren : List Block → List Hash → ChainState → List Hash × ChainState
  | [], work, s => (work, s)
  | b :: bs, work, s =>
    let (ok, s) := accept b s
    drainChildren bs (if ok then work ++ [b.hash] else work) (dropOrphan b s)

/-- The work-queue loop of the drain (`main.cpp:2690`): one round per queued hash, after
which the hash's entries leave `mapOrphanBlocksByPrev`. The fuel counts rounds. -/
def drainOrphans : Nat → List Hash → ChainState → ChainState
  | 0, _, s => s
  | _ + 1, [], s => s
  | fuel + 1, hashPrev :: work, s =>
    let (work, s) := drainChildren accept (orphansOf s hashPrev) work s
    drainOrphans fuel work
      { s with mapOrphanBlocksByPrev := s.mapOrphanBlocksByPrev.filter (·.1 != hashPrev) }

end Drain

/-! ## `ProcessNewBlock` -/

/-- The extra check against memory spam (`main.cpp:2589`): a block that does not extend the
tip, while a synchronized checkpoint is known, must not ask for less work (or stake) than
the checkpoint's could have fallen to since. -/
def tooLittleWork (p : Params) (env : Env) (b : Block) (s : ChainState) : Bool :=
  match env.lastSyncCheckpoint.bind s.mapBlockIndex with
  | none => false
  | some cp =>
    if b.hashPrevBlock = s.hashBestChain ∨ env.wantedBySyncCheckpoint b.hash then false else
    let deltaTime := b.GetBlockTime - cp.nTime
    let bnRequired :=
      if b.IsProofOfStake then
        let height := ((s.mapBlockIndex b.hashPrevBlock).map (·.nHeight + 1)).getD 0
        ComputeMinStake p height (GetLastBlockIndex s true (depthFuel cp) cp).nBits deltaTime
      else ComputeMinWork p (GetLastBlockIndex s false (depthFuel cp) cp).nBits deltaTime
    SetCompact bnRequired < SetCompact b.nBits

/-- `ProcessNewBlock(pfrom, pblock)` (`main.cpp:2558`) with the acceptance step given. -/
def processNewBlockWith (p : Params) (env : Env) (accept : Block → ChainState → Bool × ChainState)
    (b : Block) (s : ChainState) : Bool × ChainState :=
  if (s.mapBlockIndex b.hash).isSome || hasOrphan s b.hash then (false, s)
  else if !env.ibd && b.IsProofOfStake && s.setStakeSeen.contains b.GetProofOfStake &&
      !hasOrphanChild s b.hash && !env.wantedBySyncCheckpoint b.hash then (false, s)
  else if !CheckBlock p env b true true || tooLittleWork p env b s then (false, s)
  else if (s.mapBlockIndex b.hashPrevBlock).isNone then
    if b.IsProofOfStake && s.setStakeSeenOrphan.contains b.GetProofOfStake &&
        !hasOrphanChild s b.hash && !env.wantedBySyncCheckpoint b.hash then (false, s)
    else (true, stashOrphan b s)
  else
    match accept b s with
    | (false, s) => (false, s)
    | (true, s) => (true, drainOrphans accept (s.mapOrphanBlocksByPrev.length + 1) [b.hash] s)

/-- `ProcessNewBlock(pfrom, pblock)` (`main.cpp:2558`). -/
def ProcessNewBlock (p : Params) (env : Env) (b : Block) (s : ChainState) : Bool × ChainState :=
  processNewBlockWith p env (AcceptBlock p env) b s

end NeutronCore
