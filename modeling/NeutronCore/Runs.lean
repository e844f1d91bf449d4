/-
Runs of the node, and the main chain they leave.

A run starts from `LoadBlockIndex` on an empty data directory and applies, one after the
other, what the `block` and `tx` handlers do with what peers send: `ProcessNewBlock` for a
block, `ProcessTx` for a transaction. `Reachable` is the set of states some run leaves.

The main chain of a state is read off its globals: the nodes from the genesis node to
`pindexBest` along `pprev`, and the blocks stored at their positions.
-/
import NeutronCore.Dispatch

set_option autoImplicit false

namespace NeutronCore

/-! ## Runs -/

/-- What a peer can hand the node, with the environment of the call. -/
inductive Event where
  | block (env : Env) (b : Block)
  | tx (env : Env) (rand : Nat → Hash) (t : Transaction)

/-- The handler of an event. -/
def Event.apply (p : Params) : Event → ChainState → ChainState
  | .block env b, s => (ProcessNewBlock p env b s).2
  | .tx env rand t, s => ProcessTx p env rand t s

/-- The state a list of events leaves. -/
def run (p : Params) (evs : List Event) (s : ChainState) : ChainState :=
  evs.foldl (fun s e => e.apply p s) s

/-- The states a run from a fresh data directory can leave. -/
inductive Reachable (p : Params) : ChainState → Prop
  | genesis (env : Env) (g : Block) :
      (LoadBlockIndex p env g).1 = true → Reachable p (LoadBlockIndex p env g).2
  | step {s : ChainState} (e : Event) : Reachable p s → Reachable p (e.apply p s)

theorem Reachable.run {p : Params} {s : ChainState} (h : Reachable p s) :
    ∀ evs : List Event, Reachable p (NeutronCore.run p evs s)
  | [] => h
  | e :: evs => (h.step e).run evs

/-! ## The main chain -/

/-- The nodes from the root of `h`'s branch to `h`, along `pprev`, with at most `fuel` of
them. -/
def chainTo (s : ChainState) : Nat → Hash → List Hash
  | 0, _ => []
  | fuel + 1, h =>
    match parentOf s h with
    | some hp => chainTo s fuel hp ++ [h]
    | none => [h]

/-- The main chain: the nodes from the genesis node to `pindexBest`. -/
def mainChain (s : ChainState) : List Hash :=
  match s.pindexBest with
  | none => []
  | some h => chainTo s ((heightOf s h).toNat + 1) h

/-- The block stored where a node says. -/
def blockOf (s : ChainState) (h : Hash) : Option Block :=
  (s.mapBlockIndex h).bind fun n => s.blockFile (n.nFile, n.nBlockPos)

/-- The transactions of the main chain's blocks, in chain order. -/
def mainChainTxs (s : ChainState) : List Transaction :=
  ((mainChain s).filterMap (blockOf s)).flatMap Block.vtx

/-- The outpoints the main chain's inputs spend, coinbase inputs left out. -/
def mainChainSpends (s : ChainState) : List OutPoint :=
  ((mainChainTxs s).filter (!·.IsCoinBase)).flatMap fun tx => tx.vin.map TxIn.prevout

/-! ## A quiet environment -/

/-- The environment of a call in which every module outside the model agrees (signatures,
stake kernel, checkpoints, masternodes, sizes), no disk operation fails, no synchronized
checkpoint is known, and the clock reads `now`. -/
def Env.quiet (ibd : Bool) (now : Int) : Env where
  ibd := ibd
  adjustedTime := now
  ioFail := fun _ => false
  totalBlocksEstimate := 0
  isStandard := fun _ => true
  txSize := fun _ => 200
  freeRelayOk := fun _ => true
  verifySignature := fun _ _ _ => true
  txSizeOk := fun _ => true
  blockSizeOk := fun _ => true
  sigOpsOk := fun _ => true
  merkleRootOk := fun _ => true
  blockSignatureOk := fun _ => true
  checkProofOfStake := fun _ _ _ => some 0
  acceptChecksOk := fun _ _ => true
  stakeModifierOk := fun _ => true
  lastSyncCheckpoint := none
  wantedBySyncCheckpoint := fun _ => false
  masternodePayeeOk := fun _ _ _ => true
  masternodeTxOk := fun _ => true

/-- A coinbase paying `v` at time `t`. -/
def coinbase (hash nTime : Nat) (v : Int) : Transaction :=
  ⟨hash, nTime, [⟨OutPoint.null, []⟩], [⟨v, []⟩]⟩

/-- A proof-of-work block at the proof-of-work limit of `p`, with the given transactions. -/
def powBlock (p : Params) (hash hashPrev nTime : Nat) (vtx : List Transaction) : Block :=
  ⟨hash, hashPrev, nTime, GetCompact p.bnProofOfWorkLimit, vtx, 0⟩

/-! ## The runs of the counterexamples -/

/-- The genesis block of the runs: one coinbase paying nothing, as `LoadBlockIndex` builds
it (`main.cpp:2951`). -/
def genesisBlock : Block := powBlock testnet 1 0 1000 [coinbase 100 1000 0]

/-- The state `LoadBlockIndex` leaves on an empty data directory. -/
def genesisState : ChainState := (LoadBlockIndex testnet (Env.quiet true 2000000000) genesisBlock).2

theorem genesisState_reachable : Reachable testnet genesisState :=
  .genesis _ _ (by decide)

/-- Block `k ≥ 1` of a chain on the genesis block: a coinbase paying one coin, 79 seconds
(`nTargetSpacing`) after its parent, so that the required target stays at the limit. -/
def chainBlock (k : Nat) : Block :=
  powBlock testnet (10 + k) (if k = 1 then 1 else 9 + k) (1000 + 79 * k)
    [coinbase (100 + k) (1000 + 79 * k) 1000000]

/-- The first `n` blocks of the chain, received in order during initial download. -/
def chainEvents (n : Nat) : List Event :=
  (List.range n).map fun i => .block (Env.quiet true 2000000000) (chainBlock (i + 1))

/-- A transaction spending the coinbase of chain block 1, with a fee of half a coin. -/
def spendFirstCoinbase (hash nTime : Nat) : Transaction :=
  ⟨hash, nTime, [⟨⟨101, 0⟩, []⟩], [⟨500000, []⟩]⟩

end NeutronCore
