/-
Admitting a block to the index: the retarget rule `GetNextTargetRequired`
(`main.cpp:1005`) and its walk `GetLastBlockIndex` (`main.cpp:989`), the minimum-work
estimates `ComputeMaxBits`, `ComputeMinStake`, `ComputeMinWork` (`main.cpp:962`–`1003`),
`AddToBlockIndex` (`main.cpp:2238`) and `AcceptBlock` (`main.cpp:2410`).

`AddToBlockIndex` inserts the node into `mapBlockIndex` and commits its record before it
calls `SetBestChain`; when that call fails the node stays in the index and
`AcceptBlock` still reports failure. The model keeps that order.
-/
import NeutronCore.BestChain

set_option autoImplicit false

namespace NeutronCore

/-! ## Retargeting -/

/-- `GetLastBlockIndex(pindex, fProofOfStake)` (`main.cpp:989`): back along `pprev` to the
last node of the wanted kind, or to the genesis node. -/
def GetLastBlockIndex (s : ChainState) (fProofOfStake : Bool) : Nat → BlockIndex → BlockIndex
  | 0, n => n
  | fuel + 1, n =>
    match n.pprev.bind s.mapBlockIndex with
    | some prev => if n.fProofOfStake != fProofOfStake then GetLastBlockIndex s fProofOfStake fuel prev else n
    | none => n

/-- The fuel of a walk back from a node: one step per height. -/
def depthFuel (n : BlockIndex) : Nat := n.nHeight.toNat + 1

/-- `GetNextTargetRequired(pindexLast, fProofOfStake)` (`main.cpp:1005`). -/
def GetNextTargetRequired (p : Params) (s : ChainState) (pindexLast : BlockIndex) (fProofOfStake : Bool) :
    Nat :=
  let bnTargetLimit : Int := if fProofOfStake then p.GetPOSLimit pindexLast.nHeight else p.bnProofOfWorkLimit
  let pindexPrev := GetLastBlockIndex s fProofOfStake (depthFuel pindexLast) pindexLast
  match pindexPrev.pprev.bind s.mapBlockIndex with
  | none => GetCompact bnTargetLimit
  | some prevPrev =>
    let pindexPrevPrev := GetLastBlockIndex s fProofOfStake (depthFuel prevPrev) prevPrev
    if pindexPrevPrev.pprev.isNone then GetCompact bnTargetLimit else
    let nActualSpacing : Int := (pindexPrev.nTime : Int) - pindexPrevPrev.nTime
    let nActualSpacing := if nActualSpacing < 0 then nTargetSpacing else nActualSpacing
    let nInterval := nTargetTimespan / nTargetSpacing
    let bnNew :=
      SetCompact pindexPrev.nBits * ((nInterval - 1) * nTargetSpacing + nActualSpacing + nActualSpacing)
    let bnNew := bnNew.tdiv ((nInterval + 1) * nTargetSpacing)
    GetCompact (if bnNew ≤ 0 ∨ bnTargetLimit < bnNew then bnTargetLimit else bnNew)

/-- The doubling loop of `ComputeMaxBits` (`main.cpp:967`); each round takes a day off
`nTime`, so `nTime / 86400 + 1` rounds are enough. -/
def maxBitsLoop (bnTargetLimit : Int) : Nat → Int → Int → Int
  | 0, bnResult, _ => bnResult
  | fuel + 1, bnResult, nTime =>
    if 0 < nTime ∧ bnResult < bnTargetLimit then
      maxBitsLoop bnTargetLimit fuel (bnResult * 2) (nTime - 24 * 60 * 60)
    else bnResult

/-- `ComputeMaxBits(bnTargetLimit, nBase, nTime)` (`main.cpp:962`). -/
def ComputeMaxBits (bnTargetLimit : Int) (nBase : Nat) (nTime : Int) : Nat :=
  let bnResult := maxBitsLoop bnTargetLimit (nTime / (24 * 60 * 60) + 1).toNat (SetCompact nBase * 2) nTime
  GetCompact (if bnTargetLimit < bnResult then bnTargetLimit else bnResult)

/-- `ComputeMinStake(height, nBase, nTime, nBlockTime)` (`main.cpp:982`). -/
def ComputeMinStake (p : Params) (height : Int) (nBase : Nat) (nTime : Int) : Nat :=
  ComputeMaxBits (p.GetPOSLimit height) nBase nTime

/-- `ComputeMinWork(nBase, nTime)` (`main.cpp:999`). -/
def ComputeMinWork (p : Params) (nBase : Nat) (nTime : Int) : Nat :=
  ComputeMaxBits p.bnProofOfWorkLimit nBase nTime

/-! ## The past-time limit -/

/-- Insertion into a sorted list. -/
def insertSorted (x : Int) : List Int → List Int
  | [] => [x]
  | y :: ys => if x ≤ y then x :: y :: ys else y :: insertSorted x ys

/-- The times of a node and its ancestors, at most `k` of them. -/
def lastTimes (s : ChainState) : Nat → Option BlockIndex → List Int
  | 0, _ => []
  | _, none => []
  | k + 1, some n => (n.nTime : Int) :: lastTimes s k (n.pprev.bind s.mapBlockIndex)

/-- Modelled from the spec: `CBlockIndex::GetPastTimeLimit` is in `main.h`, which is not
under `src/`. Spec §4.7: the median of the last 11 block times. -/
def GetPastTimeLimit (s : ChainState) (n : BlockIndex) : Int :=
  let sorted := (lastTimes s 11 (some n)).foldr insertSorted []
  sorted.getD (sorted.length / 2) 0

/-! ## `AddToBlockIndex` -/

/-- Modelled from the spec: the constructor `CBlockIndex(nFile, nBlockPos, block)` is in
`main.h`, which is not under `src/`. Spec §3: the node takes the block's header fields,
its kind and its `(prevoutStake, stakeTime)`, at height 0 with no parent. -/
def newIndex (b : Block) (nFile nBlockPos : Nat) : BlockIndex where
  hash := b.hash
  pprev := none
  nHeight := 0
  nFile := nFile
  nBlockPos := nBlockPos
  nChainTrust := 0
  nBits := b.nBits
  nTime := b.nTime
  fProofOfStake := b.IsProofOfStake
  prevoutStake := b.GetProofOfStake.1
  nStakeTime := b.GetProofOfStake.2

/-- `std::set::insert`. -/
def setInsert {α : Type} [DecidableEq α] (l : List α) (x : α) : List α := if x ∈ l then l else l ++ [x]

/-- `CBlock::AddToBlockIndex(nFile, nBlockPos, hashProof)` (`main.cpp:2238`). -/
def AddToBlockIndex (p : Params) (env : Env) (b : Block) (nFile nBlockPos : Nat) (s : ChainState) :
    Bool × ChainState :=
  if (s.mapBlockIndex b.hash).isSome then (false, s) else
  let node := newIndex b nFile nBlockPos
  let node := match s.mapBlockIndex b.hashPrevBlock with
    | some prev => { node with pprev := some b.hashPrevBlock, nHeight := prev.nHeight + 1 }
    | none => node
  let node := { node with nChainTrust :=
    (((node.pprev.bind s.mapBlockIndex).map BlockIndex.nChainTrust).getD 0 + GetBlockTrust node.nBits) % 2 ^ 256 }
  if !env.stakeModifierOk b then (false, s) else
  let s := { s with
    mapBlockIndex := update s.mapBlockIndex b.hash (some node)
    setStakeSeen := if node.fProofOfStake then setInsert s.setStakeSeen (node.prevoutStake, node.nStakeTime)
      else s.setStakeSeen }
  match s.txdb.TxnBegin env.ioFail with
  | (false, db) => (false, { s with txdb := db })
  | (true, db) =>
  let db := (db.WriteBlockIndex env.ioFail (diskIndex s node)).2
  match db.TxnCommit env.ioFail with
  | (false, db) => (false, { s with txdb := db })
  | (true, db) =>
  let s := { s with txdb := db }
  if s.nBestChainTrust < node.nChainTrust then SetBestChain p env b b.hash s else (true, s)

/-! ## `AcceptBlock` -/

/-- `CBlock::AcceptBlock()` (`main.cpp:2410`). The block is written at the next position
of block file 1 before it is indexed. -/
def AcceptBlock (p : Params) (env : Env) (b : Block) (s : ChainState) : Bool × ChainState :=
  if (s.mapBlockIndex b.hash).isSome then (false, s) else
  match s.mapBlockIndex b.hashPrevBlock with
  | none => (false, s)
  | some pindexPrev =>
  let nHeight := pindexPrev.nHeight + 1
  if b.IsProofOfWork && p.LAST_POW_BLOCK < nHeight then (false, s)
  else if b.nBits ≠ GetNextTargetRequired p s pindexPrev b.IsProofOfStake then (false, s)
  else if b.GetBlockTime ≤ GetPastTimeLimit s pindexPrev ∨
      p.FutureDrift b.GetBlockTime < pindexPrev.nTime then (false, s)
  else if !env.acceptChecksOk b nHeight then (false, s)
  else if b.IsProofOfStake &&
      (env.checkProofOfStake pindexPrev.hash (b.vtx.getD 1 ⟨0, 0, [], []⟩) b.nBits).isNone &&
      !env.ibd then (false, s)
  else
    let nBlockPos := s.nNextBlockPos
    let s := { s with
      blockFile := update s.blockFile (1, nBlockPos) (some b)
      nNextBlockPos := nBlockPos + 1 }
    AddToBlockIndex p env b 1 nBlockPos s

end NeutronCore
