/-
Moving the tip: `Reorganize` (`main.cpp:1854`), `SetBestChainInner` (`main.cpp:1982`) and
`SetBestChain` (`main.cpp:2009`), with `InvalidChainFound` (`main.cpp:1061`).

`SetBestChain` opens the database transaction and takes one of three paths: the genesis
block, a block on top of the tip (`SetBestChainInner`), or a reorganization. The last
connects the new branch only up to the first block that beats the tip
(`pindexIntermediate`), commits, and then reconnects the blocks above it one by one, each
in its own transaction. Those postponed reconnects call
`SetBestChainInner(txdb, pindex, true, postponedBlocks)`, and `SetBestChainInner` calls
`ConnectBlock(txdb, pindexNew, reorganize, postponedBlocks)`: four arguments for a
function whose third parameter is `fJustCheck`. The model passes them as the source does,
so a postponed reconnect checks its block without writing its transactions.
-/
import NeutronCore.Connect
import NeutronCore.Mempool

set_option autoImplicit false

namespace NeutronCore

/-! ## Walking the block tree -/

/-- `CBlock::ReadFromDisk(pindex)`: the block stored where the node says, if its hash is
the node's. -/
def readBlock (env : Env) (s : ChainState) (h : Hash) : Option Block :=
  if env.ioFail (.readBlock h) then none else
  (s.mapBlockIndex h).bind fun n => (s.blockFile (n.nFile, n.nBlockPos)).bind fun b =>
    if b.hash = h then some b else none

/-- The `pprev` of a node. -/
def parentOf (s : ChainState) (h : Hash) : Option Hash := (s.mapBlockIndex h).bind BlockIndex.pprev

/-- The height of a node. -/
def heightOf (s : ChainState) (h : Hash) : Int := ((s.mapBlockIndex h).map BlockIndex.nHeight).getD 0

/-- The inner loop of the fork search (`main.cpp:1862`): step `plonger` back while it is
higher than `pfork`. -/
def descendTo (s : ChainState) (nHeight : Int) : Nat → Hash → Option Hash
  | 0, h => some h
  | fuel + 1, h =>
    if heightOf s h ≤ nHeight then some h else (parentOf s h).bind (descendTo s nHeight fuel)

/-- The fork search of `Reorganize` (`main.cpp:1860`): `pfork` starts at the tip and
`plonger` at the new block; `none` where the source returns "pprev is null". The fuel is
the number of outer rounds. -/
def findFork (s : ChainState) (fuel : Nat) : Nat → Hash → Hash → Option Hash
  | 0, _, _ => none
  | n + 1, pfork, plonger =>
    if pfork = plonger then some pfork else
    match descendTo s (heightOf s pfork) fuel plonger with
    | none => none
    | some plonger =>
      if pfork = plonger then some pfork else
      (parentOf s pfork).bind fun pfork => findFork s fuel n pfork plonger

/-- The nodes from `h` back along `pprev` to `stop`, `stop` excluded: the loops that
build `vDisconnect` and `vConnect` (`main.cpp:1877`). -/
def pathTo (s : ChainState) (stop : Hash) : Nat → Hash → Option (List Hash)
  | 0, _ => none
  | fuel + 1, h =>
    if h = stop then some [] else
    (parentOf s h).bind fun hp => (pathTo s stop fuel hp).map (h :: ·)

/-- Fuel for a walk from two nodes: enough for every path of a tree whose heights drop by
one along `pprev`. -/
def walkFuel (s : ChainState) (a b : Hash) : Nat := (heightOf s a).toNat + (heightOf s b).toNat + 2

/-! ## `InvalidChainFound` and `SetBestChainInner` -/

/-- `InvalidChainFound(pindexNew)` (`main.cpp:1061`): a higher invalid trust is recorded,
in memory and through a handle of its own. -/
def InvalidChainFound (h : Hash) (s : ChainState) : ChainState :=
  match s.mapBlockIndex h with
  | some n =>
    if s.nBestInvalidTrust < n.nChainTrust then
      { s with nBestInvalidTrust := n.nChainTrust
               txdb := { s.txdb with bnBestInvalidTrust := n.nChainTrust } }
    else s
  | none => s

/-- `CBlock::SetBestChainInner(txdb, pindexNew, reorganize, postponedBlocks)`
(`main.cpp:1982`), for the block `b` at node `hNew`. -/
def SetBestChainInner (p : Params) (env : Env) (b : Block) (hNew : Hash) (reorganize : Bool)
    (postponedBlocks : Int) (s : ChainState) : Bool × ChainState :=
  match ConnectBlock p env b hNew reorganize (postponedBlocks ≠ 0) p.connectPostponedDefault s with
  | (false, s) => (false, InvalidChainFound hNew { s with txdb := s.txdb.TxnAbort })
  | (true, s) =>
  match s.txdb.WriteHashBestChain env.ioFail b.hash with
  | (false, db) => (false, InvalidChainFound hNew { s with txdb := db.TxnAbort })
  | (true, db) =>
  match db.TxnCommit env.ioFail with
  | (false, db) => (false, { s with txdb := db })
  | (true, db) =>
    let pnext := match parentOf s hNew with
      | some hp => update s.pnext hp (some hNew)
      | none => s.pnext
    (true, { s with txdb := db, pnext := pnext, mempool := b.vtx.foldl mempoolRemove s.mempool })

/-! ## `Reorganize` -/

/-- The disconnect loop of `Reorganize` (`main.cpp:1899`): each block read and
disconnected, its user transactions queued for the pool. -/
def disconnectBranch (env : Env) : List Hash → List Transaction → ChainState →
    Bool × List Transaction × ChainState
  | [], vResurrect, s => (true, vResurrect, s)
  | h :: hs, vResurrect, s =>
    match readBlock env s h with
    | none => (false, vResurrect, s)
    | some b =>
      match DisconnectBlock env b h s with
      | (false, s) => (false, vResurrect, s)
      | (true, s) => disconnectBranch env hs
          (vResurrect ++ b.vtx.filter (fun tx => !(tx.IsCoinBase || tx.IsCoinStake))) s

/-- The connect loop of `Reorganize` (`main.cpp:1921`): each block read and connected with
`fJustCheck = false, reorganize = true`; its transactions queued for deletion. -/
def connectBranch (p : Params) (env : Env) (postponedBlocks : Int) : List Hash → List Transaction →
    ChainState → Bool × List Transaction × ChainState
  | [], vDelete, s => (true, vDelete, s)
  | h :: hs, vDelete, s =>
    match readBlock env s h with
    | none => (false, vDelete, s)
    | some b =>
      match ConnectBlock p env b h false true postponedBlocks s with
      | (false, s) => (false, vDelete, s)
      | (true, s) => connectBranch p env postponedBlocks hs (vDelete ++ b.vtx) s

/-- Resurrected transactions re-enter the pool without input checks (`main.cpp:1966`). -/
def resurrect (p : Params) (env : Env) (txs : List Transaction) (s : ChainState) : ChainState :=
  txs.foldl (fun s tx => (AcceptToMemoryPool p env s tx false).2.2) s

/-- `Reorganize(txdb, pindexNew, postponedBlocks)` (`main.cpp:1854`). -/
def Reorganize (p : Params) (env : Env) (hNew : Hash) (postponedBlocks : Int) (s : ChainState) :
    Bool × ChainState :=
  match s.pindexBest with
  | none => (false, s)
  | some hBest =>
  let fuel := walkFuel s hBest hNew
  match findFork s fuel fuel hBest hNew with
  | none => (false, s)
  | some pfork =>
  match pathTo s pfork fuel hBest, pathTo s pfork fuel hNew with
  | some vDisconnect, some vConnectRev =>
    let vConnect := vConnectRev.reverse
    match disconnectBranch env vDisconnect [] s with
    | (false, _, s) => (false, s)
    | (true, vResurrect, s) =>
    match connectBranch p env postponedBlocks vConnect [] s with
    | (false, _, s) => (false, s)
    | (true, vDelete, s) =>
    match s.txdb.WriteHashBestChain env.ioFail hNew with
    | (false, db) => (false, { s with txdb := db })
    | (true, db) =>
    match db.TxnCommit env.ioFail with
    | (false, db) => (false, { s with txdb := db })
    | (true, db) =>
      let s := { s with txdb := db }
      let pnext := vDisconnect.foldl (fun f h => match parentOf s h with
        | some hp => update f hp none
        | none => f) s.pnext
      let pnext := vConnect.foldl (fun f h => match parentOf s h with
        | some hp => update f hp (some h)
        | none => f) pnext
      let s := resurrect p env vResurrect { s with pnext := pnext }
      (true, { s with
        mempool := vDelete.foldl (fun m tx => removeConflicts (mempoolRemove m tx) tx) s.mempool })
  | _, _ => (false, s)

/-! ## `SetBestChain` -/

/-- The walk that finds `pindexIntermediate` (`main.cpp:2037`): step back while the
parent's trust beats the tip's, collecting the blocks stepped over in `vpindexSecondary`. -/
def intermediateWalk (s : ChainState) (nBestChainTrust : Nat) : Nat → Hash → List Hash →
    Hash × List Hash
  | 0, h, acc => (h, acc)
  | fuel + 1, h, acc =>
    match parentOf s h with
    | some hp =>
      if nBestChainTrust < ((s.mapBlockIndex hp).map BlockIndex.nChainTrust).getD 0 then
        intermediateWalk s nBestChainTrust fuel hp (acc ++ [h])
      else (h, acc)
    | none => (h, acc)

/-- The postponed reconnects (`main.cpp:2063`), from the lowest block up: each in its own
transaction, stopping at the first failure. It returns `pindexNew` as the loop leaves it:
unchanged when a read or `TxnBegin` fails, the failing block's parent when
`SetBestChainInner` fails. -/
def postponedLoop (p : Params) (env : Env) (postponedBlocks : Int) :
    List Hash → Hash → ChainState → Hash × ChainState
  | [], hNew, s => (hNew, s)
  | h :: hs, hNew, s =>
    match readBlock env s h with
    | none => (hNew, s)
    | some b =>
      match s.txdb.TxnBegin env.ioFail with
      | (false, db) => (hNew, { s with txdb := db })
      | (true, db) =>
        match SetBestChainInner p env b h true postponedBlocks { s with txdb := db } with
        | (false, s) => ((parentOf s h).getD 0, s)
        | (true, s) => postponedLoop p env postponedBlocks hs hNew s

/-- The end of `SetBestChain` (`main.cpp:2090`): the tip globals, with `hashBestChain` the
hash of the block the call was made for. -/
def setTip (hash hNew : Hash) (s : ChainState) : ChainState :=
  { s with hashBestChain := hash
           pindexBest := some hNew
           pnext := update s.pnext hNew none
           nBestHeight := heightOf s hNew
           nBestChainTrust := ((s.mapBlockIndex hNew).map BlockIndex.nChainTrust).getD 0 }

/-- `CBlock::SetBestChain(txdb, pindexNew)` (`main.cpp:2009`), for the block `b` at node
`hNew`. -/
def SetBestChain (p : Params) (env : Env) (b : Block) (hNew : Hash) (s : ChainState) :
    Bool × ChainState :=
  match s.txdb.TxnBegin env.ioFail with
  | (false, db) => (false, { s with txdb := db })
  | (true, db) =>
  let s := { s with txdb := db }
  if s.pindexGenesisBlock.isNone && b.hash = p.hashGenesisBlock then
    let db := (s.txdb.WriteHashBestChain env.ioFail b.hash).2
    match db.TxnCommit env.ioFail with
    | (false, db) => (false, { s with txdb := db })
    | (true, db) => (true, setTip b.hash hNew { s with txdb := db, pindexGenesisBlock := some hNew })
  else if b.hashPrevBlock = s.hashBestChain then
    match SetBestChainInner p env b hNew false p.innerPostponedDefault s with
    | (false, s) => (false, s)
    | (true, s) => (true, setTip b.hash hNew s)
  else
  match s.pindexBest.bind s.mapBlockIndex with
  | none => (false, s)
  | some best =>
    let (hInter, vSecondary) := intermediateWalk s best.nChainTrust (walkFuel s hNew hNew) hNew []
    let postponedBlocks : Int := if vSecondary.isEmpty then -1 else vSecondary.length
    match Reorganize p env hInter postponedBlocks s with
    | (false, s) => (false, InvalidChainFound hNew { s with txdb := s.txdb.TxnAbort })
    | (true, s) =>
      let (hNew, s) := postponedLoop p env postponedBlocks vSecondary.reverse hNew s
      (true, setTip b.hash hNew s)

end NeutronCore
