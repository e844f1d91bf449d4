/-
One block against the chain: `CheckBlock` (`main.cpp:2321`), the subsidy schedules,
`CalculateBlockAmounts` (`main.cpp:1473`), `ConnectBlock` (`main.cpp:1584`) and
`DisconnectBlock` (`main.cpp:1449`).

`ConnectBlock` stages every index change in `mapQueuedChanges`, a local `std::map`, and
writes the staged entries to the database only after every check has passed and only when
`fJustCheck` is false. Two things it does are easy to miss, and the model keeps both: the
node's `nMint` and `nMoneySupply` change in memory before the checks that can still reject
the block, and the node's own block-index record is written before the `fJustCheck`
return.

`CalculateBlockAmounts` is called with `skipTxCheck = reorganize`. When it is set, the
BIP30 test is skipped and a transaction whose `ConnectInputs` stopped at an
already-spent slot is recorded all the same (`main.cpp:1560`).
-/
import NeutronCore.Inputs

set_option autoImplicit false

namespace NeutronCore

/-! ## `CheckBlock` -/

/-- `CBlock::CheckBlock(fCheckPOW, fCheckMerkleRoot, fCheckSig)` (`main.cpp:2321`). The
proof-of-work test is commented out in the source (`main.cpp:2328`), so `fCheckPOW` is
read by nothing. -/
def CheckBlock (p : Params) (env : Env) (b : Block) (fCheckMerkleRoot fCheckSig : Bool) : Bool :=
  !b.vtx.isEmpty && env.blockSizeOk b &&
    decide (b.GetBlockTime ≤ p.FutureDrift env.adjustedTime) &&
    (match b.vtx with
      | cb :: rest => cb.IsCoinBase && rest.all (fun tx => !tx.IsCoinBase) &&
          decide (b.GetBlockTime ≤ p.FutureDrift cb.nTime)
      | [] => false) &&
    (!b.IsProofOfStake ||
      match b.vtx with
      | cb :: _ :: rest =>
        (match cb.vout with | [o] => o.IsEmpty | _ => false) &&
          rest.all (fun tx => !tx.IsCoinStake) && (!fCheckSig || env.blockSignatureOk b)
      | _ => false) &&
    b.vtx.all (fun tx => CheckTransaction p env tx && decide ((tx.nTime : Int) ≤ b.GetBlockTime)) &&
    !hasDuplicate (b.vtx.map Transaction.hash) && env.sigOpsOk b &&
    (!fCheckMerkleRoot || env.merkleRootOk b)

/-! ## Subsidies and payments -/

/-- `GetProofOfWorkReward` (`main.cpp:890`). On testnet the fees are not added. -/
def GetProofOfWorkReward (p : Params) (nFees : Int) (nHeight : Int) : Int :=
  if p.fTestNet then (if nHeight = 1 then 50000000 * p.COIN else 5000 * p.COIN) else
  let nSubsidy :=
    if nHeight < 120 then 0 else if nHeight < 950 then 750 * p.COIN
    else if nHeight < 1400 then 550 * p.COIN else if nHeight < 1900 then 425 * p.COIN
    else if nHeight < 2400 then 325 * p.COIN else if nHeight < 2850 then 251 * p.COIN
    else if nHeight < 3500 then 190 * p.COIN else if nHeight < 4000 then 105 * p.COIN else 0
  nSubsidy + nFees

/-- `g_RewardHalvingPeriod` (`main.cpp:926`). -/
def g_RewardHalvingPeriod : Int := 1000000

/-- `GetProofOfStakeReward` (`main.cpp:929`). The coin age is not read. -/
def GetProofOfStakeReward (p : Params) (_nCoinAge : Nat) (nFees : Int) (nHeight : Int) : Int :=
  let nSubsidy :=
    if nHeight < 5000 then 30 * p.COIN else if nHeight < 7000 then 45 * p.COIN
    else if nHeight < 7250 then 190 * p.COIN else if nHeight < 8500 then 80 * p.COIN
    else if nHeight < 10000 then 15 * p.COIN else if nHeight < 13500 then 30 * p.COIN
    else
      let halvings := nHeight / g_RewardHalvingPeriod
      let s := if 64 ≤ halvings then 0 else 40 * p.COIN / 2 ^ halvings.toNat
      s - s * (nHeight % g_RewardHalvingPeriod) / (2 * g_RewardHalvingPeriod)
  nSubsidy + nFees

/-- `GetDeveloperPayment` (`main.cpp:4540`). -/
def GetDeveloperPayment (p : Params) (nBlockValue : Int) : Int :=
  nBlockValue * p.DEVELOPER_PAYMENT_V2 / p.COIN

/-- `GetMasternodePayment` (`main.cpp:4554`). -/
def GetMasternodePayment (p : Params) (_nHeight : Int) (blockValue : Int) : Int :=
  (blockValue - GetDeveloperPayment p blockValue) * 66 / 100

/-- `ENFORCE_MN_PAYMENT_HEIGHT` and `ENFORCE_DEV_PAYMENT_HEIGHT` (`main.cpp:62`). -/
def ENFORCE_MN_PAYMENT_HEIGHT : Int := 1100000
def ENFORCE_DEV_PAYMENT_HEIGHT : Int := 1200000

/-- The payment checks of a proof-of-stake block outside initial download
(`main.cpp:1680`–`1815`): the masternode amount, the masternode payee (the environment's
answer), and the developer payment. -/
def paymentsOk (p : Params) (env : Env) (b : Block) (nHeight : Int) (nCalculatedStakeReward : Int)
    (postponedBlocks : Int) : Bool :=
  let nRequiredMnPmt := GetMasternodePayment p nHeight nCalculatedStakeReward
  let nRequiredDevPmt := GetDeveloperPayment p nCalculatedStakeReward
  let vout := (b.vtx.getD 1 ⟨0, 0, [], []⟩).vout
  (vout.any (fun o => o.nValue == nRequiredMnPmt) || decide (nHeight < ENFORCE_MN_PAYMENT_HEIGHT)) &&
    env.masternodePayeeOk b nHeight postponedBlocks &&
    (vout.any (fun o => o.nValue == nRequiredDevPmt && o.scriptPubKey == p.developerScript) ||
      decide (nHeight < ENFORCE_DEV_PAYMENT_HEIGHT))

/-- The input loop of `CTransaction::GetCoinAge` (`main.cpp:2173`), in cent-seconds. -/
def coinAgeLoop (p : Params) (env : Env) (s : ChainState) (tx : Transaction) :
    List TxIn → Int → Option Int
  | [], acc => some acc
  | i :: is, acc =>
    let prev := (s.txdb.ReadTxIndex env.ioFail i.prevout.hash).bind fun ti =>
      (readTxAt s ti.pos).bind fun prev =>
        if i.prevout.n < prev.vout.length then some (ti, prev) else none
    match prev with
    | none => coinAgeLoop p env s tx is acc
    | some (ti, prev) =>
      if tx.nTime < prev.nTime then none else
      match s.blockFile (ti.pos.nFile, ti.pos.nBlockPos) with
      | none => none
      | some blk =>
        if (tx.nTime : Int) < blk.GetBlockTime + p.nStakeMinAge then coinAgeLoop p env s tx is acc
        else coinAgeLoop p env s tx is
          (acc + (prev.vout.getD i.prevout.n ⟨0, []⟩).nValue * (tx.nTime - prev.nTime) / p.CENT)

/-- `CTransaction::GetCoinAge` (`main.cpp:2164`), in coin-days. -/
def GetCoinAge (p : Params) (env : Env) (s : ChainState) (tx : Transaction) : Option Nat :=
  if tx.IsCoinBase then some 0 else
  (coinAgeLoop p env s tx tx.vin 0).map fun c => (c * p.CENT / p.COIN / (24 * 60 * 60)).toNat

/-! ## `CalculateBlockAmounts` -/

/-- The four totals `CalculateBlockAmounts` accumulates. -/
structure Amounts where
  nFees : Int := 0
  nValueIn : Int := 0
  nValueOut : Int := 0
  nStakeReward : Int := 0
deriving DecidableEq, Repr

/-- The totals after a transaction that is not a coinbase (`main.cpp:1538`): its values in
and out are added, and its fee recorded, or for a coinstake its reward. -/
def Amounts.addSpend (a : Amounts) (tx : Transaction) (nTxValueIn : Int) : Amounts :=
  let nTxValueOut := tx.GetValueOut
  { nFees := if tx.IsCoinStake then a.nFees else a.nFees + (nTxValueIn - nTxValueOut)
    nValueIn := a.nValueIn + nTxValueIn
    nValueOut := a.nValueOut + nTxValueOut
    nStakeReward := if tx.IsCoinStake then nTxValueOut - nTxValueIn else a.nStakeReward }

/-- The BIP30 test (`main.cpp:1510`): an older transaction with this hash may be
overwritten only when all its outputs are spent. -/
def bip30Ok (io : DbOp → Bool) (db : TxDb) (h : Hash) : Bool :=
  match db.ReadTxIndex io h with
  | none => true
  | some old => old.vSpent.all fun pos => !pos.IsNull

/-- The transaction loop of `CalculateBlockAmounts` (`main.cpp:1493`). `nTxPos` is the
offset the next transaction gets; with `fJustCheck` it stays at 1. -/
def amountsLoop (p : Params) (env : Env) (s : ChainState) (pindex : BlockIndex)
    (fJustCheck skipTxCheck fConnectInputs : Bool) :
    List Transaction → Nat → SortedMap TxIndex → Amounts → Option (SortedMap TxIndex × Amounts)
  | [], _, q, a => some (q, a)
  | tx :: txs, nTxPos, q, a =>
    if !skipTxCheck && !bip30Ok env.ioFail s.txdb tx.hash then none else
    let posThisTx : DiskTxPos := ⟨pindex.nFile, pindex.nBlockPos, nTxPos⟩
    let nTxPos' := if fJustCheck then nTxPos else nTxPos + 1
    if tx.IsCoinBase then
      amountsLoop p env s pindex fJustCheck skipTxCheck fConnectInputs txs nTxPos'
        (q.insert tx.hash (TxIndex.fresh posThisTx tx.vout.length))
        { a with nValueOut := a.nValueOut + tx.GetValueOut }
    else
    match FetchInputs s env.ioFail q true tx with
    | .error _ => none
    | .ok inputs =>
      let a := a.addSpend tx (GetValueIn inputs tx)
      let (ok, q, txAlreadyUsed) :=
        if fConnectInputs then ConnectInputs p env s tx inputs q posThisTx pindex true
        else (true, q, false)
      if ok || (skipTxCheck && txAlreadyUsed) then
        amountsLoop p env s pindex fJustCheck skipTxCheck fConnectInputs txs nTxPos'
          (q.insert tx.hash (TxIndex.fresh posThisTx tx.vout.length)) a
      else none

/-- `CBlock::CalculateBlockAmounts` (`main.cpp:1473`): the staged index changes and the
totals, or `none` when the block is rejected. -/
def CalculateBlockAmounts (p : Params) (env : Env) (s : ChainState) (b : Block) (pindex : BlockIndex)
    (fJustCheck skipTxCheck fConnectInputs : Bool) : Option (SortedMap TxIndex × Amounts) :=
  if !env.sigOpsOk b then none else
  amountsLoop p env s pindex fJustCheck skipTxCheck fConnectInputs b.vtx
    (if fJustCheck then 1 else pindex.nBlockPos + 1) [] {}

/-! ## `ConnectBlock` -/

/-- `CDiskBlockIndex(pindex)`: the node with the hash of its `pnext`, or 0. -/
def diskIndex (s : ChainState) (node : BlockIndex) : DiskBlockIndex :=
  ⟨node, (s.pnext node.hash).getD 0⟩

/-- The reward checks of `ConnectBlock` (`main.cpp:1631`–`1663`), past the hardcoded
checkpoint height 17901: a proof-of-work coinbase pays at most `GetProofOfWorkReward`,
a coinstake earns at most `GetProofOfStakeReward`; outside initial download the payments of
a proof-of-stake block are checked as well. -/
def rewardOk (p : Params) (env : Env) (s : ChainState) (b : Block) (nHeight : Int) (a : Amounts)
    (postponedBlocks : Int) : Bool :=
  if b.IsProofOfWork then
    !(17901 < nHeight &&
      decide (GetProofOfWorkReward p a.nFees nHeight < (b.vtx.headD ⟨0, 0, [], []⟩).GetValueOut))
  else
    match GetCoinAge p env s (b.vtx.getD 1 ⟨0, 0, [], []⟩) with
    | none => false
    | some nCoinAge =>
      let nCalculatedStakeReward := GetProofOfStakeReward p nCoinAge a.nFees nHeight
      !(17901 < nHeight && decide (nCalculatedStakeReward < a.nStakeReward)) &&
        (env.ibd || paymentsOk p env b nHeight nCalculatedStakeReward postponedBlocks)

/-- The writes at the end of `ConnectBlock` (`main.cpp:1828`–`1846`): the staged index
entries in key order, then the parent's record with `hashNext` set to this block. -/
def flushQueued (io : DbOp → Bool) : SortedMap TxIndex → TxDb → Bool × TxDb
  | [], db => (true, db)
  | (h, ti) :: rest, db =>
    match db.UpdateTxIndex io h ti with
    | (false, db) => (false, db)
    | (true, db) => flushQueued io rest db

/-- `CBlock::ConnectBlock(txdb, pindex, fJustCheck, reorganize, postponedBlocks)`
(`main.cpp:1584`). `pindex` is the node's hash; the node is updated in `mapBlockIndex`
as the source updates it through the pointer. -/
def ConnectBlock (p : Params) (env : Env) (b : Block) (hIndex : Hash) (fJustCheck reorganize : Bool)
    (postponedBlocks : Int) (s : ChainState) : Bool × ChainState :=
  match s.mapBlockIndex hIndex with
  | none => (false, s)
  | some pindex =>
  if !CheckBlock p env b (!fJustCheck) false then (false, s) else
  match CalculateBlockAmounts p env s b pindex fJustCheck reorganize true with
  | none => (false, s)
  | some (q, a) =>
    let prevSupply := (pindex.pprev.bind s.mapBlockIndex).map BlockIndex.nMoneySupply
    let node := { pindex with nMint := a.nValueOut - a.nValueIn + a.nFees
                              nMoneySupply := prevSupply.getD 0 }
    let s := { s with mapBlockIndex := update s.mapBlockIndex hIndex (some node) }
    if node.nMoneySupply = 0 && !env.ibd then (false, s) else
    let node := { node with nMoneySupply := node.nMoneySupply + a.nValueOut - a.nValueIn }
    let s := { s with mapBlockIndex := update s.mapBlockIndex hIndex (some node) }
    if !rewardOk p env s b node.nHeight a postponedBlocks then (false, s) else
    match s.txdb.WriteBlockIndex env.ioFail (diskIndex s node) with
    | (false, db) => (false, { s with txdb := db })
    | (true, db) =>
    if fJustCheck then (true, { s with txdb := db }) else
    match flushQueued env.ioFail q db with
    | (false, db) => (false, { s with txdb := db })
    | (true, db) =>
    match node.pprev.bind s.mapBlockIndex with
    | none => (true, { s with txdb := db })
    | some prev =>
      let (ok, db) := db.WriteBlockIndex env.ioFail ⟨prev, hIndex⟩
      (ok, { s with txdb := db })

/-! ## `DisconnectBlock` -/

/-- The transaction loop of `DisconnectBlock` (`main.cpp:1452`), over `vtx` reversed. -/
def disconnectTxs (io : DbOp → Bool) : List Transaction → TxDb → Bool × TxDb
  | [], db => (true, db)
  | tx :: txs, db =>
    match DisconnectInputs io tx db with
    | (false, db) => (false, db)
    | (true, db) => disconnectTxs io txs db

/-- `CBlock::DisconnectBlock(txdb, pindex)` (`main.cpp:1449`): the inputs released in
reverse order, then the parent's record written with `hashNext = 0`. -/
def DisconnectBlock (env : Env) (b : Block) (hIndex : Hash) (s : ChainState) : Bool × ChainState :=
  match disconnectTxs env.ioFail b.vtx.reverse s.txdb with
  | (false, db) => (false, { s with txdb := db })
  | (true, db) =>
    match ((s.mapBlockIndex hIndex).bind BlockIndex.pprev).bind s.mapBlockIndex with
    | none => (true, { s with txdb := db })
    | some prev =>
      let (ok, db) := db.WriteBlockIndex env.ioFail ⟨prev, 0⟩
      (ok, { s with txdb := db })

end NeutronCore
