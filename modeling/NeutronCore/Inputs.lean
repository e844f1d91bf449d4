/-
One transaction against the chain: `CheckTransaction` (`main.cpp:424`), `GetMinFee`
(`main.cpp:487`), `FetchInputs` (`main.cpp:1131`), `ConnectInputs` (`main.cpp:1276`) and
`DisconnectInputs` (`main.cpp:1095`).

`ConnectInputs` is the one with state. It reads the previous transactions' index entries
from `inputs`, a copy `FetchInputs` made, and writes each spent slot back to
`mapTestPool` as soon as that input has passed, so a transaction that fails at a later
input has already marked its earlier ones. It reports separately whether it stopped at a
slot that was already spent (`txAlreadyUsed`): `CalculateBlockAmounts` lets that one
failure through when it connects a block during a reorganization.

Positions. A block written at `nBlockPos` holds its transactions at `nBlockPos + 1`,
`nBlockPos + 2`, ...: every transaction is given one unit of the file. Offsets are only
ever compared and used as keys, and this keeps them distinct per transaction, as the byte
offsets of `CalculateBlockAmounts` are.
-/
import NeutronCore.State

set_option autoImplicit false

namespace NeutronCore

/-! ## Transactions on disk and in the pool -/

/-- The position of transaction `i` of the block stored at `(nFile, nBlockPos)`. -/
def txPosIn (nFile nBlockPos i : Nat) : DiskTxPos := ⟨nFile, nBlockPos, nBlockPos + 1 + i⟩

/-- `CTransaction::ReadFromDisk(pos)`: the transaction stored at a position. -/
def readTxAt (s : ChainState) (pos : DiskTxPos) : Option Transaction :=
  match s.blockFile (pos.nFile, pos.nBlockPos) with
  | none => none
  | some b => if pos.nBlockPos < pos.nTxPos then b.vtx[pos.nTxPos - pos.nBlockPos - 1]? else none

/-- `mempool.lookup(hash)`, when `mempool.exists(hash)`. -/
def mempoolLookup (s : ChainState) (h : Hash) : Option Transaction :=
  s.mempool.find? (·.hash == h)

/-! ## `CheckTransaction` and `GetMinFee` -/

/-- Whether some element occurs twice: the `std::set` tests of `CheckTransaction`
(`main.cpp:457`) and `CheckBlock` (`main.cpp:2375`). -/
def hasDuplicate {α : Type} [BEq α] : List α → Bool
  | [] => false
  | o :: os => os.contains o || hasDuplicate os

theorem hasDuplicate_eq_false {α : Type} [BEq α] [LawfulBEq α] : ∀ {l : List α}, hasDuplicate l = false → l.Nodup
  | [], _ => List.nodup_nil
  | o :: os, h => by
    rw [hasDuplicate, Bool.or_eq_false_iff] at h
    exact List.nodup_cons.2 ⟨by simpa using h.1, hasDuplicate_eq_false h.2⟩

/-- The output loop of `CheckTransaction` (`main.cpp:441`): no empty output in a user
transaction, every value in `[0, MAX_MONEY]`, and every running total in range. -/
def outputsOk (p : Params) (tx : Transaction) : List TxOut → Int → Bool
  | [], _ => true
  | o :: os, acc =>
    !(o.IsEmpty && !tx.IsCoinBase && !tx.IsCoinStake) && decide (0 ≤ o.nValue) &&
      decide (o.nValue ≤ p.MAX_MONEY) && p.MoneyRange (acc + o.nValue) &&
      outputsOk p tx os (acc + o.nValue)

/-- `CTransaction::CheckTransaction` (`main.cpp:424`). -/
def CheckTransaction (p : Params) (env : Env) (tx : Transaction) : Bool :=
  !tx.vin.isEmpty && !tx.vout.isEmpty && env.txSizeOk tx && outputsOk p tx tx.vout 0 &&
    !hasDuplicate (tx.vin.map TxIn.prevout) &&
    if tx.IsCoinBase then
      p.fTestNet || tx.vin.all fun i => decide (2 ≤ i.scriptSig.length ∧ i.scriptSig.length ≤ 100)
    else tx.vin.all fun i => !i.prevout.IsNull

/-- `CTransaction::GetMinFee(nBlockSize, mode, nBytes)` (`main.cpp:487`); `fRelay` is
`mode == GMF_RELAY`. -/
def GetMinFee (p : Params) (tx : Transaction) (nBlockSize : Nat) (fRelay : Bool) (nBytes : Nat) :
    Int :=
  let nBaseFee := if fRelay then p.MIN_RELAY_TX_FEE else p.MIN_TX_FEE
  let nNewBlockSize := nBlockSize + nBytes
  let nMinFee := (1 + (nBytes / 1000 : Nat)) * nBaseFee
  let nMinFee := if nMinFee < nBaseFee ∧ tx.vout.any (fun o => o.nValue < p.CENT) then nBaseFee
    else nMinFee
  if nBlockSize ≠ 1 ∧ p.MAX_BLOCK_SIZE_GEN / 2 ≤ nNewBlockSize then
    if p.MAX_BLOCK_SIZE_GEN ≤ nNewBlockSize then p.MAX_MONEY
    else
      let nMinFee := nMinFee * (p.MAX_BLOCK_SIZE_GEN / (p.MAX_BLOCK_SIZE_GEN - nNewBlockSize) : Nat)
      if p.MoneyRange nMinFee then nMinFee else p.MAX_MONEY
  else if p.MoneyRange nMinFee then nMinFee else p.MAX_MONEY

/-- `GetMinFee()` with the defaults of `main.h`, `(1, GMF_BLOCK, 0)`, as `ConnectInputs`
calls it. -/
def blockMinFee (p : Params) (tx : Transaction) : Int := GetMinFee p tx 1 false 0

/-! ## `FetchInputs` -/

/-- `MapPrevTx`: per previous transaction hash, its index entry and the transaction. -/
abbrev MapPrevTx := Hash → Option (TxIndex × Transaction)

/-- The first loop of `FetchInputs` (`main.cpp:1143`): each previous transaction once,
its index entry from `mapTestPool` (in a block) or from the database, the transaction from
the pool (when not found, or marked as in the pool) or from disk. -/
def fetchLoop (s : ChainState) (io : DbOp → Bool) (mapTestPool : SortedMap TxIndex)
    (fBlock : Bool) : List TxIn → MapPrevTx → Option MapPrevTx
  | [], m => some m
  | i :: is, m =>
    let h := i.prevout.hash
    if (m h).isSome then fetchLoop s io mapTestPool fBlock is m else
    let found :=
      if fBlock && (mapTestPool.find? h).isSome then mapTestPool.find? h else s.txdb.ReadTxIndex io h
    match found with
    | none =>
      if fBlock then none else
      match mempoolLookup s h with
      | none => none
      | some prev =>
        fetchLoop s io mapTestPool fBlock is (update m h (some (TxIndex.fresh .null prev.vout.length, prev)))
    | some ti =>
      let prev := if ti.pos = .memPool then mempoolLookup s h else readTxAt s ti.pos
      match prev with
      | none => none
      | some prev => fetchLoop s io mapTestPool fBlock is (update m h (some (ti, prev)))

/-- The second loop of `FetchInputs` (`main.cpp:1206`): every prevout index is in range of
the previous transaction and of its spent vector. -/
def inputsInRange (inputs : MapPrevTx) (tx : Transaction) : Bool :=
  tx.vin.all fun i => match inputs i.prevout.hash with
    | none => false
    | some (ti, prev) => decide (i.prevout.n < prev.vout.length ∧ i.prevout.n < ti.vSpent.length)

/-- `CTransaction::FetchInputs` with `fMiner = false`. The error carries `fInvalid`. -/
def FetchInputs (s : ChainState) (io : DbOp → Bool) (mapTestPool : SortedMap TxIndex)
    (fBlock : Bool) (tx : Transaction) : Except Bool MapPrevTx :=
  if tx.IsCoinBase then .ok fun _ => none else
  match fetchLoop s io mapTestPool fBlock tx.vin fun _ => none with
  | none => .error false
  | some inputs => if inputsInRange inputs tx then .ok inputs else .error true

/-- The output an input spends (`CTransaction::GetOutputFor`). -/
def outputFor (inputs : MapPrevTx) (i : TxIn) : Int :=
  match inputs i.prevout.hash with
  | none => 0
  | some (_, prev) => (prev.vout.getD i.prevout.n ⟨0, []⟩).nValue

/-- `CTransaction::GetValueIn` (`main.cpp:1245`). -/
def GetValueIn (inputs : MapPrevTx) (tx : Transaction) : Int :=
  if tx.IsCoinBase then 0 else (tx.vin.map (outputFor inputs)).sum

/-! ## `ConnectInputs` -/

/-- The maturity walk of `ConnectInputs` (`main.cpp:1305`): from `pindexBlock` back along
`pprev` while the depth is below `nCoinbaseMaturity`, whether a node sits at the position
the previous transaction was recorded at. When heights drop by one along `pprev`, as
`AddToBlockIndex` makes them (`main.cpp:2256`), the walk visits at most
`nCoinbaseMaturity` nodes, which is the fuel it gets. -/
def spendsImmature (p : Params) (idx : Hash → Option BlockIndex) (nHeightBlock : Int)
    (pos : DiskTxPos) : Nat → Option Hash → Bool
  | 0, _ => false
  | _, none => false
  | fuel + 1, some h =>
    match idx h with
    | none => false
    | some b =>
      decide (nHeightBlock - b.nHeight < p.nCoinbaseMaturity) &&
        ((b.nBlockPos == pos.nBlockPos && b.nFile == pos.nFile) ||
          spendsImmature p idx nHeightBlock pos fuel b.pprev)

/-- The first loop of `ConnectInputs` (`main.cpp:1288`), the inexpensive checks: range,
maturity, timestamp, values. It returns the value in. -/
def connectCheapLoop (p : Params) (s : ChainState) (tx : Transaction) (inputs : MapPrevTx)
    (pindexBlock : BlockIndex) : List TxIn → Int → Option Int
  | [], nValueIn => some nValueIn
  | i :: is, nValueIn =>
    match inputs i.prevout.hash with
    | none => none
    | some (ti, prev) =>
      if prev.vout.length ≤ i.prevout.n ∨ ti.vSpent.length ≤ i.prevout.n then none
      else if (prev.IsCoinBase || prev.IsCoinStake) &&
          spendsImmature p s.mapBlockIndex pindexBlock.nHeight ti.pos p.nCoinbaseMaturity.toNat
            (some pindexBlock.hash) then none
      else if tx.nTime < prev.nTime then none
      else
        let v := (prev.vout.getD i.prevout.n ⟨0, []⟩).nValue
        if p.MoneyRange v && p.MoneyRange (nValueIn + v) then
          connectCheapLoop p s tx inputs pindexBlock is (nValueIn + v)
        else none

/-- How the second loop of `ConnectInputs` ends. -/
inductive SpendOutcome where
  | ok
  | alreadyUsed
  | badSignature
  | missing
deriving DecidableEq, Repr

/-- The second loop of `ConnectInputs` (`main.cpp:1323`): per input, the double-spend test,
the signature, and the spent slot written to `inputs` and (in a block) to `mapTestPool`.
`nIn` is the input's index, which the signature check is given. -/
def connectSpendLoop (env : Env) (tx : Transaction) (posThisTx : DiskTxPos) (fCheckSig fBlock : Bool) :
    List TxIn → Nat → MapPrevTx → SortedMap TxIndex → SpendOutcome × SortedMap TxIndex
  | [], _, _, pool => (.ok, pool)
  | i :: is, nIn, m, pool =>
    let h := i.prevout.hash
    match m h with
    | none => (.missing, pool)
    | some (ti, prev) =>
      if !(ti.vSpent.getD i.prevout.n .null).IsNull then (.alreadyUsed, pool)
      else if fCheckSig && !env.verifySignature prev tx nIn then (.badSignature, pool)
      else
        let ti' := { ti with vSpent := ti.vSpent.set i.prevout.n posThisTx }
        connectSpendLoop env tx posThisTx fCheckSig fBlock is (nIn + 1) (update m h (some (ti', prev)))
          (if fBlock then pool.insert h ti' else pool)

/-- The fee checks at the end of `ConnectInputs` (`main.cpp:1356`), for a transaction that
is not a coinstake. -/
def feeOk (p : Params) (tx : Transaction) (nValueIn : Int) : Bool :=
  let nTxFee := nValueIn - tx.GetValueOut
  decide (tx.GetValueOut ≤ nValueIn) && decide (0 ≤ nTxFee) && decide (blockMinFee p tx ≤ nTxFee) &&
    p.MoneyRange nTxFee

/-- `CTransaction::ConnectInputs` with `fMiner = false` (`main.cpp:1276`). It returns
whether the transaction connects, `mapTestPool` as the call leaves it, and
`*txAlreadyUsed`. -/
def ConnectInputs (p : Params) (env : Env) (s : ChainState) (tx : Transaction) (inputs : MapPrevTx)
    (mapTestPool : SortedMap TxIndex) (posThisTx : DiskTxPos) (pindexBlock : BlockIndex)
    (fBlock : Bool) : Bool × SortedMap TxIndex × Bool :=
  if tx.IsCoinBase then (true, mapTestPool, false) else
  match connectCheapLoop p s tx inputs pindexBlock tx.vin 0 with
  | none => (false, mapTestPool, false)
  | some nValueIn =>
    let fCheckSig := !(fBlock && decide (s.nBestHeight < env.totalBlocksEstimate))
    match connectSpendLoop env tx posThisTx fCheckSig fBlock tx.vin 0 inputs mapTestPool with
    | (.ok, pool) => (tx.IsCoinStake || feeOk p tx nValueIn, pool, false)
    | (.alreadyUsed, pool) => (false, pool, true)
    | (_, pool) => (false, pool, false)

/-! ## `DisconnectInputs` -/

/-- The input loop of `DisconnectInputs` (`main.cpp:1100`): each spent slot nulled and
written back. -/
def disconnectInputsLoop (io : DbOp → Bool) : List TxIn → TxDb → Bool × TxDb
  | [], db => (true, db)
  | i :: is, db =>
    match db.ReadTxIndex io i.prevout.hash with
    | none => (false, db)
    | some ti =>
      if ti.vSpent.length ≤ i.prevout.n then (false, db) else
      match db.UpdateTxIndex io i.prevout.hash { ti with vSpent := ti.vSpent.set i.prevout.n .null } with
      | (false, db) => (false, db)
      | (true, db) => disconnectInputsLoop io is db

/-- `CTransaction::DisconnectInputs` (`main.cpp:1095`): the result of `EraseTxIndex` is
ignored. -/
def DisconnectInputs (io : DbOp → Bool) (tx : Transaction) (db : TxDb) : Bool × TxDb :=
  match (if tx.IsCoinBase then (true, db) else disconnectInputsLoop io tx.vin db) with
  | (false, db) => (false, db)
  | (true, db) => (true, (db.EraseTxIndex io tx.hash).2)

end NeutronCore
