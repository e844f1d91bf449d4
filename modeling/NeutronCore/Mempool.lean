/-
The memory pool as the chain-state core uses it: `AcceptableInputs` (`main.cpp:513`), and
the pool operations of `txmempool.cpp`, which is not under `src/` and is modelled from
spec §4.3 and §4.6: `remove`, `removeConflicts` and `accept`.

The pool is its transactions in arrival order. `mapNextTx`, the pool's index from a spent
outpoint to its spender, is what `spends` computes from them.
-/
import NeutronCore.Inputs

set_option autoImplicit false

namespace NeutronCore

/-! ## The pool's operations -/

/-- Whether a transaction spends an outpoint. -/
def spends (tx : Transaction) (o : OutPoint) : Bool := tx.vin.any (·.prevout == o)

/-- `mempool.exists(hash)`. -/
def mempoolExists (pool : List Transaction) (h : Hash) : Bool := pool.any (·.hash == h)

/-- Modelled from the spec: `CTxMemPool::remove` is in `txmempool.cpp`, which is not under
`src/`. Spec §4.3: the transaction leaves the pool. -/
def mempoolRemove (pool : List Transaction) (tx : Transaction) : List Transaction :=
  pool.filter (·.hash != tx.hash)

/-- Modelled from the spec: `CTxMemPool::removeConflicts` is in `txmempool.cpp`, which is
not under `src/`. Spec §4.3: "drop any mempool tx whose inputs collide with tx". -/
def removeConflicts (pool : List Transaction) (tx : Transaction) : List Transaction :=
  pool.filter fun t => t.hash == tx.hash || !t.vin.any (fun i => spends tx i.prevout)

/-! ## `AcceptableInputs` -/

/-- The first loop of `AcceptableInputs` (`main.cpp:632`): range, maturity against the
tip, timestamp, values. It returns the value in. -/
def acceptCheapLoop (p : Params) (s : ChainState) (tx : Transaction) (inputs : MapPrevTx) :
    List TxIn → Int → Option Int
  | [], nValueIn => some nValueIn
  | i :: is, nValueIn =>
    match inputs i.prevout.hash with
    | none => none
    | some (ti, prev) =>
      if prev.vout.length ≤ i.prevout.n ∨ ti.vSpent.length ≤ i.prevout.n then none
      else if (prev.IsCoinBase || prev.IsCoinStake) &&
          (match s.pindexBest.bind s.mapBlockIndex with
           | none => false
           | some best => spendsImmature p s.mapBlockIndex best.nHeight ti.pos
               p.nCoinbaseMaturity.toNat (some best.hash)) then none
      else if tx.nTime < prev.nTime then none
      else
        let v := (prev.vout.getD i.prevout.n ⟨0, []⟩).nValue
        if p.MoneyRange v && p.MoneyRange (nValueIn + v) then acceptCheapLoop p s tx inputs is (nValueIn + v)
        else none

/-- The second loop of `AcceptableInputs` (`main.cpp:670`): no input is spent already. The
slots it marks are in a local copy, and no signature is checked. -/
def acceptSpendLoop (tx : Transaction) : List TxIn → MapPrevTx → Bool
  | [], _ => true
  | i :: is, m =>
    match m i.prevout.hash with
    | none => false
    | some (ti, prev) =>
      (ti.vSpent.getD i.prevout.n .null).IsNull &&
        acceptSpendLoop tx is
          (update m i.prevout.hash (some ({ ti with vSpent := ti.vSpent.set i.prevout.n .memPool }, prev)))

/-- `AcceptableInputs(pool, tx, fLimitFree, pfMissingInputs)` (`main.cpp:513`), on the
node's pool: whether the transaction is acceptable, and `*pfMissingInputs`. -/
def AcceptableInputs (p : Params) (env : Env) (s : ChainState) (tx : Transaction) (fLimitFree : Bool) :
    Bool × Bool :=
  if !CheckTransaction p env tx || tx.IsCoinBase || tx.IsCoinStake then (false, false)
  else if !p.fTestNet && !env.isStandard tx then (false, false)
  else if mempoolExists s.mempool tx.hash then (false, false)
  else if tx.vin.any (fun i => s.mempool.any (spends · i.prevout)) then (false, false)
  else if (s.txdb.ReadTxIndex env.ioFail tx.hash).isSome then (false, false)
  else
  match FetchInputs s env.ioFail [] false tx with
  | .error fInvalid => (false, !fInvalid)
  | .ok inputs =>
    let nFees := GetValueIn inputs tx - tx.GetValueOut
    let txMinFee := GetMinFee p tx 1000 true (env.txSize tx)
    if (fLimitFree && nFees < txMinFee) || (!fLimitFree && nFees < p.MIN_TX_FEE) then (false, false)
    else if fLimitFree && nFees < p.MIN_RELAY_TX_FEE && !env.freeRelayOk tx then (false, false)
    else
    match acceptCheapLoop p s tx inputs tx.vin 0 with
    | none => (false, false)
    | some nValueIn =>
      (acceptSpendLoop tx tx.vin inputs && (tx.IsCoinStake || feeOk p tx nValueIn), false)

/-! ## `mempool.accept` -/

/-- Modelled from the spec: `CTxMemPool::accept` is in `txmempool.cpp`, which is not under
`src/`. Spec §4.6: with `fCheckInputs`, the checks of `AcceptableInputs` (free transactions
rate-limited); without, the checks that need no inputs (spec §4.6, "Preconditions"). An
accepted transaction joins the pool. The second component is `*pfMissingInputs`. -/
def AcceptToMemoryPool (p : Params) (env : Env) (s : ChainState) (tx : Transaction)
    (fCheckInputs : Bool) : Bool × Bool × ChainState :=
  let (ok, fMissingInputs) :=
    if fCheckInputs then AcceptableInputs p env s tx true
    else (CheckTransaction p env tx && !tx.IsCoinBase && !tx.IsCoinStake &&
        (p.fTestNet || env.isStandard tx) && !mempoolExists s.mempool tx.hash &&
        !tx.vin.any (fun i => s.mempool.any (spends · i.prevout)), false)
  if ok then (true, fMissingInputs, { s with mempool := s.mempool ++ [tx] })
  else (false, fMissingInputs, s)

end NeutronCore
