/-
The orphan-transaction pool: `AddOrphanTx` (`main.cpp:179`), `EraseOrphanTx`
(`main.cpp:215`), `LimitOrphanTxSize` (`main.cpp:233`), and the `tx`/`dstx` handler of
`ProcessMessage` (`main.cpp:3888`) that fills and drains it.

`mapOrphanTransactionsByPrev` is a `std::map` from a previous transaction's hash to a
`std::set` of orphan hashes, and the source reaches its sets through `operator[]`, which
inserts an empty set at a missing key. `EraseOrphanTx` removes a set once it is empty; the
drain of the handler (`main.cpp:3954`) reads `mapOrphanTransactionsByPrev[hashPrev]` for
every accepted transaction and removes nothing, so the model keeps every `operator[]`.
-/
import NeutronCore.Mempool

set_option autoImplicit false

namespace NeutronCore

/-! ## Sets of hashes -/

/-- `std::set<uint256>::insert`: the set kept in order, one copy of each element. -/
def insertHash (h : Hash) : List Hash → List Hash
  | [] => [h]
  | x :: xs => if h < x then h :: x :: xs else if h = x then x :: xs else x :: insertHash h xs

/-! ## Adding, erasing, evicting -/

/-- `AddOrphanTx(tx)` (`main.cpp:179`): a new orphan of at most 5000 bytes is stored, and
filed under the hash of every transaction it spends from. -/
def AddOrphanTx (env : Env) (tx : Transaction) (s : ChainState) : Bool × ChainState :=
  if (s.mapOrphanTransactions.find? tx.hash).isSome then (false, s)
  else if 5000 < env.txSize tx then (false, s)
  else (true, { s with
    mapOrphanTransactions := s.mapOrphanTransactions.insert tx.hash tx
    mapOrphanTransactionsByPrev := tx.vin.foldl
      (fun m i => m.modifyD i.prevout.hash [] (insertHash tx.hash)) s.mapOrphanTransactionsByPrev })

/-- The input loop of `EraseOrphanTx` (`main.cpp:222`): the hash leaves the set of each
previous hash, and a set left empty is removed. -/
def eraseByPrev (hash : Hash) (m : SortedMap (List Hash)) (i : TxIn) : SortedMap (List Hash) :=
  let m := m.modifyD i.prevout.hash [] (·.erase hash)
  if ((m.find? i.prevout.hash).getD []).isEmpty then m.erase i.prevout.hash else m

/-- `EraseOrphanTx(hash)` (`main.cpp:215`). -/
def EraseOrphanTx (hash : Hash) (s : ChainState) : ChainState :=
  match s.mapOrphanTransactions.find? hash with
  | none => s
  | some tx =>
    { s with mapOrphanTransactionsByPrev := tx.vin.foldl (eraseByPrev hash) s.mapOrphanTransactionsByPrev
             mapOrphanTransactions := s.mapOrphanTransactions.erase hash }

/-- The orphan `LimitOrphanTxSize` evicts for the random hash `r`: the first at or above
`r`, or the first of all (`main.cpp:240`). -/
def evictionVictim (m : SortedMap Transaction) (r : Hash) : Option Hash :=
  ((List.find? (fun e => r ≤ e.1) m).orElse fun _ => List.head? m).map (·.1)

/-- The loop of `LimitOrphanTxSize` (`main.cpp:237`); `rand n` is the `n`-th draw of
`GetRandHash()`. Each round removes one orphan, so the pool's size is enough fuel. -/
def limitLoop (nMaxOrphans : Nat) (rand : Nat → Hash) : Nat → Nat → ChainState → Nat × ChainState
  | 0, nEvicted, s => (nEvicted, s)
  | fuel + 1, nEvicted, s =>
    if s.mapOrphanTransactions.length ≤ nMaxOrphans then (nEvicted, s) else
    match evictionVictim s.mapOrphanTransactions (rand nEvicted) with
    | none => (nEvicted, s)
    | some h => limitLoop nMaxOrphans rand fuel (nEvicted + 1) (EraseOrphanTx h s)

/-- `LimitOrphanTxSize(nMaxOrphans)` (`main.cpp:233`): the number evicted. -/
def LimitOrphanTxSize (nMaxOrphans : Nat) (rand : Nat → Hash) (s : ChainState) : Nat × ChainState :=
  limitLoop nMaxOrphans rand s.mapOrphanTransactions.length 0 s

/-! ## The `tx` handler -/

/-- The empty transaction `operator[]` default-constructs. -/
def Transaction.empty : Transaction := ⟨0, 0, [], []⟩

/-- The inner loop of the drain (`main.cpp:3957`), over the set of one previous hash: each
orphan is offered to the pool; one accepted joins both queues, one rejected for a reason
other than missing inputs joins the erase queue. -/
def acceptOrphans (p : Params) (env : Env) :
    List Hash → List Hash → List Hash → ChainState → List Hash × List Hash × ChainState
  | [], work, erase, s => (work, erase, s)
  | h :: hs, work, erase, s =>
    let (orphanTx, orphans) := s.mapOrphanTransactions.getInsert h Transaction.empty
    let r := AcceptToMemoryPool p env { s with mapOrphanTransactions := orphans } orphanTx true
    if r.1 then acceptOrphans p env hs (work ++ [h]) (erase ++ [h]) r.2.2
    else acceptOrphans p env hs work (if r.2.1 then erase else erase ++ [h]) r.2.2

/-- The work-queue loop of the drain (`main.cpp:3954`); `mapOrphanTransactionsByPrev[hashPrev]`
creates the set it reads. An orphan enters the pool at most once, so one round per orphan
and one for the transaction itself are enough fuel. -/
def drainOrphanTxs (p : Params) (env : Env) : Nat → List Hash → List Hash → ChainState →
    List Hash × ChainState
  | 0, _, erase, s => (erase, s)
  | _ + 1, [], erase, s => (erase, s)
  | fuel + 1, hashPrev :: work, erase, s =>
    let s := { s with mapOrphanTransactionsByPrev := s.mapOrphanTransactionsByPrev.modifyD hashPrev [] id }
    let (work, erase, s) :=
      acceptOrphans p env ((s.mapOrphanTransactionsByPrev.find? hashPrev).getD []) work erase s
    drainOrphanTxs p env fuel work erase s

/-- The `tx` and `dstx` handler of `ProcessMessage` (`main.cpp:3888`) once the transaction
is read. An accepted transaction drains the orphans that wait for it, then everything in
the erase queue leaves the orphan pool; one with missing inputs becomes an orphan, and the
pool is cut back to `MAX_ORPHAN_TRANSACTIONS`. -/
def ProcessTx (p : Params) (env : Env) (rand : Nat → Hash) (tx : Transaction) (s : ChainState) :
    ChainState :=
  match AcceptToMemoryPool p env s tx true with
  | (true, _, s) =>
    let (erase, s) := drainOrphanTxs p env (s.mapOrphanTransactions.length + 1) [tx.hash] [tx.hash] s
    erase.foldl (fun s h => EraseOrphanTx h s) s
  | (false, true, s) => (LimitOrphanTxSize p.MAX_ORPHAN_TRANSACTIONS rand (AddOrphanTx env tx s).2).2
  | (false, false, s) => s

end NeutronCore
