/-
The calls the `tx` handler makes to `SyncWithWallets` (`main.cpp:112`).

`ProcessTx` in `OrphanTx.lean` is the handler's effect on the chain state. The handler also
tells the wallets about what it admits: `SyncWithWallets(tx, NULL, true)` once the received
transaction is in the pool (`main.cpp:3946`), and once more for each orphan the drain admits
(`main.cpp:3968`). The second call passes `tx`, the received transaction, where the orphan
just admitted is `orphanTx`. `ProcessTxSync` is the handler with the list of transactions it
passes, in order. Its state is `ProcessTx`'s, and it passes the received transaction once
for each transaction it admits, so never an admitted orphan (`ProcessTxSync_syncs_received`). After a transaction whose child waits as an orphan, the
wallets are told about the parent twice and never about the child
(`wallet_sync_skips_orphan`).
-/
import NeutronCore.OrphanTxIndex

set_option autoImplicit false

namespace NeutronCore

/-! ## The handler with its wallet calls -/

/-- The inner loop of the drain (`main.cpp:3957`), with the transactions passed to
`SyncWithWallets`: for each orphan the pool admits, `tx`, the transaction the handler
received (`main.cpp:3968`). -/
def acceptOrphansSync (p : Params) (env : Env) (tx : Transaction) :
    List Hash → List Hash → List Hash → List Transaction → ChainState →
      List Hash × List Hash × List Transaction × ChainState
  | [], work, erase, synced, s => (work, erase, synced, s)
  | h :: hs, work, erase, synced, s =>
    let (orphanTx, orphans) := s.mapOrphanTransactions.getInsert h Transaction.empty
    let r := AcceptToMemoryPool p env { s with mapOrphanTransactions := orphans } orphanTx true
    if r.1 then acceptOrphansSync p env tx hs (work ++ [h]) (erase ++ [h]) (synced ++ [tx]) r.2.2
    else acceptOrphansSync p env tx hs work (if r.2.1 then erase else erase ++ [h]) synced r.2.2

/-- The work-queue loop of the drain (`main.cpp:3954`), with the wallet calls. -/
def drainOrphanTxsSync (p : Params) (env : Env) (tx : Transaction) :
    Nat → List Hash → List Hash → List Transaction → ChainState → List Hash × List Transaction × ChainState
  | 0, _, erase, synced, s => (erase, synced, s)
  | _ + 1, [], erase, synced, s => (erase, synced, s)
  | fuel + 1, hashPrev :: work, erase, synced, s =>
    let s := { s with mapOrphanTransactionsByPrev := s.mapOrphanTransactionsByPrev.modifyD hashPrev [] id }
    let (work, erase, synced, s) :=
      acceptOrphansSync p env tx ((s.mapOrphanTransactionsByPrev.find? hashPrev).getD []) work erase synced s
    drainOrphanTxsSync p env tx fuel work erase synced s

/-- The `tx` and `dstx` handler (`main.cpp:3888`) with the transactions it passes to
`SyncWithWallets`, in order: the received transaction once it is admitted
(`main.cpp:3946`), then the drain's calls. -/
def ProcessTxSync (p : Params) (env : Env) (rand : Nat → Hash) (tx : Transaction) (s : ChainState) :
    List Transaction × ChainState :=
  match AcceptToMemoryPool p env s tx true with
  | (true, _, s) =>
    let (erase, synced, s) :=
      drainOrphanTxsSync p env tx (s.mapOrphanTransactions.length + 1) [tx.hash] [tx.hash] [tx] s
    (synced, erase.foldl (fun s h => EraseOrphanTx h s) s)
  | (false, true, s) => ([], (LimitOrphanTxSize p.MAX_ORPHAN_TRANSACTIONS rand (AddOrphanTx env tx s).2).2)
  | (false, false, s) => ([], s)

/-! ## What the pool gains and what the wallets hear -/

/-- `mempool.accept` appends the transaction it admits and nothing else. -/
theorem AcceptToMemoryPool_mempool (p : Params) (env : Env) (s : ChainState) (t : Transaction) (f : Bool) :
    (AcceptToMemoryPool p env s t f).2.2.mempool =
      s.mempool ++ if (AcceptToMemoryPool p env s t f).1 then [t] else [] := by
  unfold AcceptToMemoryPool
  split
  split <;> simp

theorem EraseOrphanTx_mempool (h : Hash) (s : ChainState) : (EraseOrphanTx h s).mempool = s.mempool := by
  unfold EraseOrphanTx
  split <;> rfl

theorem limitLoop_mempool (nMaxOrphans : Nat) (rand : Nat → Hash) :
    ∀ (fuel nEvicted : Nat) (s : ChainState), (limitLoop nMaxOrphans rand fuel nEvicted s).2.mempool = s.mempool
  | 0, _, _ => rfl
  | fuel + 1, nEvicted, s => by
    unfold limitLoop
    split; · rfl
    split; · rfl
    rw [limitLoop_mempool, EraseOrphanTx_mempool]

theorem eraseAll_mempool : ∀ (erase : List Hash) (s : ChainState),
    (erase.foldl (fun s h => EraseOrphanTx h s) s).mempool = s.mempool
  | [], _ => rfl
  | h :: erase, s => (eraseAll_mempool erase _).trans (EraseOrphanTx_mempool h s)

theorem AddOrphanTx_mempool (env : Env) (tx : Transaction) (s : ChainState) :
    (AddOrphanTx env tx s).2.mempool = s.mempool := by
  unfold AddOrphanTx
  split_ifs <;> rfl

/-- The inner loop with its wallet calls is the inner loop of `ProcessTx`, and it calls the
wallets with `tx` once for each orphan it adds to the pool. -/
theorem acceptOrphansSync_spec (p : Params) (env : Env) (tx : Transaction) :
    ∀ (hs work erase : List Hash) (synced : List Transaction) (s : ChainState),
      (acceptOrphansSync p env tx hs work erase synced s).1 = (acceptOrphans p env hs work erase s).1 ∧
      (acceptOrphansSync p env tx hs work erase synced s).2.1 = (acceptOrphans p env hs work erase s).2.1 ∧
      (acceptOrphansSync p env tx hs work erase synced s).2.2.2 = (acceptOrphans p env hs work erase s).2.2 ∧
      ∃ admitted, (acceptOrphans p env hs work erase s).2.2.mempool = s.mempool ++ admitted ∧
        (acceptOrphansSync p env tx hs work erase synced s).2.2.1 = synced ++ List.replicate admitted.length tx
  | [], _, _, _, _ => ⟨rfl, rfl, rfl, [], by simp [acceptOrphans], by simp [acceptOrphansSync]⟩
  | h :: hs, work, erase, synced, s => by
    unfold acceptOrphansSync acceptOrphans
    dsimp only
    have hm := AcceptToMemoryPool_mempool p env
      { s with mapOrphanTransactions := (s.mapOrphanTransactions.getInsert h Transaction.empty).2 }
      (s.mapOrphanTransactions.getInsert h Transaction.empty).1 true
    split
    · next hacc =>
      obtain ⟨e₁, e₂, e₃, A, hA, hsync⟩ := acceptOrphansSync_spec p env tx hs (work ++ [h]) (erase ++ [h])
        (synced ++ [tx]) _
      refine ⟨e₁, e₂, e₃, (s.mapOrphanTransactions.getInsert h Transaction.empty).1 :: A, ?_, ?_⟩
      · rw [hA, hm, if_pos hacc]
        simp
      · rw [hsync, List.length_cons, List.replicate_succ, List.append_assoc, List.singleton_append]
    · next hacc =>
      obtain ⟨e₁, e₂, e₃, A, hA, hsync⟩ := acceptOrphansSync_spec p env tx hs work _ synced _
      refine ⟨e₁, e₂, e₃, A, ?_, hsync⟩
      rw [hA, hm, if_neg hacc, List.append_nil]

/-- The drain with its wallet calls is the drain of `ProcessTx`, and it calls the wallets
with `tx` once for each orphan it adds to the pool. -/
theorem drainOrphanTxsSync_spec (p : Params) (env : Env) (tx : Transaction) :
    ∀ (fuel : Nat) (work erase : List Hash) (synced : List Transaction) (s : ChainState),
      (drainOrphanTxsSync p env tx fuel work erase synced s).1 = (drainOrphanTxs p env fuel work erase s).1 ∧
      (drainOrphanTxsSync p env tx fuel work erase synced s).2.2 = (drainOrphanTxs p env fuel work erase s).2 ∧
      ∃ admitted, (drainOrphanTxs p env fuel work erase s).2.mempool = s.mempool ++ admitted ∧
        (drainOrphanTxsSync p env tx fuel work erase synced s).2.1 = synced ++ List.replicate admitted.length tx
  | 0, _, _, _, _ => ⟨rfl, rfl, [], by simp [drainOrphanTxs], by simp [drainOrphanTxsSync]⟩
  | _ + 1, [], _, _, _ => ⟨rfl, rfl, [], by simp [drainOrphanTxs], by simp [drainOrphanTxsSync]⟩
  | fuel + 1, hashPrev :: work, erase, synced, s => by
    unfold drainOrphanTxsSync drainOrphanTxs
    dsimp only
    obtain ⟨e₁, e₂, e₃, A, hA, hsync⟩ := acceptOrphansSync_spec p env tx
      (((s.mapOrphanTransactionsByPrev.modifyD hashPrev [] id).find? hashPrev).getD []) work erase synced
      { s with mapOrphanTransactionsByPrev := s.mapOrphanTransactionsByPrev.modifyD hashPrev [] id }
    rw [e₁, e₂, e₃] at *
    obtain ⟨d₁, d₂, B, hB, hsync'⟩ := drainOrphanTxsSync_spec p env tx fuel _ _
      (acceptOrphansSync p env tx _ work erase synced _).2.2.1 _
    refine ⟨d₁, d₂, A ++ B, ?_, ?_⟩
    · rw [hB, hA, List.append_assoc]
    · rw [hsync', hsync, List.length_append, List.replicate_add, List.append_assoc]

/-- **The handler tells the wallets only about the received transaction.** For every
received transaction and every state, the handler with its wallet calls leaves the state
`ProcessTx` leaves; the pool gains a list of transactions, the received one and the orphans
the drain admits, and the wallets are passed the received transaction once for each. -/
theorem ProcessTxSync_syncs_received (p : Params) (env : Env) (rand : Nat → Hash) (tx : Transaction) (s : ChainState) :
    (ProcessTxSync p env rand tx s).2 = ProcessTx p env rand tx s ∧
      ∃ admitted, (ProcessTx p env rand tx s).mempool = s.mempool ++ admitted ∧
        (ProcessTxSync p env rand tx s).1 = List.replicate admitted.length tx := by
  have hm := AcceptToMemoryPool_mempool p env s tx true
  unfold ProcessTxSync ProcessTx
  rcases ha : AcceptToMemoryPool p env s tx true with ⟨_ | _, _ | _, s₁⟩ <;>
    simp only [ha, Bool.false_eq_true, ↓reduceIte] at hm <;> dsimp only
  · -- rejected
    exact ⟨rfl, [], hm, rfl⟩
  · -- missing inputs: the transaction becomes an orphan
    exact ⟨rfl, [], by rw [LimitOrphanTxSize, limitLoop_mempool, AddOrphanTx_mempool, hm], rfl⟩
  all_goals
    -- admitted: the orphans the drain admits follow it into the pool
    obtain ⟨d₁, d₂, B, hB, hsync⟩ := drainOrphanTxsSync_spec p env tx (s₁.mapOrphanTransactions.length + 1)
      [tx.hash] [tx.hash] [tx] s₁
    rw [d₁, d₂]
    refine ⟨rfl, tx :: B, ?_, by rw [hsync, List.length_cons, List.replicate_succ]; rfl⟩
    rw [eraseAll_mempool, hB, hm, List.append_assoc, List.singleton_append]

/-! ## An orphan the wallets never hear of -/

/-- A child of `spendFirstCoinbase 301`, spending its output, which arrives before it. -/
def childOfSpend : Transaction := ⟨302, 1000 + 79 * 11, [⟨⟨301, 0⟩, []⟩], [⟨400000, []⟩]⟩

/-- The chain to block 11, then `childOfSpend`, which waits as an orphan for its parent. -/
def waitingChildState : ChainState :=
  run testnet (chainEvents 11 ++ [.tx (Env.quiet true 2000000000) (fun _ => 0) childOfSpend]) genesisState

set_option maxRecDepth 8000 in
/-- **The drain passes the parent where it admits the child.** In a reachable state where
`childOfSpend` waits as an orphan, the parent arrives: the pool admits the parent and then
the child, and the wallets are passed the parent twice and the child never. -/
theorem wallet_sync_skips_orphan :
    Reachable testnet waitingChildState ∧
      waitingChildState.mapOrphanTransactions.find? childOfSpend.hash = some childOfSpend ∧
      (ProcessTxSync testnet (Env.quiet true 2000000000) (fun _ => 0) (spendFirstCoinbase 301 (1000 + 79 * 11))
          waitingChildState).2.mempool =
        waitingChildState.mempool ++ [spendFirstCoinbase 301 (1000 + 79 * 11), childOfSpend] ∧
      (ProcessTxSync testnet (Env.quiet true 2000000000) (fun _ => 0) (spendFirstCoinbase 301 (1000 + 79 * 11))
          waitingChildState).1 =
        [spendFirstCoinbase 301 (1000 + 79 * 11), spendFirstCoinbase 301 (1000 + 79 * 11)] :=
  ⟨genesisState_reachable.run _, by decide, by decide, by decide⟩

end NeutronCore
