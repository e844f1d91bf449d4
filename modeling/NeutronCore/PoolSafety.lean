/-
The memory pool over every run.

A transaction enters the pool only through `AcceptToMemoryPool`, from the `tx` handler and
its orphan drain with input checks (`AcceptableInputs`, `main.cpp:513`), and from
`Reorganize` without them (`main.cpp:1966`). Either way admission has checked four things
first: `CheckTransaction`, that the transaction is neither a coinbase nor a coinstake, that
its hash is not pooled (`mempool.exists`), and that no pooled transaction spends one of its
inputs (`main.cpp:544`; spec §4.6 for the mode without input checks). Every other write of
the pool removes transactions.

So in every reachable state no two pooled transactions share a hash or spend the same
outpoint, and each is a user transaction that passed the checks of `CheckTransaction` that
need no context (`reachable_poolSafe`): the pool's index `mapNextTx` has one spender per
outpoint. The walk through the core is `CoreStable`'s, and the walk through the block
handler `OrphanStable`'s.

The same facts bound the orphan drain of the `tx` handler: an orphan the drain admits was
not pooled and now is, the pool only grows while the drain runs, and the drain inserts no
orphan. So each round takes one hash off the queue and queues at most one per orphan it
moves into the pool, and the loop ends within one round per pooled orphan plus one
(`drainOrphanTxs_finishes`).
-/
import NeutronCore.CoreSteps
import NeutronCore.WalletSync
import NeutronCore.OrphanLimit

set_option autoImplicit false

namespace NeutronCore

/-! ## The invariant -/

/-- What admission checked of a transaction that does not depend on the rest of the state:
a user transaction with inputs and outputs, no input spent twice, no null prevout, every
output and the running total in money range (`CheckTransaction`, `main.cpp:424`). -/
structure PoolEntry (p : Params) (tx : Transaction) : Prop where
  coinBase : tx.IsCoinBase = false
  coinStake : tx.IsCoinStake = false
  vin : tx.vin ≠ []
  vout : tx.vout ≠ []
  outputs : outputsOk p tx tx.vout 0 = true
  distinct : (tx.vin.map TxIn.prevout).Nodup
  notNull : ∀ i ∈ tx.vin, i.prevout.IsNull = false

/-- The pool as admission keeps it: no two transactions share a hash, no two spend the same
outpoint, and each passed the checks that need no context. -/
structure PoolSafe (p : Params) (pool : List Transaction) : Prop where
  hashes : (pool.map Transaction.hash).Nodup
  disjoint : pool.Pairwise fun a b => (a.vin.map TxIn.prevout).Disjoint (b.vin.map TxIn.prevout)
  entry : ∀ tx ∈ pool, PoolEntry p tx

/-- The guards `AcceptToMemoryPool` passed before it appended `tx` to `pool`. -/
structure Admits (p : Params) (env : Env) (pool : List Transaction) (tx : Transaction) : Prop where
  check : CheckTransaction p env tx = true
  coinBase : tx.IsCoinBase = false
  coinStake : tx.IsCoinStake = false
  fresh : mempoolExists pool tx.hash = false
  noConflict : (tx.vin.any fun i => pool.any (spends · i.prevout)) = false

theorem PoolEntry.of_admits {p : Params} {env : Env} {pool : List Transaction} {tx : Transaction}
    (ha : Admits p env pool tx) : PoolEntry p tx := by
  have hc := ha.check
  simp only [CheckTransaction, ha.coinBase, Bool.false_eq_true, ↓reduceIte, Bool.and_eq_true,
    Bool.not_eq_true', List.isEmpty_eq_false, List.all_eq_true, Bool.not_eq_true] at hc
  obtain ⟨⟨⟨⟨⟨hvin, hvout⟩, -⟩, hout⟩, hdup⟩, hnull⟩ := hc
  exact ⟨ha.coinBase, ha.coinStake, hvin, hvout, hout, hasDuplicate_eq_false hdup, hnull⟩

/-- A pool keeps the invariant when transactions leave it. -/
theorem PoolSafe.sublist {p : Params} {pool pool' : List Transaction} (h : PoolSafe p pool)
    (hs : pool'.Sublist pool) : PoolSafe p pool' :=
  ⟨h.hashes.sublist (hs.map _), h.disjoint.sublist hs, fun tx htx => h.entry tx (hs.subset htx)⟩

/-- **Admission keeps the invariant**: a fresh hash, no input a pooled transaction spends,
and the context-free checks of the newcomer. -/
theorem PoolSafe.admit {p : Params} {env : Env} {pool : List Transaction} {tx : Transaction}
    (h : PoolSafe p pool) (ha : Admits p env pool tx) : PoolSafe p (pool ++ [tx]) := by
  have hfresh := ha.fresh
  have hconf := ha.noConflict
  simp only [mempoolExists, List.any_eq_false, beq_iff_eq, spends, List.any_eq_true,
    not_exists, not_and] at hfresh hconf
  refine ⟨?_, ?_, fun t ht => ?_⟩
  · rw [List.map_append, List.nodup_append]
    refine ⟨h.hashes, List.nodup_singleton _, fun x hx hx' => ?_⟩
    obtain ⟨t, ht, rfl⟩ := List.mem_map.1 hx
    exact hfresh t ht (List.mem_singleton.1 hx')
  · rw [List.pairwise_append]
    refine ⟨h.disjoint, List.pairwise_singleton _ _, fun a ha' b hb o hoa hob => ?_⟩
    rw [List.mem_singleton.1 hb] at hob
    obtain ⟨j, hj, rfl⟩ := List.mem_map.1 hoa
    obtain ⟨i, hi, hij⟩ := List.mem_map.1 hob
    exact hconf i hi a ha' j hj hij.symm
  · rcases List.mem_append.1 ht with ht | ht
    · exact h.entry t ht
    · rw [List.mem_singleton.1 ht]
      exact .of_admits ha

/-! ## Admission -/

/-- A guard that returns `(false, false)` did not hold in a call that accepted. -/
theorem ite_guard {c : Prop} [Decidable c] {b : Bool × Bool} (h : (if c then (false, false) else b).1 = true) :
    ¬c ∧ b.1 = true := by
  by_cases hc : c
  · rw [if_pos hc] at h; cases h
  · rw [if_neg hc] at h; exact ⟨hc, h⟩

/-- The four guards of `AcceptableInputs` come before anything that can accept. -/
theorem AcceptableInputs_admits {p : Params} {env : Env} {s : ChainState} {tx : Transaction}
    {fLimitFree : Bool} (h : (AcceptableInputs p env s tx fLimitFree).1 = true) :
    Admits p env s.mempool tx := by
  obtain ⟨h₁, h⟩ := ite_guard h
  obtain ⟨-, h⟩ := ite_guard h
  obtain ⟨h₃, h⟩ := ite_guard h
  obtain ⟨h₄, -⟩ := ite_guard h
  simp only [Bool.or_eq_true, Bool.not_eq_true', not_or, Bool.not_eq_true, Bool.not_eq_false] at h₁ h₃ h₄
  exact ⟨h₁.1.1, h₁.1.2, h₁.2, h₃, h₄⟩

/-- **What `AcceptToMemoryPool` does**, in either mode: it leaves the state, or it appends
`tx` to the pool after the guards of `Admits` passed. -/
theorem AcceptToMemoryPool_cases (p : Params) (env : Env) (s : ChainState) (tx : Transaction)
    (fCheckInputs : Bool) :
    (AcceptToMemoryPool p env s tx fCheckInputs).2.2 = s ∨
      Admits p env s.mempool tx ∧
        (AcceptToMemoryPool p env s tx fCheckInputs).2.2 = { s with mempool := s.mempool ++ [tx] } := by
  unfold AcceptToMemoryPool
  split
  next ok _ hg =>
  split
  · next hok =>
    refine .inr ⟨?_, rfl⟩
    split at hg
    · exact AcceptableInputs_admits (by rw [hg]; exact hok)
    · rw [← (Prod.mk.inj hg).1] at hok
      simp only [Bool.and_eq_true, Bool.not_eq_true'] at hok
      obtain ⟨⟨⟨⟨⟨hc, hb⟩, hs⟩, -⟩, hf⟩, hn⟩ := hok
      exact ⟨hc, hb, hs, hf, hn⟩
  · exact .inl rfl

theorem poolSafe_AcceptToMemoryPool {p : Params} (env : Env) {s : ChainState} (tx : Transaction)
    (fCheckInputs : Bool) (h : PoolSafe p s.mempool) :
    PoolSafe p (AcceptToMemoryPool p env s tx fCheckInputs).2.2.mempool := by
  rcases AcceptToMemoryPool_cases p env s tx fCheckInputs with e | ⟨ha, e⟩ <;> rw [e]
  exacts [h, h.admit ha]

/-! ## The core and the block handler -/

/-- From `s` to `s'` the pool stays safe if it was. -/
def KeepsPool (p : Params) (s s' : ChainState) : Prop := PoolSafe p s.mempool → PoolSafe p s'.mempool

theorem KeepsPool.of_mempool {p : Params} {s s' : ChainState} (h : s'.mempool = s.mempool) :
    KeepsPool p s s' := fun hs => h ▸ hs

/-- The core's writes keep the pool safe: connecting, disconnecting and recording an invalid
chain leave it, re-admission is admission, and pruning removes transactions. -/
theorem keepsPool_stable (p : Params) (env : Env) : CoreStable p env (KeepsPool p) where
  refl _ := id
  trans h₁ h₂ := h₂ ∘ h₁
  connect b h _ _ _ s := .of_mempool (frame_ConnectBlock p env b h _ _ _ s).mempool
  disconnect b h s := .of_mempool (frame_DisconnectBlock env b h s).mempool
  invalid h s := .of_mempool (untouched_InvalidChainFound h s).mempool
  write _ _ _ _ _ hm hs := hs.sublist hm
  readmit _ tx := poolSafe_AcceptToMemoryPool env tx false

theorem keepsPool_orphanStable (p : Params) : OrphanStable (KeepsPool p) where
  refl _ := id
  trans h₁ h₂ := h₂ ∘ h₁
  stash _ _ := id
  drop _ _ := id
  byPrev _ _ := id

theorem keepsPool_AddToBlockIndex (p : Params) (env : Env) (b : Block) (nFile nBlockPos : Nat)
    (s : ChainState) : KeepsPool p s (AddToBlockIndex p env b nFile nBlockPos s).2 := by
  rcases AddToBlockIndex_files p env b nFile nBlockPos s with e | ⟨-, _, _, _, -, -, e | ⟨-, e⟩⟩ <;>
    rw [e]
  · exact id
  · exact id
  · -- the pool `SetBestChain` leaves is one the core's writes reach, `setTip` apart
    obtain ⟨r, hr, e' | ⟨hTip, e', -⟩⟩ := stable_SetBestChain (keepsPool_stable p env) b b.hash _ <;>
      rw [e']
    exacts [hr, hr]

theorem keepsPool_AcceptBlock (p : Params) (env : Env) (b : Block) (s : ChainState) :
    KeepsPool p s (AcceptBlock p env b s).2 := by
  rcases AcceptBlock_cases p env b s with e | ⟨_, -, -, e⟩ <;> rw [e]
  exacts [id, fun hs => keepsPool_AddToBlockIndex p env b 1 _ _ hs]

/-! ## The `tx` handler -/

theorem keepsPool_acceptOrphans (p : Params) (env : Env) :
    ∀ (hs work erase : List Hash) (s : ChainState), KeepsPool p s (acceptOrphans p env hs work erase s).2.2
  | [], _, _, _ => id
  | h :: hs, work, erase, s => by
    unfold acceptOrphans
    split
    next orphanTx orphans _ =>
    have k : KeepsPool p s _ := poolSafe_AcceptToMemoryPool (s := { s with mapOrphanTransactions := orphans })
      env orphanTx true
    dsimp only
    split <;> exact keepsPool_acceptOrphans p env hs _ _ _ ∘ k

theorem keepsPool_drainOrphanTxs (p : Params) (env : Env) :
    ∀ (fuel : Nat) (work erase : List Hash) (s : ChainState),
      KeepsPool p s (drainOrphanTxs p env fuel work erase s).2
  | 0, _, _, _ => id
  | _ + 1, [], _, _ => id
  | fuel + 1, hashPrev :: work, erase, s => by
    unfold drainOrphanTxs
    intro hs
    exact keepsPool_drainOrphanTxs p env fuel _ _ _ (keepsPool_acceptOrphans p env _ _ _ _ hs)

theorem keepsPool_ProcessTx (p : Params) (env : Env) (rand : Nat → Hash) (tx : Transaction)
    (s : ChainState) : KeepsPool p s (ProcessTx p env rand tx s) := by
  have k : KeepsPool p s _ := poolSafe_AcceptToMemoryPool env tx true
  unfold ProcessTx
  split
  · next s₁ ha =>
    split
    next erase s₂ hd =>
    have k₂ : KeepsPool p s₁ s₂ := rel_of_eq hd (keepsPool_drainOrphanTxs p env _ _ _ s₁)
    exact (KeepsPool.of_mempool (eraseAll_mempool erase s₂)) ∘ k₂ ∘ rel_of_eq₃ ha k
  · next s₁ ha =>
    refine KeepsPool.of_mempool ?_ ∘ rel_of_eq₃ ha k
    rw [LimitOrphanTxSize, limitLoop_mempool, AddOrphanTx_mempool]
  · next s₁ ha => exact rel_of_eq₃ ha k

theorem keepsPool_apply (p : Params) : ∀ (e : Event) (s : ChainState), KeepsPool p s (e.apply p s)
  | .block env b, s =>
    orphanStable_processNewBlockWith (keepsPool_orphanStable p) _ (keepsPool_AcceptBlock p env) p env b s
  | .tx env rand t, s => keepsPool_ProcessTx p env rand t s

/-- **The memory pool is safe in every reachable state**: no two pooled transactions share a
hash or spend the same outpoint, and each is a user transaction with inputs and outputs, no
input spent twice, no null prevout, and its outputs in money range. -/
theorem reachable_poolSafe {p : Params} {s : ChainState} (h : Reachable p s) : PoolSafe p s.mempool := by
  induction h with
  | genesis env g _ => exact keepsPool_AddToBlockIndex p env g 1 0 _ ⟨.nil, .nil, nofun⟩
  | step e _ ih => exact keepsPool_apply p e _ ih

theorem reachable_poolSafe_first_spend :
    emptySetState.mempool = [spendFirstCoinbase 301 (1000 + 79 * 11)] ∧
      PoolSafe testnet emptySetState.mempool :=
  ⟨by decide, reachable_poolSafe (genesisState_reachable.run _)⟩

/-! ## The orphan drain of the `tx` handler ends -/

/-- The entry a lookup of a `std::map` finds is one of the map's. -/
theorem SortedMap.mem_of_find? {V : Type} {m : SortedMap V} {k : Hash} {v : V} (h : m.find? k = some v) :
    (k, v) ∈ m := by
  obtain ⟨_, _, rfl, -⟩ := List.lookup_eq_some_iff.1 h
  exact List.mem_append_right _ (.head _)

/-- An admission appends a transaction whose hash was not pooled. -/
theorem AcceptToMemoryPool_admitted {p : Params} {env : Env} {s : ChainState} {tx : Transaction} {f : Bool}
    (h : (AcceptToMemoryPool p env s tx f).1 = true) :
    mempoolExists s.mempool tx.hash = false ∧
      (AcceptToMemoryPool p env s tx f).2.2 = { s with mempool := s.mempool ++ [tx] } := by
  have hm := AcceptToMemoryPool_mempool p env s tx f
  rw [h, if_pos rfl] at hm
  rcases AcceptToMemoryPool_cases p env s tx f with e | ⟨ha, e⟩
  · rw [e] at hm
    exact absurd (congrArg List.length hm) (by simp)
  · exact ⟨ha.fresh, e⟩

/-- A refusal leaves the state. -/
theorem AcceptToMemoryPool_refused {p : Params} {env : Env} {s : ChainState} {tx : Transaction} {f : Bool}
    (h : (AcceptToMemoryPool p env s tx f).1 = false) : (AcceptToMemoryPool p env s tx f).2.2 = s := by
  have hm := AcceptToMemoryPool_mempool p env s tx f
  rw [h] at hm
  rcases AcceptToMemoryPool_cases p env s tx f with e | ⟨-, e⟩
  · exact e
  · rw [e] at hm
    exact absurd (congrArg List.length hm) (by simp)

/-- The pooled orphans whose hash the memory pool does not hold yet. -/
def pendingOrphans (s : ChainState) : Nat :=
  (s.mapOrphanTransactions.filter fun e => !mempoolExists s.mempool e.2.hash).length

theorem pendingOrphans_byPrev (s : ChainState) (m : SortedMap (List Hash)) :
    pendingOrphans { s with mapOrphanTransactionsByPrev := m } = pendingOrphans s := rfl

/-- Admitting a pooled orphan that was not in the memory pool leaves one orphan fewer pending. -/
theorem pendingOrphans_admit {s : ChainState} {h : Hash} {tx : Transaction}
    (hmem : (h, tx) ∈ s.mapOrphanTransactions) (hfresh : mempoolExists s.mempool tx.hash = false) :
    pendingOrphans { s with mempool := s.mempool ++ [tx] } + 1 ≤ pendingOrphans s := by
  have e : s.mapOrphanTransactions.filter (fun e => !mempoolExists (s.mempool ++ [tx]) e.2.hash) =
      (s.mapOrphanTransactions.filter fun e => !mempoolExists s.mempool e.2.hash).filter
        fun e => !(tx.hash == e.2.hash) := by
    rw [List.filter_filter]
    refine List.filter_congr fun e _ => ?_
    simp only [mempoolExists, List.any_append, List.any_cons, List.any_nil, Bool.or_false, Bool.not_or,
      Bool.and_comm, Bool.beq_comm]
  unfold pendingOrphans
  rw [e]
  exact List.length_filter_lt_length_iff_exists.2
    ⟨(h, tx), List.mem_filter.2 ⟨hmem, by rw [hfresh]; rfl⟩, by simp⟩

/-- One pass of the inner loop queues at most as many hashes as it moves orphans into the
pool. -/
theorem acceptOrphans_pending (p : Params) (env : Env) :
    ∀ (hs work erase : List Hash) (s : ChainState), (∀ h ∈ hs, (s.mapOrphanTransactions.find? h).isSome) →
      (acceptOrphans p env hs work erase s).1.length + pendingOrphans (acceptOrphans p env hs work erase s).2.2 ≤
        work.length + pendingOrphans s
  | [], _, _, _, _ => le_rfl
  | h :: hs, work, erase, s, hp => by
    obtain ⟨tx, htx⟩ := Option.isSome_iff_exists.1 (hp h (.head _))
    have hg : s.mapOrphanTransactions.getInsert h Transaction.empty = (tx, s.mapOrphanTransactions) := by
      rw [SortedMap.getInsert, htx]
    have hs' : ∀ h' ∈ hs, (s.mapOrphanTransactions.find? h').isSome := fun h' h'' => hp h' (.tail _ h'')
    unfold acceptOrphans
    rw [hg]
    dsimp only
    -- the read writes nothing back
    rw [show AcceptToMemoryPool p env { s with mapOrphanTransactions := s.mapOrphanTransactions } tx true =
      AcceptToMemoryPool p env s tx true from rfl]
    split
    · next ha =>
      obtain ⟨hfresh, e⟩ := AcceptToMemoryPool_admitted ha
      have ih :=
        acceptOrphans_pending p env hs (work ++ [h]) (erase ++ [h]) { s with mempool := s.mempool ++ [tx] } hs'
      have hd := pendingOrphans_admit (SortedMap.mem_of_find? htx) hfresh
      rw [e]
      simp only [List.length_append, List.length_singleton] at ih
      omega
    · next ha =>
      rw [AcceptToMemoryPool_refused (Bool.eq_false_iff.2 ha)]
      exact acceptOrphans_pending p env hs work _ s hs'

/-- The drain's fuel is no cut once it covers the queue and the pending orphans. -/
theorem drainOrphanTxs_fuel_indep (p : Params) (env : Env) :
    ∀ (fuel : Nat) (work erase : List Hash) (s : ChainState), OrphanTxIndexExact s →
      work.length + pendingOrphans s ≤ fuel →
      ∀ k, drainOrphanTxs p env (fuel + k) work erase s = drainOrphanTxs p env fuel work erase s
  | 0, work, _, _, _, h, k => by
    rw [List.eq_nil_of_length_eq_zero (by omega : work.length = 0)]
    cases k <;> rfl
  | fuel + 1, [], _, _, _, _, k => by rw [Nat.add_right_comm]; rfl
  | fuel + 1, hashPrev :: work, erase, s, hx, h, k => by
    rw [Nat.add_right_comm]
    unfold drainOrphanTxs
    dsimp only
    have hx₁ := exact_touchByPrev hx hashPrev
    refine drainOrphanTxs_fuel_indep p env fuel _ _ _ (exact_acceptOrphans p env _ work erase _ hx₁) ?_ k
    refine le_trans (acceptOrphans_pending p env _ work erase _ fun h hh => ?_) ?_
    · -- every hash the round reads is a pooled orphan
      obtain ⟨tx, htx, -⟩ := (hx₁.exact hashPrev h).1 hh
      rw [htx]; rfl
    · rw [pendingOrphans_byPrev]
      simp only [List.length_cons] at h
      omega

/-- **The orphan drain of the `tx` handler always finishes.** Its loop over `vWorkQueue`
(`main.cpp:3954`) grows the queue while it walks it, yet from any state whose by-prev index
is exact (every reachable one) it empties the queue within one round per pooled orphan plus
one: the fuel the handler's model gives it is the loop run to its end, and any more fuel
yields the same erase list and state. -/
theorem drainOrphanTxs_finishes (p : Params) (env : Env) {s : ChainState} (hx : OrphanTxIndexExact s)
    (h : Hash) (erase : List Hash) (k : Nat) :
    drainOrphanTxs p env (s.mapOrphanTransactions.length + 1 + k) [h] erase s =
      drainOrphanTxs p env (s.mapOrphanTransactions.length + 1) [h] erase s := by
  have hle : pendingOrphans s ≤ s.mapOrphanTransactions.length := List.length_filter_le _ _
  exact drainOrphanTxs_fuel_indep p env _ [h] erase s hx (by simp only [List.length_singleton]; omega) k

/-- The drain started at the hash of `childOfSpend`'s parent, in the state where the child
waits for it as an orphan. -/
theorem drainOrphanTxs_finishes_waiting_child :
    OrphanTxIndexExact waitingChildState ∧
      drainOrphanTxs testnet (Env.quiet true 2000000000) (waitingChildState.mapOrphanTransactions.length + 1 + 3)
          [301] [301] waitingChildState =
        drainOrphanTxs testnet (Env.quiet true 2000000000) (waitingChildState.mapOrphanTransactions.length + 1)
          [301] [301] waitingChildState :=
  have hx : OrphanTxIndexExact waitingChildState := (orphanPool_reachable (genesisState_reachable.run _)).1
  ⟨hx, drainOrphanTxs_finishes testnet _ hx 301 [301] 3⟩

end NeutronCore
