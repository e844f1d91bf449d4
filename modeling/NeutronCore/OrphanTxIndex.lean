/-
The by-prev index of the orphan-transaction pool, over every run.

`mapOrphanTransactionsByPrev` files each orphan's hash under the hash of every transaction
it spends from. `AddOrphanTx` files a new orphan under each of its inputs; `EraseOrphanTx`
takes it out of each of their sets and drops a set it leaves empty; the drain of the `tx`
handler only reads the index. So the set filed under `p` holds exactly the pooled orphans
that spend from `p`, in every reachable state (`reachable_orphanTxIndexExact`).

The drain reads the index through `operator[]` (`main.cpp:3954`), which inserts an empty
set at a missing key, and nothing takes that set out again: each transaction the pool
accepts while no orphan waits for it leaves an empty set under its hash. The index then grows with the pool's whole history, not
with the orphans it holds (`orphan_index_keeps_empty_set`).
-/
import NeutronCore.CoreFrame
import NeutronCore.Runs

set_option autoImplicit false

namespace NeutronCore

/-! ## Sets of hashes -/

theorem mem_insertHash {a h : Hash} : ∀ {l : List Hash}, a ∈ insertHash h l ↔ a = h ∨ a ∈ l
  | [] => by simp [insertHash]
  | x :: xs => by
    unfold insertHash
    split
    · exact List.mem_cons
    · split
      · next heq => subst heq; simp
      · simp only [List.mem_cons, mem_insertHash]
        exact or_left_comm

theorem sorted_insertHash (h : Hash) :
    ∀ {l : List Hash}, l.Pairwise (· < ·) → (insertHash h l).Pairwise (· < ·)
  | [], _ => by simp [insertHash]
  | x :: xs, hl => by
    obtain ⟨hx, hxs⟩ := List.pairwise_cons.1 hl
    unfold insertHash
    split
    · next hlt =>
      refine .cons ?_ hl
      simp only [List.mem_cons]
      rintro y (rfl | hy)
      exacts [hlt, hlt.trans (hx y hy)]
    · split
      · exact hl
      · next hlt hne =>
        refine .cons (fun y hy => ?_) (sorted_insertHash h hxs)
        rcases mem_insertHash.1 hy with rfl | hy
        · exact Nat.lt_of_le_of_ne (Nat.le_of_not_lt hlt) (Ne.symm hne)
        · exact hx y hy

/-- Every set of an index is sorted, each hash once: what `std::set` keeps. -/
def SetsSorted (m : SortedMap (List Hash)) : Prop := ∀ p l, m.find? p = some l → l.Pairwise (· < ·)

theorem SetsSorted.nodup {m : SortedMap (List Hash)} (hs : SetsSorted m) (p : Hash) :
    ((m.find? p).getD []).Nodup := by
  cases hp : m.find? p with
  | none => exact .nil
  | some l => exact (hs p l hp).imp Nat.ne_of_lt

/-! ## The invariant -/

/-- The set `mapOrphanTransactionsByPrev` files under `p`, or the empty set. -/
def orphansByPrev (s : ChainState) (p : Hash) : List Hash := (s.mapOrphanTransactionsByPrev.find? p).getD []

/-- The by-prev index as `AddOrphanTx` and `EraseOrphanTx` keep it: the set filed under `p`
holds exactly the pooled orphans with an input spending from `p`, in order, once each. -/
structure OrphanTxIndexExact (s : ChainState) : Prop where
  exact : ∀ p h, h ∈ orphansByPrev s p ↔
    ∃ tx, s.mapOrphanTransactions.find? h = some tx ∧ tx.vin.any (·.prevout.hash == p)
  sorted : SetsSorted s.mapOrphanTransactionsByPrev

/-- The invariant reads the orphan-transaction maps only. -/
theorem OrphanTxIndexExact.of_maps {s s' : ChainState} (h : orphanTxMaps s' = orphanTxMaps s)
    (hx : OrphanTxIndexExact s) : OrphanTxIndexExact s' := by
  obtain ⟨h₁, h₂⟩ := Prod.mk.inj h
  exact ⟨by simpa only [orphansByPrev, h₁, h₂] using hx.exact, by simpa only [h₂] using hx.sorted⟩

/-! ## Filing an orphan -/

/-- The index after an orphan `h` is filed under each of `vin`'s previous hashes. -/
theorem mem_fileUnder (h : Hash) :
    ∀ (vin : List TxIn) (m : SortedMap (List Hash)) (p a : Hash),
      a ∈ ((vin.foldl (fun m i => m.modifyD i.prevout.hash [] (insertHash h)) m).find? p).getD [] ↔
        a ∈ (m.find? p).getD [] ∨ (a = h ∧ vin.any (·.prevout.hash == p))
  | [], _, _, _ => by simp
  | i :: vin, m, p, a => by
    rw [List.foldl_cons, mem_fileUnder h vin, SortedMap.find?_modifyD]
    by_cases hp : p = i.prevout.hash
    · subst hp
      simp only [↓reduceIte, Option.getD_some, mem_insertHash, List.any_cons, beq_self_eq_true,
        Bool.true_or]
      tauto
    · simp only [hp, ↓reduceIte, List.any_cons, Bool.or_eq_true, beq_iff_eq, Ne.symm hp, false_or]

theorem sorted_fileUnder (h : Hash) :
    ∀ (vin : List TxIn) (m : SortedMap (List Hash)), SetsSorted m →
      SetsSorted (vin.foldl (fun m i => m.modifyD i.prevout.hash [] (insertHash h)) m)
  | [], _, hm => hm
  | i :: vin, m, hm => by
    refine sorted_fileUnder h vin _ fun p l hl => ?_
    rw [SortedMap.find?_modifyD] at hl
    split at hl
    · cases hl
      refine sorted_insertHash h ?_
      cases hq : m.find? i.prevout.hash with
      | none => exact .nil
      | some l => exact hm _ _ hq
    · exact hm p l hl

/-- **`AddOrphanTx` keeps the index exact.** -/
theorem exact_AddOrphanTx {s : ChainState} (hx : OrphanTxIndexExact s) (env : Env) (tx : Transaction) :
    OrphanTxIndexExact (AddOrphanTx env tx s).2 := by
  unfold AddOrphanTx
  split; · exact hx
  next hnew =>
  split; · exact hx
  refine ⟨fun p a => ?_, sorted_fileUnder tx.hash tx.vin _ hx.sorted⟩
  simp only [orphansByPrev, mem_fileUnder, SortedMap.find?_insert]
  rw [← orphansByPrev, hx.exact]
  by_cases ha : a = tx.hash
  · subst ha
    simp only [Option.not_isSome_iff_eq_none.1 hnew, ↓reduceIte, reduceCtorEq, false_and, exists_false,
      false_or, true_and, Option.some.injEq, exists_eq_left']
  · simp only [ha, false_and, or_false, ↓reduceIte]

/-! ## Erasing an orphan -/

/-- The index after `hash` leaves the set of one previous hash, dropped when left empty. -/
theorem mem_eraseByPrev (hash : Hash) {m : SortedMap (List Hash)} (hs : SetsSorted m) (i : TxIn)
    (p a : Hash) :
    a ∈ ((eraseByPrev hash m i).find? p).getD [] ↔
      a ∈ (m.find? p).getD [] ∧ (p = i.prevout.hash → a ≠ hash) := by
  have herase := @List.Nodup.mem_erase_iff Hash _ _ hash _ a (hs.nodup i.prevout.hash)
  unfold eraseByPrev
  dsimp only
  split
  · next hempty =>
    simp only [SortedMap.find?_erase, SortedMap.find?_modifyD, ↓reduceIte, Option.getD_some,
      List.isEmpty_iff] at hempty ⊢
    by_cases hp : p = i.prevout.hash
    · subst hp
      simp only [↓reduceIte, Option.getD_none, List.not_mem_nil, false_iff, not_and]
      intro ha hne
      exact absurd (herase.2 ⟨hne trivial, ha⟩) (by rw [hempty]; exact List.not_mem_nil a)
    · simp [hp]
  · simp only [SortedMap.find?_modifyD]
    by_cases hp : p = i.prevout.hash
    · subst hp
      simp only [↓reduceIte, Option.getD_some, herase, forall_const]
      tauto
    · simp [hp]

theorem sorted_eraseByPrev (hash : Hash) {m : SortedMap (List Hash)} (hs : SetsSorted m) (i : TxIn) :
    SetsSorted (eraseByPrev hash m i) := by
  have hsub : ∀ p l, (m.modifyD i.prevout.hash [] (·.erase hash)).find? p = some l →
      l.Pairwise (· < ·) := by
    intro p l hl
    rw [SortedMap.find?_modifyD] at hl
    split at hl
    · cases hl
      cases hq : m.find? i.prevout.hash with
      | none => exact .nil
      | some l => exact (hs _ _ hq).sublist (List.erase_sublist _ _)
    · exact hs p l hl
  unfold eraseByPrev
  dsimp only
  split
  · intro p l hl
    rw [SortedMap.find?_erase] at hl
    split at hl
    · cases hl
    · exact hsub p l hl
  · exact hsub

/-- The index after `hash` leaves the sets of all of `vin`'s previous hashes. -/
theorem mem_eraseUnder (hash : Hash) :
    ∀ (vin : List TxIn) {m : SortedMap (List Hash)}, SetsSorted m → ∀ p a,
      a ∈ ((vin.foldl (eraseByPrev hash) m).find? p).getD [] ↔
        a ∈ (m.find? p).getD [] ∧ (vin.any (·.prevout.hash == p) → a ≠ hash)
  | [], _, _, _, _ => by simp
  | i :: vin, m, hs, p, a => by
    rw [List.foldl_cons, mem_eraseUnder hash vin (sorted_eraseByPrev hash hs i), mem_eraseByPrev hash hs]
    simp only [List.any_cons, Bool.or_eq_true, beq_iff_eq]
    constructor
    · rintro ⟨⟨ha, h₁⟩, h₂⟩
      exact ⟨ha, fun h => h.elim (fun h => h₁ h.symm) h₂⟩
    · rintro ⟨ha, h⟩
      exact ⟨⟨ha, fun hp => h (.inl hp.symm)⟩, fun hv => h (.inr hv)⟩

theorem sorted_eraseUnder (hash : Hash) :
    ∀ (vin : List TxIn) {m : SortedMap (List Hash)}, SetsSorted m →
      SetsSorted (vin.foldl (eraseByPrev hash) m)
  | [], _, hs => hs
  | i :: vin, _, hs => sorted_eraseUnder hash vin (sorted_eraseByPrev hash hs i)

/-- **`EraseOrphanTx` keeps the index exact.** -/
theorem exact_EraseOrphanTx {s : ChainState} (hx : OrphanTxIndexExact s) (hash : Hash) :
    OrphanTxIndexExact (EraseOrphanTx hash s) := by
  unfold EraseOrphanTx
  split
  · exact hx
  · next tx htx =>
    refine ⟨fun p a => ?_, sorted_eraseUnder hash tx.vin hx.sorted⟩
    simp only [orphansByPrev, mem_eraseUnder hash tx.vin hx.sorted, SortedMap.find?_erase]
    rw [← orphansByPrev, hx.exact]
    by_cases ha : a = hash
    · subst ha
      simp only [htx, ↓reduceIte, reduceCtorEq, false_and, exists_false, iff_false, Option.some.injEq,
        exists_eq_left']
      exact fun ⟨h, hn⟩ => hn h rfl
    · simp only [ha, ↓reduceIte, ne_eq, not_false_eq_true, implies_true, and_true]

/-! ## The `tx` handler -/

theorem exact_limitLoop (nMaxOrphans : Nat) (rand : Nat → Hash) :
    ∀ (fuel nEvicted : Nat) (s : ChainState), OrphanTxIndexExact s →
      OrphanTxIndexExact (limitLoop nMaxOrphans rand fuel nEvicted s).2
  | 0, _, _, hx => hx
  | fuel + 1, nEvicted, s, hx => by
    unfold limitLoop
    split; · exact hx
    split; · exact hx
    exact exact_limitLoop nMaxOrphans rand fuel _ _ (exact_EraseOrphanTx hx _)

/-- Reading `mapOrphanTransactions[h]` keeps the index exact: a missing orphan is read as
the empty transaction, which spends from nothing. -/
theorem exact_getInsert {s : ChainState} (hx : OrphanTxIndexExact s) (h : Hash) :
    OrphanTxIndexExact
      { s with mapOrphanTransactions := (s.mapOrphanTransactions.getInsert h Transaction.empty).2 } := by
  refine ⟨fun p a => ?_, hx.sorted⟩
  change a ∈ orphansByPrev s p ↔
    ∃ tx, (s.mapOrphanTransactions.getInsert h Transaction.empty).2.find? a = some tx ∧ _
  rw [hx.exact, SortedMap.find?_getInsert]
  by_cases ha : a = h
  · subst ha
    cases hf : s.mapOrphanTransactions.find? a <;>
      simp only [SortedMap.getInsert, hf, ↓reduceIte, reduceCtorEq, false_and, exists_false,
        Option.some.injEq, exists_eq_left', Transaction.empty, List.any_nil, Bool.false_eq_true, and_false]
  · simp only [ha, ↓reduceIte]

theorem exact_acceptOrphans (p : Params) (env : Env) :
    ∀ (hs work erase : List Hash) (s : ChainState), OrphanTxIndexExact s →
      OrphanTxIndexExact (acceptOrphans p env hs work erase s).2.2
  | [], _, _, _, hx => hx
  | h :: hs, work, erase, s, hx => by
    unfold acceptOrphans
    split
    next orphanTx orphans hg =>
    have hx₁ : OrphanTxIndexExact { s with mapOrphanTransactions := orphans } := by
      have := exact_getInsert hx h
      rwa [hg] at this
    have hx₂ := hx₁.of_maps (keepsOrphans_AcceptToMemoryPool p env _ orphanTx true).txs
    dsimp only
    split <;> exact exact_acceptOrphans p env hs _ _ _ hx₂

/-- `mapOrphanTransactionsByPrev[hashPrev]` creates an empty set, which holds nothing. -/
theorem exact_touchByPrev {s : ChainState} (hx : OrphanTxIndexExact s) (hashPrev : Hash) :
    OrphanTxIndexExact
      { s with mapOrphanTransactionsByPrev := s.mapOrphanTransactionsByPrev.modifyD hashPrev [] id } := by
  refine ⟨fun p a => ?_, fun p l hl => ?_⟩
  · rw [← hx.exact]
    simp only [orphansByPrev, SortedMap.find?_modifyD]
    split <;> simp_all
  · rw [SortedMap.find?_modifyD] at hl
    split at hl
    · cases hl
      cases hq : s.mapOrphanTransactionsByPrev.find? hashPrev with
      | none => exact .nil
      | some l => exact hx.sorted _ _ hq
    · exact hx.sorted p l hl

theorem exact_drainOrphanTxs (p : Params) (env : Env) :
    ∀ (fuel : Nat) (work erase : List Hash) (s : ChainState), OrphanTxIndexExact s →
      OrphanTxIndexExact (drainOrphanTxs p env fuel work erase s).2
  | 0, _, _, _, hx => hx
  | _ + 1, [], _, _, hx => hx
  | fuel + 1, hashPrev :: work, erase, s, hx => by
    unfold drainOrphanTxs
    dsimp only
    exact exact_drainOrphanTxs p env fuel _ _ _
      (exact_acceptOrphans p env _ work erase _ (exact_touchByPrev hx hashPrev))

theorem exact_eraseAll : ∀ (hs : List Hash) {s : ChainState}, OrphanTxIndexExact s →
    OrphanTxIndexExact (hs.foldl (fun s h => EraseOrphanTx h s) s)
  | [], _, hx => hx
  | h :: hs, _, hx => exact_eraseAll hs (exact_EraseOrphanTx hx h)

/-- **The `tx` handler keeps the index exact.** -/
theorem exact_ProcessTx {s : ChainState} (hx : OrphanTxIndexExact s) (p : Params) (env : Env)
    (rand : Nat → Hash) (tx : Transaction) : OrphanTxIndexExact (ProcessTx p env rand tx s) := by
  have k := keepsOrphans_AcceptToMemoryPool p env s tx true
  unfold ProcessTx
  split
  · next s₁ ha =>
    split
    next erase s₂ hd =>
    have hx₂ := exact_drainOrphanTxs p env (s₁.mapOrphanTransactions.length + 1) [tx.hash] [tx.hash] _
      (hx.of_maps (KeepsOrphans.of_eq₃ ha k).txs)
    rw [hd] at hx₂
    exact exact_eraseAll erase hx₂
  · next s₁ ha =>
    exact exact_limitLoop _ _ _ _ _ (exact_AddOrphanTx (hx.of_maps (KeepsOrphans.of_eq₃ ha k).txs) env tx)
  · next s₁ ha => exact hx.of_maps (KeepsOrphans.of_eq₃ ha k).txs

/-! ## Every run -/

theorem exact_LoadBlockIndex (p : Params) (env : Env) (g : Block) :
    OrphanTxIndexExact (LoadBlockIndex p env g).2 :=
  OrphanTxIndexExact.of_maps (keepsOrphans_AddToBlockIndex p env g 1 0 _).txs
    ⟨fun _ _ => iff_of_false (fun h => by cases h) (fun ⟨_, h, _⟩ => by cases h),
      fun _ _ h => by cases h⟩

theorem exact_apply {p : Params} {s : ChainState} (hx : OrphanTxIndexExact s) :
    ∀ e : Event, OrphanTxIndexExact (e.apply p s)
  | .block env b => hx.of_maps (orphanTxMaps_ProcessNewBlock p env b s)
  | .tx env rand t => exact_ProcessTx hx p env rand t

/-- **The by-prev index is exact in every reachable state**: a hash is in the set filed under
`p` exactly when it is a pooled orphan with an input spending from `p`, and every set is
sorted, each hash once. -/
theorem reachable_orphanTxIndexExact {p : Params} {s : ChainState} (h : Reachable p s) :
    OrphanTxIndexExact s := by
  induction h with
  | genesis env g _ => exact exact_LoadBlockIndex p env g
  | step e _ ih => exact exact_apply ih e

/-- The chain to block 11, then a transaction spending chain block 1's coinbase, which the
pool accepts. -/
def emptySetState : ChainState :=
  run testnet
    (chainEvents 11 ++
      [.tx (Env.quiet true 2000000000) (fun _ => 0) (spendFirstCoinbase 301 (1000 + 79 * 11))])
    genesisState

theorem reachable_orphanTxIndexExact_empty_set :
    Reachable testnet emptySetState ∧ OrphanTxIndexExact emptySetState :=
  have h : Reachable testnet emptySetState := genesisState_reachable.run _
  ⟨h, reachable_orphanTxIndexExact h⟩

/-! ## Empty sets left behind -/

/-- **A reachable empty set in the by-prev index.** After the run above the orphan pool is
empty, and the by-prev index has a key, the accepted transaction's hash, with an empty set. -/
theorem orphan_index_keeps_empty_set :
    Reachable testnet emptySetState ∧ emptySetState.mapOrphanTransactions = [] ∧
      emptySetState.mapOrphanTransactionsByPrev = [(301, [])] :=
  ⟨genesisState_reachable.run _, by decide, by decide⟩

end NeutronCore
