/-
`LimitOrphanTxSize` (`main.cpp:233`): evicting orphans until the pool is small enough.

Each round draws a hash, takes the first orphan at or above it, or the first orphan of all
when none is (`lower_bound` at `end()` wraps to `begin()`), and erases it through
`EraseOrphanTx`. A nonempty pool always has such an orphan (`evictionVictim_mem`), and a
`std::map` holds each key once, so each round takes exactly one orphan out. What a run of
rounds leaves is said by `Evicts`: the pool less the evicted orphans, and the by-prev index
less exactly their entries, each evicted orphan's hash gone from the sets of the hashes its
inputs spend from. One erase is such a step (`Evicts.EraseOrphanTx`), and steps compose
(`Evicts.trans`). So whatever the random draws, the loop stops after
`|mapOrphanTransactions| - nMaxOrphans` rounds, with `min |mapOrphanTransactions| nMaxOrphans`
orphans left, and returns the number of rounds (`LimitOrphanTxSize_evicts`).
-/
import NeutronCore.OrphanTxIndex

set_option autoImplicit false

namespace NeutronCore

/-! ## Erasing one key of a `std::map` -/

namespace SortedKeys

variable {V : Type} {m : SortedMap V}

theorem erase (hs : SortedKeys m) (k : Hash) : SortedKeys (m.erase k) :=
  hs.sublist (List.filter_sublist _)

/-- Erasing a key the map holds takes out exactly one entry. -/
theorem length_erase (hs : SortedKeys m) {k : Hash} (hk : k ∈ m.map Prod.fst) :
    (m.erase k).length + 1 = m.length := by
  induction m with
  | nil => cases hk
  | cons e m ih =>
    obtain ⟨he, hm⟩ := List.pairwise_cons.1 hs
    unfold SortedMap.erase at ih ⊢
    rw [List.filter_cons]
    by_cases hek : e.1 = k
    · -- every later key is above `k`, so nothing else goes
      subst hek
      rw [bne_self_eq_false, if_neg Bool.false_ne_true,
        List.filter_eq_self.2 fun b hb => bne_iff_ne.2 (ne_of_lt (he b hb)).symm, List.length_cons]
    · rw [if_pos (bne_iff_ne.2 hek), List.length_cons, ih hm ((List.mem_cons.1 hk).resolve_left (Ne.symm hek)),
        List.length_cons]

end SortedKeys

/-- A key the map holds has an entry. -/
theorem SortedMap.find?_isSome_of_mem {V : Type} {m : SortedMap V} {k : Hash} (hk : k ∈ m.map Prod.fst) :
    (m.find? k).isSome := by
  induction m with
  | nil => cases hk
  | cons e m ih =>
    obtain ⟨k', v⟩ := e
    rw [SortedMap.find?_cons]
    split
    · rfl
    · next hne => exact ih ((List.mem_cons.1 hk).resolve_left hne)

/-! ## The victim of one round -/

/-- The victim of a round is an orphan of the pool. -/
theorem evictionVictim_mem {m : SortedMap Transaction} {r h : Hash} (hv : evictionVictim m r = some h) :
    h ∈ m.map Prod.fst := by
  unfold evictionVictim at hv
  obtain ⟨e, he, rfl⟩ := Option.map_eq_some'.1 hv
  refine List.mem_map_of_mem _ ?_
  cases hf : List.find? (fun e => decide (r ≤ e.1)) m with
  | some e' =>
    rw [hf] at he
    exact Option.some.inj he ▸ List.mem_of_find?_eq_some hf
  | none =>
    rw [hf] at he
    exact List.mem_of_mem_head? he

/-- A nonempty pool has a victim for every draw. -/
theorem evictionVictim_isSome {m : SortedMap Transaction} (hm : m ≠ []) (r : Hash) :
    (evictionVictim m r).isSome := by
  obtain ⟨e, m', rfl⟩ := List.exists_cons_of_ne_nil hm
  unfold evictionVictim
  cases List.find? (fun e => decide (r ≤ e.1)) (e :: m') <;> rfl

/-! ## What evicting leaves -/

/-- `s'` is `s` with the orphans `evicted` erased: each was pooled once, the pool keeps
exactly the others, and the by-prev index loses exactly the entries of the evicted orphans,
each one's hash in the set of every hash its inputs spend from. -/
structure Evicts (s s' : ChainState) (evicted : List Hash) : Prop where
  nodup : evicted.Nodup
  pooled : ∀ h ∈ evicted, (s.mapOrphanTransactions.find? h).isSome
  pool : ∀ h tx, s'.mapOrphanTransactions.find? h = some tx ↔
    s.mapOrphanTransactions.find? h = some tx ∧ h ∉ evicted
  length : s'.mapOrphanTransactions.length + evicted.length = s.mapOrphanTransactions.length
  byPrev : ∀ p a, a ∈ orphansByPrev s' p ↔ a ∈ orphansByPrev s p ∧
    ¬ (a ∈ evicted ∧ ∃ tx, s.mapOrphanTransactions.find? a = some tx ∧ tx.vin.any (·.prevout.hash == p))

namespace Evicts

theorem refl (s : ChainState) : Evicts s s [] :=
  ⟨List.nodup_nil, nofun, by simp, rfl, by simp⟩

/-- **One erase evicts one orphan.** On a `std::map` pool whose by-prev sets are
`std::set`s, `EraseOrphanTx` of a pooled orphan evicts exactly it. -/
theorem EraseOrphanTx {s : ChainState} {h : Hash} {tx : Transaction}
    (htx : s.mapOrphanTransactions.find? h = some tx) (hk : SortedKeys s.mapOrphanTransactions)
    (hsets : SetsSorted s.mapOrphanTransactionsByPrev) : Evicts s (EraseOrphanTx h s) [h] := by
  have hmem : h ∈ s.mapOrphanTransactions.map Prod.fst := by
    by_contra hn
    rw [SortedMap.find?_of_not_mem hn] at htx
    cases htx
  rw [NeutronCore.EraseOrphanTx, htx]
  refine ⟨List.nodup_singleton h, by simp [htx], fun k t => ?_, hk.length_erase hmem, fun p a => ?_⟩
  · by_cases hkh : k = h <;> simp [hkh]
  · simp only [orphansByPrev, mem_eraseUnder h tx.vin hsets, List.mem_singleton]
    constructor
    · rintro ⟨ha, hn⟩
      exact ⟨ha, fun ⟨hah, t, ht, hsp⟩ => hn (by rw [hah, htx] at ht; cases ht; exact hsp) hah⟩
    · rintro ⟨ha, hn⟩
      exact ⟨ha, fun hsp hah => hn ⟨hah, tx, hah ▸ htx, hsp⟩⟩

/-- Evictions one after the other evict both lists. -/
theorem trans {s₁ s₂ s₃ : ChainState} {e₁ e₂ : List Hash} (h₁ : Evicts s₁ s₂ e₁) (h₂ : Evicts s₂ s₃ e₂) :
    Evicts s₁ s₃ (e₁ ++ e₂) := by
  -- the orphans of the second list were still pooled after the first
  have hpooled : ∀ h ∈ e₂, (s₁.mapOrphanTransactions.find? h).isSome ∧ h ∉ e₁ := fun h hh => by
    obtain ⟨t, ht⟩ := Option.isSome_iff_exists.1 (h₂.pooled h hh)
    obtain ⟨ht₁, hn⟩ := (h₁.pool h t).1 ht
    exact ⟨by rw [ht₁]; rfl, hn⟩
  refine ⟨List.nodup_append.2 ⟨h₁.nodup, h₂.nodup, fun a ha hb => (hpooled a hb).2 ha⟩,
    fun h hh => ?_, fun h t => ?_, by have := h₁.length; have := h₂.length; simp only [List.length_append]; omega,
    fun p a => ?_⟩
  · rcases List.mem_append.1 hh with hh | hh
    exacts [h₁.pooled h hh, (hpooled h hh).1]
  · rw [h₂.pool, h₁.pool, List.mem_append]
    tauto
  · rw [h₂.byPrev, h₁.byPrev, List.mem_append]
    have hfind : ∀ t, s₂.mapOrphanTransactions.find? a = some t ↔
        s₁.mapOrphanTransactions.find? a = some t ∧ a ∉ e₁ := h₁.pool a
    simp only [hfind]
    constructor
    · rintro ⟨⟨ha, hn₁⟩, hn₂⟩
      refine ⟨ha, fun ⟨he, t, ht, hsp⟩ => he.elim (fun he => hn₁ ⟨he, t, ht, hsp⟩) fun he => ?_⟩
      exact hn₂ ⟨he, t, ⟨ht, fun he₁ => hn₁ ⟨he₁, t, ht, hsp⟩⟩, hsp⟩
    · rintro ⟨ha, hn⟩
      exact ⟨⟨ha, fun ⟨he, t, ht, hsp⟩ => hn ⟨.inl he, t, ht, hsp⟩⟩,
        fun ⟨he, t, ⟨ht, _⟩, hsp⟩ => hn ⟨.inr he, t, ht, hsp⟩⟩

end Evicts

/-! ## The loop -/

/-- **The rounds of `LimitOrphanTxSize`.** With fuel for the rounds, the loop evicts
`|mapOrphanTransactions| - nMaxOrphans` orphans and counts each. -/
theorem limitLoop_evicts (nMaxOrphans : Nat) (rand : Nat → Hash) :
    ∀ (fuel nEvicted : Nat) (s : ChainState), SortedKeys s.mapOrphanTransactions →
      SetsSorted s.mapOrphanTransactionsByPrev → s.mapOrphanTransactions.length - nMaxOrphans ≤ fuel →
      ∃ evicted, Evicts s (limitLoop nMaxOrphans rand fuel nEvicted s).2 evicted ∧
        (limitLoop nMaxOrphans rand fuel nEvicted s).1 = nEvicted + evicted.length ∧
        evicted.length = s.mapOrphanTransactions.length - nMaxOrphans
  | 0, _, s, _, _, hf => ⟨[], .refl s, rfl, (Nat.eq_zero_of_le_zero hf).symm⟩
  | fuel + 1, nEvicted, s, hk, hsets, hf => by
    unfold limitLoop
    split
    · next hlen => exact ⟨[], .refl s, rfl, (Nat.sub_eq_zero_of_le hlen).symm⟩
    next hlen =>
    obtain ⟨h, hv⟩ := Option.isSome_iff_exists.1
      (@evictionVictim_isSome s.mapOrphanTransactions (fun h0 => by rw [h0] at hlen; exact hlen (Nat.zero_le _))
        (rand nEvicted))
    rw [hv]
    dsimp only
    -- one round evicts the victim, a pooled orphan
    obtain ⟨tx, htx⟩ := Option.isSome_iff_exists.1 (SortedMap.find?_isSome_of_mem (evictionVictim_mem hv))
    have hstep := Evicts.EraseOrphanTx htx hk hsets
    have hlen₁ : (EraseOrphanTx h s).mapOrphanTransactions.length + 1 = s.mapOrphanTransactions.length :=
      hstep.length
    have hk' : SortedKeys (EraseOrphanTx h s).mapOrphanTransactions := by
      rw [NeutronCore.EraseOrphanTx, htx]
      exact hk.erase h
    have hsets' : SetsSorted (EraseOrphanTx h s).mapOrphanTransactionsByPrev := by
      rw [NeutronCore.EraseOrphanTx, htx]
      exact sorted_eraseUnder h tx.vin hsets
    obtain ⟨e, he, hcount, hlen'⟩ := limitLoop_evicts nMaxOrphans rand fuel (nEvicted + 1) _ hk' hsets' (by omega)
    exact ⟨h :: e, hstep.trans he, by rw [hcount, List.length_cons]; omega, by rw [List.length_cons]; omega⟩

/-- **`LimitOrphanTxSize` evicts down to the limit.** For every orphan pool held as a
`std::map` with `std::set`s in its by-prev index, every limit and every sequence of random
hashes, `LimitOrphanTxSize` returns `|mapOrphanTransactions| - nMaxOrphans`, leaves
`min |mapOrphanTransactions| nMaxOrphans` orphans, and has evicted that many distinct pooled
orphans through `EraseOrphanTx`: the pool keeps exactly the others, and the by-prev index
loses exactly the evicted orphans' entries. -/
theorem LimitOrphanTxSize_evicts (nMaxOrphans : Nat) (rand : Nat → Hash) (s : ChainState)
    (hk : SortedKeys s.mapOrphanTransactions) (hsets : SetsSorted s.mapOrphanTransactionsByPrev) :
    (LimitOrphanTxSize nMaxOrphans rand s).1 = s.mapOrphanTransactions.length - nMaxOrphans ∧
      (LimitOrphanTxSize nMaxOrphans rand s).2.mapOrphanTransactions.length =
        min s.mapOrphanTransactions.length nMaxOrphans ∧
      ∃ evicted, evicted.length = (LimitOrphanTxSize nMaxOrphans rand s).1 ∧
        Evicts s (LimitOrphanTxSize nMaxOrphans rand s).2 evicted := by
  obtain ⟨e, he, hcount, hlen⟩ := limitLoop_evicts nMaxOrphans rand _ 0 s hk hsets (Nat.sub_le _ _)
  have := he.length
  refine ⟨by rw [LimitOrphanTxSize, hcount, hlen, Nat.zero_add], ?_, e, ?_, he⟩
  · rw [LimitOrphanTxSize]
    omega
  · rw [LimitOrphanTxSize, hcount, Nat.zero_add]

/-- Three orphans, under the keys 5, 7 and 9, spending nothing, and an empty by-prev index. -/
def threeOrphansState : ChainState :=
  { genesisState with
    mapOrphanTransactions := [(5, ⟨5, 0, [], []⟩), (7, ⟨7, 0, [], []⟩), (9, ⟨9, 0, [], []⟩)]
    mapOrphanTransactionsByPrev := [] }

/-- Cutting three orphans down to one, with every draw at 8: the first round takes the orphan
at 9, the second finds none at or above 8 and takes the first, at 5. -/
theorem LimitOrphanTxSize_evicts_three :
    SortedKeys threeOrphansState.mapOrphanTransactions ∧
      SetsSorted threeOrphansState.mapOrphanTransactionsByPrev ∧
      (LimitOrphanTxSize 1 (fun _ => 8) threeOrphansState).1 = threeOrphansState.mapOrphanTransactions.length - 1 :=
  have hk : SortedKeys threeOrphansState.mapOrphanTransactions := by unfold SortedKeys; decide
  have hsets : SetsSorted threeOrphansState.mapOrphanTransactionsByPrev := fun _ _ h => nomatch h
  ⟨hk, hsets, (LimitOrphanTxSize_evicts 1 (fun _ => 8) threeOrphansState hk hsets).1⟩

/-! ## The pool's size over every run

`AddOrphanTx` adds at most one orphan, and `LimitOrphanTxSize` follows it at once; the drain
of the `tx` handler reads `mapOrphanTransactions[hash]` only for hashes its by-prev index
holds, which the index, being exact, holds only for pooled orphans, so the read inserts
nothing; the erase queue and the block handler only take orphans out or leave them. So the
pool never holds more than `MAX_ORPHAN_TRANSACTIONS` orphans (`reachable_orphanPoolBounded`),
unlike its by-prev index (`orphan_index_keeps_empty_set`). -/

/-- The orphan pool as the `tx` handler keeps it: a `std::map`, each hash once, with at most
`MAX_ORPHAN_TRANSACTIONS` orphans. -/
structure OrphanPoolBounded (p : Params) (s : ChainState) : Prop where
  keys : SortedKeys s.mapOrphanTransactions
  size : s.mapOrphanTransactions.length ≤ p.MAX_ORPHAN_TRANSACTIONS

theorem SortedMap.length_insert_le {V : Type} (k : Hash) (v : V) :
    ∀ m : SortedMap V, (m.insert k v).length ≤ m.length + 1
  | [] => le_rfl
  | (k', v') :: rest => by
    unfold SortedMap.insert
    split
    · exact le_rfl
    · split
      · simp only [List.length_cons]; omega
      · simp only [List.length_cons]
        have := SortedMap.length_insert_le k v rest
        omega

/-- Erasing one orphan keeps the pool a `std::map` and does not grow it. -/
theorem EraseOrphanTx_keys {s : ChainState} (hk : SortedKeys s.mapOrphanTransactions) (h : Hash) :
    SortedKeys (EraseOrphanTx h s).mapOrphanTransactions ∧
      (EraseOrphanTx h s).mapOrphanTransactions.length ≤ s.mapOrphanTransactions.length := by
  unfold EraseOrphanTx
  split
  · exact ⟨hk, le_rfl⟩
  · exact ⟨hk.erase h, (List.filter_sublist _).length_le⟩

theorem limitLoop_keys (nMaxOrphans : Nat) (rand : Nat → Hash) :
    ∀ (fuel nEvicted : Nat) (s : ChainState), SortedKeys s.mapOrphanTransactions →
      SortedKeys (limitLoop nMaxOrphans rand fuel nEvicted s).2.mapOrphanTransactions
  | 0, _, _, hk => hk
  | fuel + 1, nEvicted, s, hk => by
    unfold limitLoop
    split; · exact hk
    split; · exact hk
    exact limitLoop_keys nMaxOrphans rand fuel _ _ (EraseOrphanTx_keys hk _).1

theorem eraseAll_keys : ∀ (hs : List Hash) {s : ChainState}, SortedKeys s.mapOrphanTransactions →
    SortedKeys (hs.foldl (fun s h => EraseOrphanTx h s) s).mapOrphanTransactions ∧
      (hs.foldl (fun s h => EraseOrphanTx h s) s).mapOrphanTransactions.length ≤
        s.mapOrphanTransactions.length
  | [], _, hk => ⟨hk, le_rfl⟩
  | h :: hs, _, hk =>
    have e := EraseOrphanTx_keys hk h
    have r := eraseAll_keys hs e.1
    ⟨r.1, r.2.trans e.2⟩

/-- The inner loop of the drain reads only pooled orphans, so it inserts none. -/
theorem acceptOrphans_pool (p : Params) (env : Env) :
    ∀ (hs work erase : List Hash) (s : ChainState), (∀ h ∈ hs, (s.mapOrphanTransactions.find? h).isSome) →
      (acceptOrphans p env hs work erase s).2.2.mapOrphanTransactions = s.mapOrphanTransactions
  | [], _, _, _, _ => rfl
  | h :: hs, work, erase, s, hp => by
    obtain ⟨tx, htx⟩ := Option.isSome_iff_exists.1 (hp h (.head _))
    have hg : s.mapOrphanTransactions.getInsert h Transaction.empty = (tx, s.mapOrphanTransactions) := by
      rw [SortedMap.getInsert, htx]
    -- the read changes nothing, and the pool's admission leaves the orphan maps
    have k := (keepsOrphans_AcceptToMemoryPool p env { s with mapOrphanTransactions := s.mapOrphanTransactions }
      tx true).txs
    have hm : (AcceptToMemoryPool p env s tx true).2.2.mapOrphanTransactions = s.mapOrphanTransactions :=
      (Prod.mk.inj k).1
    unfold acceptOrphans
    rw [hg]
    dsimp only
    split <;> rw [acceptOrphans_pool p env hs _ _ _ (by rw [hm]; exact fun h' h'' => hp h' (.tail _ h''))] <;>
      exact hm

/-- **The drain inserts no orphan**: with the by-prev index exact, every hash it reads is a
pooled orphan. -/
theorem drainOrphanTxs_pool (p : Params) (env : Env) :
    ∀ (fuel : Nat) (work erase : List Hash) (s : ChainState), OrphanTxIndexExact s →
      (drainOrphanTxs p env fuel work erase s).2.mapOrphanTransactions = s.mapOrphanTransactions
  | 0, _, _, _, _ => rfl
  | _ + 1, [], _, _, _ => rfl
  | fuel + 1, hashPrev :: work, erase, s, hx => by
    unfold drainOrphanTxs
    dsimp only
    have hx₁ := exact_touchByPrev hx hashPrev
    rw [drainOrphanTxs_pool p env fuel _ _ _ (exact_acceptOrphans p env _ work erase _ hx₁),
      acceptOrphans_pool p env _ work erase _ fun h hh => ?_]
    obtain ⟨tx, htx, -⟩ := (hx₁.exact hashPrev h).1 hh
    rw [htx]
    rfl

theorem OrphanPoolBounded.of_maps {p : Params} {s s' : ChainState}
    (h : s'.mapOrphanTransactions = s.mapOrphanTransactions) (hb : OrphanPoolBounded p s) :
    OrphanPoolBounded p s' :=
  ⟨h ▸ hb.keys, h ▸ hb.size⟩

/-- **The `tx` handler keeps the orphan pool bounded**, from a state whose by-prev index is
exact. -/
theorem bounded_ProcessTx {p : Params} {s : ChainState} (hx : OrphanTxIndexExact s)
    (hb : OrphanPoolBounded p s) (env : Env) (rand : Nat → Hash) (tx : Transaction) :
    OrphanPoolBounded p (ProcessTx p env rand tx s) := by
  have k := keepsOrphans_AcceptToMemoryPool p env s tx true
  unfold ProcessTx
  split
  · next s₁ ha =>
    have h₁ := (Prod.mk.inj (KeepsOrphans.of_eq₃ ha k).txs).1
    split
    next erase s₂ hd =>
    have h₂ : s₂.mapOrphanTransactions = s₁.mapOrphanTransactions := by
      have := drainOrphanTxs_pool p env (s₁.mapOrphanTransactions.length + 1) [tx.hash] [tx.hash] _
        (hx.of_maps (KeepsOrphans.of_eq₃ ha k).txs)
      rwa [hd] at this
    have r := eraseAll_keys erase (h₂.trans h₁ ▸ hb.keys)
    exact ⟨r.1, r.2.trans (h₂.trans h₁ ▸ hb.size)⟩
  · next s₁ ha =>
    -- one orphan more at most, then cut back to the limit
    have hx₁ := exact_AddOrphanTx (hx.of_maps (KeepsOrphans.of_eq₃ ha k).txs) env tx
    have hk₁ : SortedKeys (AddOrphanTx env tx s₁).2.mapOrphanTransactions := by
      have hk : SortedKeys s₁.mapOrphanTransactions := (Prod.mk.inj (KeepsOrphans.of_eq₃ ha k).txs).1 ▸ hb.keys
      unfold AddOrphanTx
      split_ifs
      exacts [hk, hk, hk.insert _ _]
    obtain ⟨e, he, -, hlen⟩ :=
      limitLoop_evicts p.MAX_ORPHAN_TRANSACTIONS rand _ 0 _ hk₁ hx₁.sorted (Nat.sub_le _ _)
    have := he.length
    exact ⟨limitLoop_keys _ _ _ _ _ hk₁, by unfold LimitOrphanTxSize; omega⟩
  · next s₁ ha => exact hb.of_maps (Prod.mk.inj (KeepsOrphans.of_eq₃ ha k).txs).1

theorem orphanPool_reachable {p : Params} {s : ChainState} (h : Reachable p s) :
    OrphanTxIndexExact s ∧ OrphanPoolBounded p s := by
  induction h with
  | genesis env g _ =>
    refine ⟨exact_LoadBlockIndex p env g, OrphanPoolBounded.of_maps
      (Prod.mk.inj (keepsOrphans_AddToBlockIndex p env g 1 0 _).txs).1 ⟨List.Pairwise.nil, Nat.zero_le _⟩⟩
  | step e _ ih =>
    obtain ⟨hx, hb⟩ := ih
    refine ⟨exact_apply hx e, ?_⟩
    cases e with
    | block env b => exact hb.of_maps (Prod.mk.inj (orphanTxMaps_ProcessNewBlock p env b _)).1
    | tx env rand t => exact bounded_ProcessTx hx hb env rand t

/-- **The orphan pool stays bounded in every reachable state**: it is a `std::map`, each
hash once, and holds at most `MAX_ORPHAN_TRANSACTIONS` orphans, whatever the random draws of
the evictions. -/
theorem reachable_orphanPoolBounded {p : Params} {s : ChainState} (h : Reachable p s) :
    OrphanPoolBounded p s :=
  (orphanPool_reachable h).2

/-- A transaction spending an output of a transaction the node has never seen. -/
def strayChild : Transaction := ⟨900, 1000, [⟨⟨899, 0⟩, []⟩], [⟨1000, []⟩]⟩

/-- The `tx` handler files `strayChild` as an orphan. -/
def strayOrphanState : ChainState :=
  run testnet [.tx (Env.quiet true 2000000000) (fun _ => 0) strayChild] genesisState

theorem reachable_orphanPoolBounded_stray :
    strayOrphanState.mapOrphanTransactions.length = 1 ∧ OrphanPoolBounded testnet strayOrphanState :=
  ⟨by decide, reachable_orphanPoolBounded (genesisState_reachable.run _)⟩

end NeutronCore
