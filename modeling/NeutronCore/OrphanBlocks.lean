/-
The orphan-block pool of `ProcessNewBlock`, over every run.

`ProcessNewBlock` files a block whose parent is unknown twice: under its hash in
`mapOrphanBlocks`, and under its parent's hash in `mapOrphanBlocksByPrev`
(`main.cpp:2665`). A round of the drain takes every orphan filed under one parent out of
the first map, then erases the parent's key from the second (`main.cpp:2696`). So the two
maps hold the same blocks in the same order, each under its own hash and no hash twice, in
every reachable state (`reachable_orphanBlocksMirrored`). The round is where distinct
hashes are needed, and the test that refuses a block already pooled keeps them distinct.

Orphans are not drained whenever their parent is indexed, though. `AddToBlockIndex`
inserts the node before it calls `SetBestChain`, and when that call fails `AcceptBlock`
returns `false`: `ProcessNewBlock` then skips the drain, and the new node's orphans stay in
the pool, waiting for a parent that is already indexed, and refused when they are sent
again (`orphan_stranded_under_indexed_parent`).

The stake pairs of pooled proof-of-stake orphans are kept in `setStakeSeenOrphan`, one
copy each, and a round of the drain erases the pair of every orphan it handles. A second
orphan on a pooled orphan's stake is let in when some orphan waits for it
(`main.cpp:2655`). When the first of the two is drained, the shared pair leaves the set
and the second stays pooled. A third orphan on the same stake is then let in with no
exemption (`orphan_stake_forgotten`).
-/
import NeutronCore.CoreFrame
import NeutronCore.Runs

set_option autoImplicit false

namespace NeutronCore

/-! ## The invariant -/

/-- The orphan-block pool as `ProcessNewBlock` keeps it: each block of `mapOrphanBlocks`
filed under its own hash, no hash twice, and `mapOrphanBlocksByPrev` filing the same
blocks, in the same order, under their parents' hashes. -/
structure OrphanBlocksMirrored (s : ChainState) : Prop where
  keyed : ∀ e ∈ s.mapOrphanBlocks, e.1 = e.2.hash
  nodup : (s.mapOrphanBlocks.map (·.1)).Nodup
  byPrev : s.mapOrphanBlocksByPrev = s.mapOrphanBlocks.map fun e => (e.2.hashPrevBlock, e.2)

instance (s : ChainState) : Decidable (OrphanBlocksMirrored s) :=
  decidable_of_iff ((∀ e ∈ s.mapOrphanBlocks, e.1 = e.2.hash) ∧ (s.mapOrphanBlocks.map (·.1)).Nodup ∧
      s.mapOrphanBlocksByPrev = s.mapOrphanBlocks.map fun e => (e.2.hashPrevBlock, e.2))
    ⟨fun ⟨a, b, c⟩ => ⟨a, b, c⟩, fun ⟨a, b, c⟩ => ⟨a, b, c⟩⟩

/-- The invariant reads the orphan-block maps only. -/
theorem OrphanBlocksMirrored.of_maps {s s' : ChainState} (h : orphanBlockMaps s' = orphanBlockMaps s)
    (hm : OrphanBlocksMirrored s) : OrphanBlocksMirrored s' := by
  obtain ⟨h₁, h₂⟩ := Prod.mk.inj h
  exact ⟨h₁ ▸ hm.keyed, h₁ ▸ hm.nodup, h₁ ▸ h₂ ▸ hm.byPrev⟩

/-- A branch each of whose arms keeps the pool mirrored under its condition. -/
theorem OrphanBlocksMirrored.of_ite {α : Type} {c : Prop} [Decidable c] {a b : α × ChainState}
    (ha : c → OrphanBlocksMirrored a.2) (hb : ¬c → OrphanBlocksMirrored b.2) :
    OrphanBlocksMirrored (if c then a else b).2 := by
  split
  exacts [ha ‹_›, hb ‹_›]

/-- The orphans filed under `hashPrev`, read off `mapOrphanBlocks`. -/
theorem OrphanBlocksMirrored.orphansOf_eq {s : ChainState} (hm : OrphanBlocksMirrored s) (hashPrev : Hash) :
    orphansOf s hashPrev = (s.mapOrphanBlocks.filter fun e => e.2.hashPrevBlock == hashPrev).map (·.2) := by
  simp [orphansOf, hm.byPrev, List.filter_map, Function.comp_def]

/-- Filing a block whose hash is not pooled yet. -/
theorem mirrored_stashOrphan {s : ChainState} (hm : OrphanBlocksMirrored s) {b : Block}
    (hb : hasOrphan s b.hash = false) : OrphanBlocksMirrored (stashOrphan b s) := by
  have hnew : b.hash ∉ s.mapOrphanBlocks.map (·.1) := by
    intro hmem
    obtain ⟨e, he, hk⟩ := List.mem_map.1 hmem
    have : hasOrphan s b.hash = true := List.any_eq_true.2 ⟨e, he, by simp [hk]⟩
    simp_all
  refine ⟨fun e he => ?_, ?_, by simp [stashOrphan, hm.byPrev]⟩
  · simp only [stashOrphan, List.mem_append, List.mem_singleton] at he
    rcases he with he | rfl
    · exact hm.keyed e he
    · rfl
  · simp only [stashOrphan, List.map_append, List.map_cons, List.map_nil, List.nodup_append,
      List.nodup_singleton, List.disjoint_singleton]
    exact ⟨hm.nodup, trivial, hnew⟩

/-! ## A round of the drain -/

/-- The pooled entries whose hash is no orphan of `hashPrev` are those whose parent is not
`hashPrev`: an entry's key is its block's hash, and no two entries share one. -/
theorem filter_not_orphan {L : List (Hash × Block)} (hk : ∀ e ∈ L, e.1 = e.2.hash)
    (hnd : (L.map (·.1)).Nodup) (hashPrev : Hash) :
    L.filter (fun e =>
        !(((L.filter fun e => e.2.hashPrevBlock == hashPrev).map (·.2)).any (·.hash == e.1))) =
      L.filter fun e => e.2.hashPrevBlock != hashPrev := by
  refine List.filter_congr fun e he => ?_
  by_cases hp : e.2.hashPrevBlock = hashPrev
  · have : e.2 ∈ (L.filter fun e => e.2.hashPrevBlock == hashPrev).map (·.2) :=
      List.mem_map_of_mem _ (List.mem_filter.2 ⟨he, by simp [hp]⟩)
    simp only [hp, bne_self_eq_false, Bool.not_eq_false', List.any_eq_true, beq_iff_eq]
    exact ⟨e.2, this, (hk e he).symm⟩
  · rw [show (e.2.hashPrevBlock != hashPrev) = true from bne_iff_ne.2 hp, Bool.not_eq_true',
      List.any_eq_false]
    intro c hc hkey
    obtain ⟨e', he'', rfl⟩ := List.mem_map.1 hc
    obtain ⟨he', hp'⟩ := List.mem_filter.1 he''
    have : e' = e := List.inj_on_of_nodup_map hnd he' he ((hk e' he').trans (beq_iff_eq.1 hkey))
    subst this
    exact hp (beq_iff_eq.1 hp')

section Drain

variable (accept : Block → ChainState → Bool × ChainState)
  (hacc : ∀ b s, KeepsOrphans s (accept b s).2)
include hacc

/-- The inner loop of the drain takes the orphans it handles out of `mapOrphanBlocks`, and
leaves `mapOrphanBlocksByPrev`. -/
theorem orphanBlockMaps_drainChildren :
    ∀ (bs : List Block) (work : List Hash) (s : ChainState),
      orphanBlockMaps (drainChildren accept bs work s).2 =
        (s.mapOrphanBlocks.filter fun e => !bs.any (·.hash == e.1), s.mapOrphanBlocksByPrev)
  | [], _, s => by simp [drainChildren, orphanBlockMaps]
  | b :: bs, work, s => by
    obtain ⟨h₁, h₂⟩ := Prod.mk.inj (hacc b s).blocks
    simp only [drainChildren, orphanBlockMaps_drainChildren bs, dropOrphan, h₁, h₂, List.filter_filter,
      List.any_cons, Bool.not_or, Prod.mk.injEq, and_true]
    refine List.filter_congr fun e _ => ?_
    rw [Bool.and_comm, bne, Bool.beq_comm]

/-- **A round of the drain keeps the pool mirrored.** -/
theorem mirrored_round {s : ChainState} (hm : OrphanBlocksMirrored s) (hashPrev : Hash)
    (work : List Hash) :
    OrphanBlocksMirrored (let s' := (drainChildren accept (orphansOf s hashPrev) work s).2
      { s' with mapOrphanBlocksByPrev := s'.mapOrphanBlocksByPrev.filter (·.1 != hashPrev) }) := by
  obtain ⟨h₁, h₂⟩ :=
    Prod.mk.inj (orphanBlockMaps_drainChildren accept hacc (orphansOf s hashPrev) work s)
  have hL := filter_not_orphan hm.keyed hm.nodup hashPrev
  rw [← hm.orphansOf_eq] at hL
  refine ⟨fun e he => ?_, ?_, ?_⟩
  · simp only [h₁, hL] at he
    exact hm.keyed e (List.mem_of_mem_filter he)
  · simp only [h₁, hL]
    exact hm.nodup.sublist ((List.filter_sublist _).map _)
  · simp only [h₁, h₂, hL, hm.byPrev, List.filter_map, Function.comp_def]

/-- **The drain keeps the pool mirrored**, however many rounds its fuel allows. -/
theorem mirrored_drainOrphans :
    ∀ (fuel : Nat) (work : List Hash) (s : ChainState), OrphanBlocksMirrored s →
      OrphanBlocksMirrored (drainOrphans accept fuel work s)
  | 0, _, _, hm => hm
  | _ + 1, [], _, hm => hm
  | fuel + 1, hashPrev :: work, s, hm => by
    unfold drainOrphans
    exact mirrored_drainOrphans fuel _ _ (mirrored_round accept hacc hm hashPrev work)

omit hacc in
/-- The inner loop queues at most one hash per orphan it handles. -/
theorem drainChildren_work_length :
    ∀ (bs : List Block) (work : List Hash) (s : ChainState),
      (drainChildren accept bs work s).1.length ≤ work.length + bs.length
  | [], _, _ => Nat.le_add_right _ _
  | b :: bs, work, s => by
    have h := drainChildren_work_length bs (if (accept b s).1 then work ++ [b.hash] else work)
      (dropOrphan b (accept b s).2)
    have hw : (if (accept b s).1 then work ++ [b.hash] else work).length ≤ work.length + 1 := by
      split <;> simp
    simp only [drainChildren, List.length_cons]
    omega

/-- **The fuel of the drain is no cut.** A round takes the queue's head off and queues at
most as many hashes as it erases entries of `mapOrphanBlocksByPrev`, so with fuel for the
queue and the by-prev entries the queue runs empty, and more fuel changes nothing. -/
theorem drainOrphans_fuel_indep :
    ∀ (fuel : Nat) (work : List Hash) (s : ChainState),
      work.length + s.mapOrphanBlocksByPrev.length ≤ fuel →
      ∀ k, drainOrphans accept (fuel + k) work s = drainOrphans accept fuel work s
  | 0, work, s, h, k => by
    rw [List.eq_nil_of_length_eq_zero (by omega : work.length = 0)]
    cases k <;> rfl
  | fuel + 1, [], s, _, k => by rw [Nat.add_right_comm]; rfl
  | fuel + 1, hashPrev :: work, s, h, k => by
    rw [Nat.add_right_comm]
    unfold drainOrphans
    refine drainOrphans_fuel_indep fuel _ _ ?_ k
    -- the round erases the entries under `hashPrev`, the orphans it handles
    have hw := drainChildren_work_length accept (orphansOf s hashPrev) work s
    have hb := (Prod.mk.inj (orphanBlockMaps_drainChildren accept hacc (orphansOf s hashPrev) work s)).2
    have hsplit := List.length_eq_length_filter_add (l := s.mapOrphanBlocksByPrev) (·.1 == hashPrev)
    have ho : (orphansOf s hashPrev).length = (s.mapOrphanBlocksByPrev.filter (·.1 == hashPrev)).length :=
      List.length_map _ _
    dsimp only
    simp only [hb, List.length_cons] at h ⊢
    simp only [bne] at hsplit ⊢
    omega

/-- **`ProcessNewBlock` keeps the pool mirrored**, for any acceptance step that leaves the
pools alone. -/
theorem mirrored_processNewBlockWith {s : ChainState} (hm : OrphanBlocksMirrored s) (p : Params)
    (env : Env) (b : Block) : OrphanBlocksMirrored (processNewBlockWith p env accept b s).2 := by
  unfold processNewBlockWith
  refine .of_ite (fun _ => hm) fun hdup => .of_ite (fun _ => hm) fun _ => .of_ite (fun _ => hm)
    fun _ => .of_ite (fun _ => .of_ite (fun _ => hm) fun _ => ?_) fun _ => ?_
  · exact mirrored_stashOrphan hm (Bool.or_eq_false_iff.1 (Bool.eq_false_iff.2 hdup)).2
  · split
    · next s₁ ha => exact hm.of_maps (KeepsOrphans.of_eq ha (hacc b s)).blocks
    · next s₁ ha =>
      exact mirrored_drainOrphans accept hacc _ _ _ (hm.of_maps (KeepsOrphans.of_eq ha (hacc b s)).blocks)

end Drain

/-- **The orphan drain of `ProcessNewBlock` always finishes.** The loop over `vWorkQueue`
(`main.cpp:2704`) grows its queue while it walks it, yet from any state it empties the queue
within one round per entry of `mapOrphanBlocksByPrev` plus one: the fuel the model gives it
is the loop run to its end, and any more fuel yields the same state. -/
theorem drainOrphans_AcceptBlock_finishes (p : Params) (env : Env) (h : Hash) (s : ChainState) (k : Nat) :
    drainOrphans (AcceptBlock p env) (s.mapOrphanBlocksByPrev.length + 1 + k) [h] s =
      drainOrphans (AcceptBlock p env) (s.mapOrphanBlocksByPrev.length + 1) [h] s :=
  drainOrphans_fuel_indep _ (keepsOrphans_AcceptBlock p env) _ [h] s (by simp only [List.length_singleton]; omega) k

/-! ## Every run -/

theorem mirrored_LoadBlockIndex (p : Params) (env : Env) (g : Block) :
    OrphanBlocksMirrored (LoadBlockIndex p env g).2 :=
  OrphanBlocksMirrored.of_maps (keepsOrphans_AddToBlockIndex p env g 1 0 _).blocks ⟨nofun, .nil, rfl⟩

theorem mirrored_apply {p : Params} {s : ChainState} (hm : OrphanBlocksMirrored s) :
    ∀ e : Event, OrphanBlocksMirrored (e.apply p s)
  | .block env b => mirrored_processNewBlockWith _ (keepsOrphans_AcceptBlock p env) hm p env b
  | .tx env rand t => hm.of_maps (orphanBlockMaps_ProcessTx p env rand t s)

/-- **The orphan maps mirror each other in every reachable state**: each orphan is filed
under its own hash once in `mapOrphanBlocks`, and `mapOrphanBlocksByPrev` files the same
blocks, each once, under their parents' hashes. -/
theorem reachable_orphanBlocksMirrored {p : Params} {s : ChainState} (h : Reachable p s) :
    OrphanBlocksMirrored s := by
  induction h with
  | genesis env g _ => exact mirrored_LoadBlockIndex p env g
  | step e _ ih => exact mirrored_apply ih e

/-! ## An orphan stranded under an indexed parent -/

/-- Chain block 2 arrives before its parent and is pooled; then chain block 1 arrives
outside initial download: it is indexed, connecting it fails, and `AcceptBlock` reports
failure. -/
def strandedState : ChainState :=
  run testnet
    [.block (Env.quiet false 2000000000) (chainBlock 2), .block (Env.quiet false 2000000000) (chainBlock 1)]
    genesisState

theorem reachable_orphanBlocksMirrored_stranded :
    Reachable testnet strandedState ∧ OrphanBlocksMirrored strandedState :=
  have h : Reachable testnet strandedState := genesisState_reachable.run _
  ⟨h, reachable_orphanBlocksMirrored h⟩

/-- **A reachable orphan whose parent is indexed.** After the run above chain block 2 is the
only orphan, its parent is in `mapBlockIndex`, and `ProcessNewBlock` refuses block 2 when it
is sent again. -/
theorem orphan_stranded_under_indexed_parent :
    Reachable testnet strandedState ∧ strandedState.mapOrphanBlocks.map (·.1) = [(chainBlock 2).hash] ∧
      (strandedState.mapBlockIndex (chainBlock 2).hashPrevBlock).isSome ∧
      (ProcessNewBlock testnet (Env.quiet false 2000000000) (chainBlock 2) strandedState).1 = false :=
  ⟨genesisState_reachable.run _, by decide, by decide, by decide⟩

/-! ## Two orphans on one stake -/

/-- A proof-of-stake block on `hashPrev` at time 2000, staking output 0 of transaction 777.
Every such block has the stake pair `(⟨777, 0⟩, 2000)`. -/
def stakeOrphan (hash hashPrev : Nat) : Block :=
  ⟨hash, hashPrev, 2000, GetCompact (testnet.GetPOSLimit 0),
    [⟨hash + 100, 2000, [⟨OutPoint.null, []⟩], [⟨0, []⟩]⟩,
     ⟨hash + 200, 2000, [⟨⟨777, 0⟩, []⟩], [⟨0, []⟩, ⟨1000000, []⟩]⟩], 0⟩

/-- During initial download: `stakeOrphan 61` on chain block 1 is pooled. Block 63 is
pooled, waiting for 62. `stakeOrphan 62` on an unknown parent is let in on the stake of 61,
because block 63 waits for it. Then chain block 1 arrives, and the drain handles 61. -/
def sharedStakeState : ChainState :=
  run testnet
    [.block (Env.quiet true 2000000000) (stakeOrphan 61 11),
      .block (Env.quiet true 2000000000) (powBlock testnet 63 62 2000 [coinbase 163 2000 0]),
      .block (Env.quiet true 2000000000) (stakeOrphan 62 99),
      .block (Env.quiet true 2000000000) (chainBlock 1)]
    genesisState

/-- **A pooled stake the guard no longer sees.** After the run above, `stakeOrphan 62` is
pooled and its stake pair is not in `setStakeSeenOrphan`. A new orphan on the same stake,
which no orphan waits for, is let in. -/
theorem orphan_stake_forgotten :
    Reachable testnet sharedStakeState ∧
      ((stakeOrphan 62 99).hash, stakeOrphan 62 99) ∈ sharedStakeState.mapOrphanBlocks ∧
      (stakeOrphan 62 99).IsProofOfStake = true ∧
      (stakeOrphan 62 99).GetProofOfStake ∉ sharedStakeState.setStakeSeenOrphan ∧
      (stakeOrphan 64 98).GetProofOfStake = (stakeOrphan 62 99).GetProofOfStake ∧
      hasOrphanChild sharedStakeState (stakeOrphan 64 98).hash = false ∧
      (ProcessNewBlock testnet (Env.quiet true 2000000000) (stakeOrphan 64 98) sharedStakeState).1 = true ∧
      hasOrphan (ProcessNewBlock testnet (Env.quiet true 2000000000) (stakeOrphan 64 98) sharedStakeState).2
        (stakeOrphan 64 98).hash = true :=
  ⟨genesisState_reachable.run _, by decide, by decide, by decide, by decide, by decide, by decide, by decide⟩

end NeutronCore
