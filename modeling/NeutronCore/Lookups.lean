/-
What the handlers' lookups into the block index answer, in every reachable state.

`AddToBlockIndex` puts the stake of every proof-of-stake node it files into `setStakeSeen`
(`main.cpp:2286`), and `ProcessNewBlock` refuses a proof-of-stake block whose stake is in
that set (`main.cpp:2576`): the set stands for the stakes of the indexed proof-of-stake
blocks. Nothing else writes the set, and every other write keeps the fields of a node its
stake is read from (`KeepsIndex`), so in every reachable state the set holds exactly those
stakes, each once (`reachable_stakeSeenExact`).

`FindBlockByHeight` (`main.cpp:839`) starts from the tip when the height is at least half
the best height, and walks back along `pprev`. That walk reads only the links, the heights
and `nBestHeight`, which every run keeps consistent (`BlockTree`, `BestHeightRecorded`), so
in every reachable state it returns the main chain's node at each height of the upper half
(`reachable_FindBlockByHeight_upper`). The lower half starts from `pindexGenesisBlock` and
walks forward along `pnext`, which a failed postponed reconnect leaves unlinked; it is not
covered here.
-/
import NeutronCore.ForkChoice
import NeutronCore.FindBlock
import NeutronCore.Validity

set_option autoImplicit false

namespace NeutronCore

/-! ## The stake set -/

theorem mem_setInsert {α : Type} [DecidableEq α] {l : List α} {x y : α} :
    y ∈ setInsert l x ↔ y ∈ l ∨ y = x := by
  unfold setInsert
  split
  · exact ⟨.inl, fun h => h.elim id fun e => e ▸ ‹_›⟩
  · simp only [List.mem_append, List.mem_singleton]

theorem nodup_setInsert {α : Type} [DecidableEq α] {l : List α} (h : l.Nodup) (x : α) :
    (setInsert l x).Nodup := by
  unfold setInsert
  split
  · exact h
  · exact h.append (List.nodup_singleton x) fun y hy hx => by
      rw [List.mem_singleton.1 hx] at hy
      contradiction

/-- `setStakeSeen` as `AddToBlockIndex` keeps it: the stakes of the indexed proof-of-stake
nodes, each once. -/
structure StakeSeenExact (s : ChainState) : Prop where
  nodup : s.setStakeSeen.Nodup
  mem : ∀ st, st ∈ s.setStakeSeen ↔
    ∃ h n, s.mapBlockIndex h = some n ∧ n.fProofOfStake = true ∧ (n.prevoutStake, n.nStakeTime) = st

/-- A proof-of-stake node with a given stake, indexed under the same hash in an index of the
same shape. -/
theorem stakeNode_of_shape {s s' : ChainState} (hshape : indexShape s' = indexShape s) {st : OutPoint × Nat}
    {h : Hash} {n : BlockIndex} (hn : s'.mapBlockIndex h = some n)
    (hpos : n.fProofOfStake = true ∧ (n.prevoutStake, n.nStakeTime) = st) :
    ∃ m, s.mapBlockIndex h = some m ∧ m.fProofOfStake = true ∧ (m.prevoutStake, m.nStakeTime) = st := by
  have e := map_of_shape (f := fun n => (n.fProofOfStake, n.prevoutStake, n.nStakeTime)) (fun _ => rfl) hshape h
  rw [hn, Option.map_some'] at e
  obtain ⟨m, hm, hmn⟩ := Option.map_eq_some'.1 e.symm
  simp only [Prod.mk.injEq] at hmn
  exact ⟨m, hm, hmn.1 ▸ hpos.1, by rw [hmn.2.1, hmn.2.2, hpos.2]⟩

theorem StakeSeenExact.of_keepsIndex {s s' : ChainState} (k : KeepsIndex s s') (hs : StakeSeenExact s) :
    StakeSeenExact s' where
  nodup := k.setStakeSeen ▸ hs.nodup
  mem st := by
    rw [k.setStakeSeen, hs.mem]
    constructor
    · rintro ⟨h, n, hn, hpos⟩
      obtain ⟨m, hm, hpos'⟩ := stakeNode_of_shape k.shape.symm hn hpos
      exact ⟨h, m, hm, hpos'⟩
    · rintro ⟨h, n, hn, hpos⟩
      obtain ⟨m, hm, hpos'⟩ := stakeNode_of_shape k.shape hn hpos
      exact ⟨h, m, hm, hpos'⟩

/-- **Filing a fresh node records its stake**, if it is a proof-of-stake node. -/
theorem StakeSeenExact.file {s : ChainState} (hs : StakeSeenExact s) {k : Hash} {node : BlockIndex}
    (hfresh : s.mapBlockIndex k = none) (db : TxDb) :
    StakeSeenExact { s with
      mapBlockIndex := update s.mapBlockIndex k (some node)
      setStakeSeen := if node.fProofOfStake then setInsert s.setStakeSeen (node.prevoutStake, node.nStakeTime)
        else s.setStakeSeen
      txdb := db } where
  nodup := by
    dsimp only
    split
    · exact nodup_setInsert hs.nodup _
    · exact hs.nodup
  mem st := by
    -- the nodes of the new index: the fresh one, and the old ones under other hashes
    have nodes : (∃ h n, update s.mapBlockIndex k (some node) h = some n ∧ n.fProofOfStake = true ∧
          (n.prevoutStake, n.nStakeTime) = st) ↔
        (node.fProofOfStake = true ∧ (node.prevoutStake, node.nStakeTime) = st) ∨
          ∃ h n, s.mapBlockIndex h = some n ∧ n.fProofOfStake = true ∧ (n.prevoutStake, n.nStakeTime) = st := by
      constructor
      · rintro ⟨h, n, hn, hpos⟩
        rcases update_eq_some.1 hn with ⟨-, rfl⟩ | ⟨-, hn⟩
        exacts [.inl hpos, .inr ⟨h, n, hn, hpos⟩]
      · rintro (hpos | ⟨h, n, hn, hpos⟩)
        · exact ⟨k, node, update_same .., hpos⟩
        · exact ⟨h, n, by rw [update_of_isSome hfresh (by rw [hn]; rfl)]; exact hn, hpos⟩
    dsimp only
    rw [nodes, ← hs.mem]
    split
    · next hpos =>
      rw [mem_setInsert, or_comm]
      exact or_congr_left ⟨fun e => ⟨hpos, e.symm⟩, fun h => h.2.symm⟩
    · next hpos => simp only [Bool.not_eq_true] at hpos; simp only [hpos, Bool.false_eq_true, false_and, false_or]

section Steps

variable (p : Params) (env : Env)

theorem stakeSeenExact_SetBestChain (b : Block) (hNew : Hash) {s : ChainState} (hs : StakeSeenExact s) :
    StakeSeenExact (SetBestChain p env b hNew s).2 := by
  obtain ⟨r, k, e | ⟨hTip, e, -⟩⟩ := stable_SetBestChain (keepsIndex_stable p env) b hNew s <;> rw [e]
  · exact hs.of_keepsIndex k
  · -- `setTip` writes neither the index nor the set
    have hr := hs.of_keepsIndex k
    exact ⟨hr.nodup, hr.mem⟩

theorem stakeSeenExact_AddToBlockIndex (b : Block) (nFile nBlockPos : Nat) {s : ChainState}
    (hs : StakeSeenExact s) : StakeSeenExact (AddToBlockIndex p env b nFile nBlockPos s).2 := by
  rcases AddToBlockIndex_files p env b nFile nBlockPos s with
    e | ⟨hfresh, _, _, _, -, rfl, e | ⟨-, e⟩⟩ <;> rw [e]
  · exact hs
  · exact hs.file hfresh _
  · exact stakeSeenExact_SetBestChain p env b b.hash (hs.file hfresh _)

end Steps

/-- From `s` to `s'` the stake set stays exact. -/
def StakeStep (s s' : ChainState) : Prop := StakeSeenExact s → StakeSeenExact s'

/-- A step that writes neither the index nor the stake set. -/
theorem StakeStep.of_index {s s' : ChainState} (h : s'.mapBlockIndex = s.mapBlockIndex)
    (hs : s'.setStakeSeen = s.setStakeSeen) : StakeStep s s' := fun hx =>
  ⟨hs ▸ hx.nodup, fun st => by rw [hs, h, hx.mem]⟩

theorem stakeStep_orphanStable : OrphanStable StakeStep where
  refl _ := id
  trans h₁ h₂ := h₂ ∘ h₁
  stash _ _ := .of_index rfl rfl
  drop _ _ := .of_index rfl rfl
  byPrev _ _ := .of_index rfl rfl

theorem stakeStep_AcceptBlock (p : Params) (env : Env) (b : Block) (s : ChainState) :
    StakeStep s (AcceptBlock p env b s).2 := by
  rcases AcceptBlock_cases p env b s with e | ⟨_, -, -, e⟩ <;> rw [e]
  · exact id
  · -- the block is written to its file first, which the set does not see
    exact fun hs => stakeSeenExact_AddToBlockIndex p env b 1 _ ⟨hs.nodup, hs.mem⟩

theorem stakeStep_apply (p : Params) : ∀ (e : Event) (s : ChainState), StakeStep s (e.apply p s)
  | .block env b, s =>
    orphanStable_processNewBlockWith stakeStep_orphanStable _ (stakeStep_AcceptBlock p env) p env b s
  | .tx env rand t, s => by
    have k := txWrites_ProcessTx p env rand t s
    show StakeStep s (ProcessTx p env rand t s)
    rw [k.rest]
    exact .of_index rfl rfl

/-- **The stake set is exact in every reachable state**: `setStakeSeen` holds each stake of an
indexed proof-of-stake node, no other pair, and none twice. So the duplicate-stake check of
`ProcessNewBlock` asks exactly whether an indexed proof-of-stake block has the same stake. -/
theorem reachable_stakeSeenExact {p : Params} {s : ChainState} (h : Reachable p s) : StakeSeenExact s := by
  induction h with
  | genesis env g _ =>
    exact stakeSeenExact_AddToBlockIndex p env g 1 0
      ⟨List.nodup_nil, fun _ => ⟨nofun, fun ⟨_, _, h, _⟩ => Option.noConfusion h⟩⟩
  | step e _ ih => exact stakeStep_apply p e _ ih

/-- The genesis state after the proof-of-stake block on it, received outside initial
download. -/
def stakeState : ChainState := run testnet [.block (Env.quiet false 2000000000) stakeBlock] genesisState

theorem reachable_stakeSeenExact_stakeState :
    stakeState.setStakeSeen = [stakeBlock.GetProofOfStake] ∧ StakeSeenExact stakeState :=
  ⟨by decide, reachable_stakeSeenExact (genesisState_reachable.run _)⟩

/-! ## `FindBlockByHeight` from the tip -/

theorem mem_chainTo_self (s : ChainState) (fuel : Nat) (x : Hash) : x ∈ chainTo s (fuel + 1) x := by
  rw [chainTo]
  cases parentOf s x <;> simp

/-- **The walk back stops at the height, on the path up from its start**: from an indexed
node at or above a height `n ≥ 0`, with more fuel than the steps between, it stops at a node
of height `n` among the first `fuel` nodes of the path up. It stops early only at a
parentless node, which in the tree is the genesis node at height zero. -/
theorem BlockTree.walkBack_onPath {root : Hash} {best : Option Hash} {s : ChainState}
    (t : BlockTree root (treeLinks s) best) {n : Int} (h0 : 0 ≤ n) :
    ∀ (fuel : Nat) {x : Hash}, (treeLinks s x).isSome → n ≤ heightOf s x → heightOf s x - n < fuel →
      heightOf s (walkBack s n fuel x) = n ∧ walkBack s n fuel x ∈ chainTo s fuel x
  | 0, x, _, hle, hf => by omega
  | fuel + 1, x, hx, hle, hf => by
    rcases hle.eq_or_lt with heq | hlt
    · rw [walkBack_of_le heq.ge]
      exact ⟨heq.symm, mem_chainTo_self s fuel x⟩
    obtain ⟨e, he⟩ := Option.isSome_iff_exists.1 hx
    rw [heightOf_eq he] at hlt hf
    cases hp : e.pprev with
    | none =>
      -- a parentless node is the genesis node, at height zero
      obtain rfl := t.parentless he hp
      rw [Option.some.inj (he.symm.trans t.genesis)] at hlt
      exact absurd hlt (by dsimp only; omega)
    | some q =>
      obtain ⟨pe, hpe, hh⟩ := t.parent he hp
      have hpar : parentOf s x = some q := by rw [parentOf_eq, he, Option.some_bind, hp]
      have ih := t.walkBack_onPath h0 fuel (x := q) (by rw [hpe]; rfl) (by rw [heightOf_eq hpe]; omega)
        (by rw [heightOf_eq hpe]; omega)
      rw [walkBack, chainTo, hpar]
      dsimp only
      rw [if_pos (by rw [heightOf_eq he]; exact hlt)]
      exact ⟨ih.1, List.mem_append_left _ ih.2⟩

/-- **The tip's recorded height is its node's.** In every reachable state in which
`pindexBest` names a node, that node is indexed and `nBestHeight` is its `nHeight`: `setTip`
writes both together, filing a node leaves the tip's entry, and `ConnectBlock` never
rewrites a height. -/
theorem reachable_bestHeight {p : Params} {s : ChainState} (hr : Reachable p s) {h : Hash}
    (hb : s.pindexBest = some h) : ∃ n, s.mapBlockIndex h = some n ∧ s.nBestHeight = n.nHeight := by
  have hi := forkChoiceInv_reachable hr
  obtain ⟨_, t⟩ := hi.tree
  obtain ⟨n, hn⟩ := Option.isSome_iff_exists.1 (t.indexClosed.best hb)
  refine ⟨n, hn, ?_⟩
  rw [hi.height h hb, heightOf, hn]
  rfl

theorem reachable_bestHeight_two_blocks :
    twoBlocksState.pindexBest = some 12 ∧
      ∃ n, twoBlocksState.mapBlockIndex 12 = some n ∧ twoBlocksState.nBestHeight = n.nHeight :=
  have hb : twoBlocksState.pindexBest = some 12 := by decide
  ⟨hb, reachable_bestHeight (genesisState_reachable.run _) hb⟩

/-- **`FindBlockByHeight` finds the main chain's node on the tip's side.** In every reachable
state with a tip, for every height from half of `nBestHeight` up to `nBestHeight`, the lookup
starts from the tip and returns the node of the main chain at that height. -/
theorem reachable_FindBlockByHeight_upper {p : Params} {s : ChainState} (hr : Reachable p s)
    {hBest : Hash} (hb : s.pindexBest = some hBest) (h : Int) (hlo : s.nBestHeight / 2 ≤ h)
    (hle : h ≤ s.nBestHeight) :
    ∃ x ∈ mainChain s, heightOf s x = h ∧ FindBlockByHeight s h = some x := by
  obtain ⟨⟨root, t⟩, -, hh⟩ := forkChoiceInv_reachable hr
  have hbh : s.nBestHeight = heightOf s hBest := hh hBest hb
  obtain ⟨e, he⟩ := Option.isSome_iff_exists.1 (t.bestIndexed hb)
  have h0 : 0 ≤ heightOf s hBest := by rw [heightOf_eq he]; exact t.nonneg he
  obtain ⟨hy, hmem⟩ := t.walkBack_onPath (n := h) (by omega) (s.nBestHeight.toNat + 1) (x := hBest)
    (by rw [he]; rfl) (by omega) (by omega)
  refine ⟨_, ?_, hy, ?_⟩
  · rw [mainChain, hb]
    dsimp only
    rwa [← hbh]
  · unfold FindBlockByHeight
    dsimp only
    rw [if_neg (by omega), hb, Option.map_some', walkNext_of_le hy.ge]

theorem reachable_FindBlockByHeight_upper_two_blocks :
    twoBlocksState.pindexBest = some 12 ∧
      ∃ x ∈ mainChain twoBlocksState, heightOf twoBlocksState x = 1 ∧ FindBlockByHeight twoBlocksState 1 = some x :=
  have hb : twoBlocksState.pindexBest = some 12 := by decide
  ⟨hb, reachable_FindBlockByHeight_upper (genesisState_reachable.run _) hb 1 (by decide) (by decide)⟩

end NeutronCore
