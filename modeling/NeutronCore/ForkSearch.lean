/-
The fork search of `Reorganize` (`main.cpp:1858`–`1888`). `pfork` starts at the tip and
`plonger` at the new node. Each round steps `plonger` back to `pfork`'s height and, unless
the two have met, `pfork` back to its parent. Then the nodes from each end back to the
meeting point are listed: `vDisconnect` from the tip, `vConnect` from the new node,
reversed.

On a block index that is a tree (`BlockTree`: one genesis node, filed by
`AddToBlockIndex` at height 0, and every other node one height above its parent), the
search ends, with the fuel the model gives it, at the latest common ancestor of the two
nodes (`IsLCA`). The two lists are the paths from it to each end, one node per height
(`fork_search_finds_lca`). The rounds keep one invariant: every common ancestor of the two
ends is an ancestor of both cursors (`findFork_lca`). A round either finds the cursors
equal, and the meeting point is then a common ancestor every other one lies back from, or
moves `pfork` to its parent. The genesis node is a common ancestor, so it is never `pfork`
at that point, and `pfork` has a parent to move to.
-/
import NeutronCore.BlockTree

set_option autoImplicit false

namespace NeutronCore

/-! ## Ancestors -/

/-- The node `n` steps back from `h` along `pprev`. -/
def ancestor (s : ChainState) : Nat → Hash → Option Hash
  | 0, h => some h
  | n + 1, h => (parentOf s h).bind (ancestor s n)

/-- `c` is `h` or lies back from it along `pprev`. -/
def IsAncestor (s : ChainState) (c h : Hash) : Prop := ∃ n, ancestor s n h = some c

/-- `c` is the latest common ancestor of `a` and `b`: an ancestor of both that every common
ancestor lies back from. -/
structure IsLCA (s : ChainState) (a b c : Hash) : Prop where
  left : IsAncestor s c a
  right : IsAncestor s c b
  latest : ∀ d, IsAncestor s d a → IsAncestor s d b → IsAncestor s d c

theorem ancestor_add (s : ChainState) : ∀ (m n : Nat) (h : Hash),
    ancestor s (m + n) h = (ancestor s m h).bind (ancestor s n)
  | 0, n, h => by rw [Nat.zero_add]; rfl
  | m + 1, n, h => by
    rw [Nat.succ_add, ancestor, ancestor, Option.bind_assoc]
    exact congrArg _ (funext fun p => ancestor_add s m n p)

namespace IsAncestor

variable {s : ChainState} {c h : Hash}

theorem refl (s : ChainState) (h : Hash) : IsAncestor s h h := ⟨0, rfl⟩

theorem trans {x : Hash} (h₁ : IsAncestor s c x) (h₂ : IsAncestor s x h) : IsAncestor s c h := by
  obtain ⟨m, hm⟩ := h₁
  obtain ⟨n, hn⟩ := h₂
  exact ⟨n + m, by rw [ancestor_add, hn]; exact hm⟩

theorem of_parent {p : Hash} (hp : parentOf s h = some p) : IsAncestor s p h :=
  ⟨1, by rw [ancestor, hp]; rfl⟩

/-- An ancestor other than `h` itself lies back from `h`'s parent. -/
theorem parent_of_ne (hc : IsAncestor s c h) (hne : c ≠ h) :
    ∃ p, parentOf s h = some p ∧ IsAncestor s c p := by
  obtain ⟨_ | n, hn⟩ := hc
  · exact absurd (Option.some.inj hn).symm hne
  · rw [ancestor] at hn
    obtain ⟨p, hp, hpc⟩ := Option.bind_eq_some.1 hn
    exact ⟨p, hp, n, hpc⟩

theorem of_parent_ne {p : Hash} (hc : IsAncestor s c h) (hne : c ≠ h) (hp : parentOf s h = some p) :
    IsAncestor s c p := by
  obtain ⟨p', hp', hc'⟩ := hc.parent_of_ne hne
  rw [hp] at hp'
  cases hp'
  exact hc'

end IsAncestor

/-! ## Ancestors in the block tree -/

namespace BlockTree

variable {root : Hash} {s : ChainState} {best : Option Hash} (t : BlockTree root (treeLinks s) best)
include t

theorem height_nonneg {x : Hash} (hx : (treeLinks s x).isSome) : 0 ≤ heightOf s x := by
  obtain ⟨e, he⟩ := Option.isSome_iff_exists.1 hx
  rw [heightOf_eq he]
  exact t.nonneg he

/-- A node's parent is a node one height below it. -/
theorem parent_height {x p : Hash} (hx : (treeLinks s x).isSome) (hp : parentOf s x = some p) :
    (treeLinks s p).isSome ∧ heightOf s x = heightOf s p + 1 := by
  obtain ⟨e, he⟩ := Option.isSome_iff_exists.1 hx
  rw [parentOf_eq, he, Option.some_bind] at hp
  obtain ⟨pe, hpe, hh⟩ := t.parent he hp
  exact ⟨by rw [hpe]; rfl, by rw [heightOf_eq he, heightOf_eq hpe, hh]⟩

/-- Every node other than the genesis node has a parent. -/
theorem parent_of_ne_root {x : Hash} (hx : (treeLinks s x).isSome) (hne : x ≠ root) :
    ∃ p, parentOf s x = some p := by
  obtain ⟨e, he⟩ := Option.isSome_iff_exists.1 hx
  rw [parentOf_eq, he, Option.some_bind]
  cases hn : e.pprev with
  | none => exact absurd (t.parentless he hn) hne
  | some p => exact ⟨p, rfl⟩

/-- The node `n` steps back from a node is a node `n` heights below it. -/
theorem ancestor_height : ∀ {n : Nat} {x y : Hash}, (treeLinks s x).isSome → ancestor s n x = some y →
    (treeLinks s y).isSome ∧ heightOf s y = heightOf s x - n
  | 0, x, y, hx, hy => by
    cases hy
    exact ⟨hx, by simp⟩
  | n + 1, x, y, hx, hy => by
    rw [ancestor] at hy
    obtain ⟨p, hp, hpy⟩ := Option.bind_eq_some.1 hy
    obtain ⟨hpn, hxp⟩ := t.parent_height hx hp
    obtain ⟨hyn, hyp⟩ := ancestor_height hpn hpy
    exact ⟨hyn, by rw [hyp, hxp]; push_cast; ring⟩

/-- The genesis node is an ancestor of every node. -/
theorem root_isAncestor {x : Hash} (hx : (treeLinks s x).isSome) : IsAncestor s root x := by
  suffices ∀ d : Nat, ∀ x, (treeLinks s x).isSome → heightOf s x = d → IsAncestor s root x from
    this _ x hx (Int.toNat_of_nonneg (t.height_nonneg hx)).symm
  intro d
  induction d with
  | zero =>
    intro x hx h0
    by_cases hr : x = root
    · exact hr ▸ .refl s x
    obtain ⟨p, hp⟩ := t.parent_of_ne_root hx hr
    obtain ⟨hpn, hxp⟩ := t.parent_height hx hp
    have := t.height_nonneg hpn
    omega
  | succ d ih =>
    intro x hx hd
    by_cases hr : x = root
    · exact hr ▸ .refl s x
    obtain ⟨p, hp⟩ := t.parent_of_ne_root hx hr
    obtain ⟨hpn, hxp⟩ := t.parent_height hx hp
    exact (ih p hpn (by omega)).trans (.of_parent hp)

end BlockTree

namespace IsAncestor

variable {root : Hash} {s : ChainState} {best : Option Hash} (t : BlockTree root (treeLinks s) best)
include t

/-- An ancestor of a node is a node no higher than it. -/
theorem height_le {y x : Hash} (h : IsAncestor s y x) (hx : (treeLinks s x).isSome) :
    (treeLinks s y).isSome ∧ heightOf s y ≤ heightOf s x := by
  obtain ⟨n, hn⟩ := h
  obtain ⟨hy, hh⟩ := t.ancestor_height hx hn
  exact ⟨hy, by omega⟩

/-- An ancestor of a node at the node's height is the node. -/
theorem eq_of_height {y x : Hash} (h : IsAncestor s y x) (hx : (treeLinks s x).isSome)
    (hh : heightOf s y = heightOf s x) : y = x := by
  obtain ⟨n, hn⟩ := h
  have := (t.ancestor_height hx hn).2
  obtain rfl : n = 0 := by omega
  exact (Option.some.inj hn).symm

/-- **Of two ancestors of one node, the lower is an ancestor of the higher.** -/
theorem total {x y h : Hash} (hx : IsAncestor s x h) (hy : IsAncestor s y h) (hh : (treeLinks s h).isSome)
    (hle : heightOf s y ≤ heightOf s x) : IsAncestor s y x := by
  obtain ⟨m, hm⟩ := hx
  obtain ⟨n, hn⟩ := hy
  have := (t.ancestor_height hh hm).2
  have := (t.ancestor_height hh hn).2
  refine ⟨n - m, ?_⟩
  rw [← Option.some_bind x (ancestor s (n - m)), ← hm, ← ancestor_add, Nat.add_sub_cancel' (by omega)]
  exact hn

end IsAncestor

/-! ## The fork search -/

section Search

variable {root : Hash} {s : ChainState} {best : Option Hash} (t : BlockTree root (treeLinks s) best)
include t

/-- The inner loop steps a node back to the ancestor at height `H`, or leaves it where it
is when it is no higher than `H`, given fuel for the steps. -/
theorem descendTo_ancestor {H : Int} (hH : 0 ≤ H) :
    ∀ (fuel : Nat) (x : Hash), (treeLinks s x).isSome → (heightOf s x - H).toNat ≤ fuel →
      ∃ y, descendTo s H fuel x = some y ∧ IsAncestor s y x ∧ heightOf s y = min (heightOf s x) H
  | 0, x, _, hf => ⟨x, rfl, .refl s x, by omega⟩
  | fuel + 1, x, hx, hf => by
    rw [descendTo]
    by_cases hle : heightOf s x ≤ H
    · rw [if_pos hle]
      exact ⟨x, rfl, .refl s x, by omega⟩
    rw [if_neg hle]
    have hr : x ≠ root := by
      rintro rfl
      exact hle (by rw [heightOf_eq t.genesis]; exact hH)
    obtain ⟨p, hp⟩ := t.parent_of_ne_root hx hr
    obtain ⟨hpn, hxp⟩ := t.parent_height hx hp
    obtain ⟨y, hd, hyp, hy⟩ := descendTo_ancestor hH fuel p hpn (by omega)
    rw [hp, Option.some_bind]
    exact ⟨y, hd, hyp.trans (.of_parent hp), by omega⟩

/-- **The rounds of the fork search.** With every common ancestor of `a` and `b` an
ancestor of both cursors, and more rounds than `pfork`'s height, the search ends at the
latest common ancestor of `a` and `b`. -/
theorem findFork_lca {a b : Hash} (ha : (treeLinks s a).isSome) (hb : (treeLinks s b).isSome) {fuel : Nat}
    (hfuel : (heightOf s b).toNat ≤ fuel) :
    ∀ (n : Nat) (pf pl : Hash), IsAncestor s pf a → IsAncestor s pl b →
      (∀ d, IsAncestor s d a → IsAncestor s d b → IsAncestor s d pf ∧ IsAncestor s d pl) →
      (heightOf s pf).toNat < n → ∃ c, findFork s fuel n pf pl = some c ∧ IsLCA s a b c
  | 0, _, _, _, _, _, hn => absurd hn (Nat.not_lt_zero _)
  | n + 1, pf, pl, hpa, hpb, hcommon, hn => by
    obtain ⟨hpfn, -⟩ := hpa.height_le t ha
    obtain ⟨hpln, hplb⟩ := hpb.height_le t hb
    rw [findFork]
    by_cases heq : pf = pl
    · rw [if_pos heq]
      exact ⟨pf, rfl, hpa, heq ▸ hpb, fun d hda hdb => (hcommon d hda hdb).1⟩
    rw [if_neg heq]
    have hpf0 := t.height_nonneg hpfn
    obtain ⟨pl', hd, hpl', hh'⟩ := descendTo_ancestor t hpf0 fuel pl hpln (by omega)
    rw [hd]
    dsimp only
    -- every common ancestor is still an ancestor of the lowered `plonger`
    have hcommon' : ∀ d, IsAncestor s d a → IsAncestor s d b → IsAncestor s d pl' := fun d hda hdb => by
      obtain ⟨hdf, hdl⟩ := hcommon d hda hdb
      have := (hdf.height_le t hpfn).2
      have := (hdl.height_le t hpln).2
      exact hpl'.total t hdl hpln (by omega)
    by_cases heq' : pf = pl'
    · rw [if_pos heq']
      exact ⟨pf, rfl, hpa, heq' ▸ hpl'.trans hpb, fun d hda hdb => (hcommon d hda hdb).1⟩
    rw [if_neg heq']
    -- a common ancestor at `pfork` would be an ancestor of `plonger` no lower than it
    have hne : ∀ d, IsAncestor s d a → IsAncestor s d b → d ≠ pf := by
      rintro d hda hdb rfl
      have hpl'n := (hpl'.height_le t hpln).1
      exact heq' ((hcommon' d hda hdb).eq_of_height t hpl'n (by
        have := ((hcommon' d hda hdb).height_le t hpl'n).2
        omega))
    obtain ⟨p, hp⟩ := t.parent_of_ne_root hpfn (hne root (t.root_isAncestor ha) (t.root_isAncestor hb)).symm
    obtain ⟨hpn, hfp⟩ := t.parent_height hpfn hp
    have := t.height_nonneg hpn
    rw [hp, Option.some_bind]
    exact findFork_lca ha hb hfuel n p pl' ((IsAncestor.of_parent hp).trans hpa) (hpl'.trans hpb)
      (fun d hda hdb => ⟨(hcommon d hda hdb).1.of_parent_ne (hne d hda hdb) hp, hcommon' d hda hdb⟩)
      (by omega)

/-- The list loops of `Reorganize` from a node back to one of its ancestors `c`: the nodes
from `h` back to `c`, `c` excluded, one per height, given fuel for the steps. -/
theorem pathTo_path {c : Hash} :
    ∀ (fuel : Nat) (h : Hash), (treeLinks s h).isSome → IsAncestor s c h →
      (heightOf s h - heightOf s c).toNat < fuel →
      ∃ l, pathTo s c fuel h = some l ∧ BlockTree.PathFrom s c h (c :: l.reverse) ∧
        l.length = (heightOf s h - heightOf s c).toNat ∧ ∀ i (hi : i < l.length), heightOf s l[i] = heightOf s h - i
  | 0, _, _, _, hf => absurd hf (Nat.not_lt_zero _)
  | fuel + 1, h, hh, hc, hf => by
    rw [pathTo]
    by_cases he : h = c
    · subst he
      rw [if_pos rfl]
      exact ⟨[], rfl, ⟨rfl, rfl, List.chain'_singleton _⟩, by simp, nofun⟩
    rw [if_neg he]
    obtain ⟨p, hp, hcp⟩ := hc.parent_of_ne (Ne.symm he)
    obtain ⟨hpn, hhp⟩ := t.parent_height hh hp
    have hcle := (hcp.height_le t hpn).2
    obtain ⟨l, hl, ⟨hhead, hlast, hsteps⟩, hlen, hheights⟩ := pathTo_path fuel p hpn hcp (by omega)
    rw [hp, Option.some_bind, hl]
    refine ⟨h :: l, rfl, ⟨hhead, by rw [List.reverse_cons, ← List.cons_append, List.getLast?_concat], ?_⟩,
      by simp only [List.length_cons]; omega, fun i hi => ?_⟩
    · rw [List.reverse_cons, ← List.cons_append]
      refine hsteps.append (List.chain'_singleton _) fun x hx y hy => ?_
      rw [hlast, Option.mem_some_iff] at hx
      rw [List.head?_singleton, Option.mem_some_iff] at hy
      subst hx hy
      exact hp
    · cases i with
      | zero => simp
      | succ i =>
        rw [List.getElem_cons_succ, hheights i (by simpa using hi)]
        push_cast
        omega

end Search

/-- **`Reorganize` finds the fork and the two branches.** In a block tree, from the tip
`hBest` and any node `hNew`, the fork search of `Reorganize` ends, with the fuel the model
gives it, at the latest common ancestor of the two. `vDisconnect` is the path from the tip
back to it, one height down per node; `vConnect` (the second list reversed) is the path up
from it to `hNew`, one height up per node. -/
theorem fork_search_finds_lca {root : Hash} {s : ChainState} (ht : BlockTree root (treeLinks s) s.pindexBest)
    {hBest hNew : Hash}
    (hb : s.pindexBest = some hBest) (hn : (treeLinks s hNew).isSome) :
    ∃ pfork, findFork s (walkFuel s hBest hNew) (walkFuel s hBest hNew) hBest hNew = some pfork ∧
      IsLCA s hBest hNew pfork ∧
      ∃ vDisconnect vConnectRev, pathTo s pfork (walkFuel s hBest hNew) hBest = some vDisconnect ∧
        pathTo s pfork (walkFuel s hBest hNew) hNew = some vConnectRev ∧
        BlockTree.PathFrom s pfork hBest (pfork :: vDisconnect.reverse) ∧
        (∀ i (hi : i < vDisconnect.length), heightOf s vDisconnect[i] = heightOf s hBest - i) ∧
        BlockTree.PathFrom s pfork hNew (pfork :: vConnectRev.reverse) ∧
        ∀ i (hi : i < vConnectRev.reverse.length), heightOf s vConnectRev.reverse[i] = heightOf s pfork + 1 + i := by
  have ha := ht.bestIndexed hb
  have h0a := ht.height_nonneg ha
  have h0b := ht.height_nonneg hn
  have hw : (heightOf s hBest).toNat + (heightOf s hNew).toNat + 2 = walkFuel s hBest hNew := rfl
  have hfuel : (heightOf s hNew).toNat ≤ walkFuel s hBest hNew := by omega
  obtain ⟨c, hf, hc⟩ := findFork_lca ht ha hn hfuel (walkFuel s hBest hNew) hBest hNew
    (.refl s hBest) (.refl s hNew) (fun _ hda hdb => ⟨hda, hdb⟩) (by omega)
  obtain ⟨hcn, hca⟩ := hc.left.height_le ht ha
  have hcb := (hc.right.height_le ht hn).2
  have h0c := ht.height_nonneg hcn
  obtain ⟨vDisconnect, hd, hdpath, -, hdh⟩ := pathTo_path ht (walkFuel s hBest hNew) hBest ha hc.left (by omega)
  obtain ⟨vConnectRev, hcr, hcpath, hclen, hch⟩ := pathTo_path ht (walkFuel s hBest hNew) hNew hn hc.right (by omega)
  refine ⟨c, hf, hc, vDisconnect, vConnectRev, hd, hcr, hdpath, hdh, hcpath, fun i hi => ?_⟩
  rw [List.length_reverse] at hi
  rw [List.getElem_reverse, hch _ (by omega)]
  omega


/-- A block on chain block 1 at chain block 2's time: a sibling of chain block 2. -/
def siblingBlock : Block := powBlock testnet 40 11 (1000 + 79 * 2) [coinbase 140 (1000 + 79 * 2) 1000000]

/-- Chain blocks 1 and 2 during initial download, then `siblingBlock`, which ties with the
tip and is only indexed. -/
def siblingState : ChainState :=
  run testnet (chainEvents 2 ++ [.block (Env.quiet true 2000000000) siblingBlock]) genesisState

/-- On the fork of `siblingState`, from the tip (chain block 2) to `siblingBlock`. -/
theorem fork_search_finds_lca_sibling :
    (∃ root, BlockTree root (treeLinks siblingState) siblingState.pindexBest) ∧
      siblingState.pindexBest = some 12 ∧ (treeLinks siblingState 40).isSome ∧
      ∃ pfork, findFork siblingState (walkFuel siblingState 12 40) (walkFuel siblingState 12 40) 12 40 =
        some pfork ∧ IsLCA siblingState 12 40 pfork :=
  have hr : Reachable testnet siblingState := genesisState_reachable.run _
  have hb : siblingState.pindexBest = some 12 := by decide
  have hn : (treeLinks siblingState 40).isSome := by decide
  let ⟨root, t⟩ := reachable_blockTree hr
  let ⟨pfork, hf, hc, _⟩ := fork_search_finds_lca t hb hn
  ⟨⟨root, t⟩, hb, hn, pfork, hf, hc⟩

end NeutronCore
