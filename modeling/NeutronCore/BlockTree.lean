/-
The block index is a tree on the genesis block, and the tip is one of its nodes.

`AddToBlockIndex` (`main.cpp:2238`) files a block's node under the block's hash, and when
the parent is indexed it points the node at it one height up (`main.cpp:2254`); otherwise
the node is a root at height zero. `LoadBlockIndex` files the genesis block into an empty
index, and `AcceptBlock` (`main.cpp:2410`) files only blocks whose parent is indexed.
Everything the core does after filing, `ConnectBlock` and the best-chain switch included,
rewrites the amounts of nodes but never their links (`CoreWrites`), and the `tx` handler
does not touch the index (`TxWrites`). `SetBestChain` moves the tip to the node it was
called for or, when a postponed reconnect fails, to the parent of a node
(`SetBestChain_pindexBest`).

So in every reachable state the links form a tree on the genesis block, with heights
counting the steps from it, and `pindexBest` is unset or a node of the tree
(`reachable_blockTree`). This is the shape the walks of the code assume when they take a
node's height as their bound: from a node at height `d`, `chainTo` with `d + 1` steps is
the whole path up from the genesis node (`BlockTree.chainTo_path`), and the main chain is
the path from the genesis node to the tip (`reachable_mainChain_path`).
-/
import NeutronCore.CoreFrame

set_option autoImplicit false

namespace NeutronCore

theorem newLink_of_parent {s : ChainState} {b : Block} {prev : BlockIndex}
    (hp : s.mapBlockIndex b.hashPrevBlock = some prev) :
    newLink s b = ⟨b.hash, some b.hashPrevBlock, prev.nHeight + 1⟩ := by
  rw [newLink, hp]

theorem update_eq_some {α β : Type} [DecidableEq α] {f : α → Option β} {k x : α} {v e : β} :
    update f k (some v) x = some e ↔ x = k ∧ v = e ∨ x ≠ k ∧ f x = some e := by
  unfold update
  split <;> simp_all

theorem heightOf_eq {s : ChainState} {h : Hash} {e : TreeLink} (he : treeLinks s h = some e) :
    heightOf s h = e.nHeight := by
  obtain ⟨n, hn, rfl⟩ := Option.map_eq_some'.1 he
  rw [heightOf, hn]
  rfl

/-! ## The invariant -/

/-- The links `L` form a tree on `root` and `best` is unset or one of its nodes: `root` is
filed as a parentless node at height zero and is the only parentless node, every node is
filed under its own hash at a height of at least zero, and every other node's parent is
filed one height below it. -/
structure BlockTree (root : Hash) (L : Hash → Option TreeLink) (best : Option Hash) : Prop where
  genesis : L root = some ⟨root, none, 0⟩
  keyed : ∀ {h e}, L h = some e → e.hash = h
  nonneg : ∀ {h e}, L h = some e → 0 ≤ e.nHeight
  parentless : ∀ {h e}, L h = some e → e.pprev = none → h = root
  parent : ∀ {h e hp}, L h = some e → e.pprev = some hp →
    ∃ pe, L hp = some pe ∧ e.nHeight = pe.nHeight + 1
  bestIndexed : ∀ {h}, best = some h → (L h).isSome

namespace BlockTree

variable {root : Hash} {L : Hash → Option TreeLink} {best : Option Hash}

/-- The genesis node alone, with no tip yet. -/
theorem file_root (k : Hash) : BlockTree k (update (fun _ => none) k (some ⟨k, none, 0⟩)) none where
  genesis := update_same ..
  keyed he := by obtain ⟨rfl, rfl⟩ | ⟨-, ⟨⟩⟩ := update_eq_some.1 he; rfl
  nonneg he := by obtain ⟨rfl, rfl⟩ | ⟨-, ⟨⟩⟩ := update_eq_some.1 he; exact le_rfl
  parentless he _ := by obtain ⟨rfl, rfl⟩ | ⟨-, ⟨⟩⟩ := update_eq_some.1 he; rfl
  parent he hp := by obtain ⟨rfl, rfl⟩ | ⟨-, ⟨⟩⟩ := update_eq_some.1 he; cases hp
  bestIndexed := nofun

/-- **A child filed under a fresh hash keeps the tree**, one height above its filed parent. -/
theorem file_child (t : BlockTree root L best) {k hp : Hash} {pe : TreeLink} (hk : L k = none)
    (hpe : L hp = some pe) :
    BlockTree root (update L k (some ⟨k, some hp, pe.nHeight + 1⟩)) best := by
  have keep : ∀ {x e}, L x = some e → update L k (some ⟨k, some hp, pe.nHeight + 1⟩) x = some e :=
    fun {x _} hx => by
      rw [update_ne _ _ (fun h : x = k => by rw [h, hk] at hx; cases hx)]
      exact hx
  refine ⟨keep t.genesis, fun he => ?_, fun he => ?_, fun he hn => ?_, fun he hn => ?_,
    fun hb => ?_⟩
  rotate_left 4
  · obtain ⟨e, he⟩ := Option.isSome_iff_exists.1 (t.bestIndexed hb)
    rw [keep he]
    rfl
  all_goals obtain ⟨rfl, rfl⟩ | ⟨-, he⟩ := update_eq_some.1 he
  · rfl
  · exact t.keyed he
  · have := t.nonneg hpe
    show 0 ≤ pe.nHeight + 1
    omega
  · exact t.nonneg he
  · cases hn
  · exact t.parentless he hn
  · cases hn
    exact ⟨pe, keep hpe, rfl⟩
  · obtain ⟨pe', hpe', hh⟩ := t.parent he hn
    exact ⟨pe', keep hpe', hh⟩

/-- The same tree with another tip among its nodes. -/
theorem retip (t : BlockTree root L best) {best' : Option Hash}
    (h : ∀ {x}, best' = some x → (L x).isSome) : BlockTree root L best' :=
  { t with bestIndexed := h }

/-- A node's parent is a node. -/
theorem parent_isSome (t : BlockTree root L best) {x hp : Hash}
    (hx : (L x).bind TreeLink.pprev = some hp) : (L hp).isSome := by
  obtain ⟨e, he, hn⟩ := Option.bind_eq_some.1 hx
  obtain ⟨pe, hpe, -⟩ := t.parent he hn
  rw [hpe]
  rfl

/-- A branch both of whose arms keep the tree. -/
theorem of_ite {α : Type} {c : Prop} [Decidable c] {a b : α × ChainState}
    (ha : BlockTree root (treeLinks a.2) a.2.pindexBest)
    (hb : BlockTree root (treeLinks b.2) b.2.pindexBest) :
    BlockTree root (treeLinks (if c then a else b).2) (if c then a else b).2.pindexBest := by
  split
  exacts [ha, hb]

/-! ### The walk up from a node -/

theorem chainTo_parentless {s : ChainState} {h : Hash} {e : TreeLink}
    (he : treeLinks s h = some e) (hn : e.pprev = none) (n : Nat) : chainTo s (n + 1) h = [h] := by
  rw [chainTo, parentOf_eq, he, Option.some_bind, hn]

theorem chainTo_child {s : ChainState} {h hp : Hash} {e : TreeLink}
    (he : treeLinks s h = some e) (hn : e.pprev = some hp) (n : Nat) :
    chainTo s (n + 1) h = chainTo s n hp ++ [h] := by
  rw [chainTo, parentOf_eq, he, Option.some_bind, hn]

/-- `l` is the path of the tree from `root` down to `h`, one parent-child step at a time. -/
structure PathFrom (s : ChainState) (root h : Hash) (l : List Hash) : Prop where
  head : l.head? = some root
  last : l.getLast? = some h
  steps : l.Chain' fun a b => parentOf s b = some a

/-- **The height of a node is the fuel of the walk up from it**: from a node at height `d`,
`chainTo` with `d + 1` steps is the path from the genesis node to it, `d + 1` nodes long. -/
theorem chainTo_path {s : ChainState} (t : BlockTree root (treeLinks s) best) (d : Nat)
    {h : Hash} {e : TreeLink} (he : treeLinks s h = some e) (hd : e.nHeight = d) :
    PathFrom s root h (chainTo s (d + 1) h) ∧ (chainTo s (d + 1) h).length = d + 1 := by
  induction d generalizing h e with
  | zero =>
    cases hn : e.pprev with
    | none =>
      obtain rfl := t.parentless he hn
      rw [chainTo_parentless he hn]
      exact ⟨⟨rfl, rfl, List.chain'_singleton _⟩, rfl⟩
    | some hp =>
      -- the parent would sit below height zero
      obtain ⟨pe, hpe, hh⟩ := t.parent he hn
      have := t.nonneg hpe
      omega
  | succ d ih =>
    cases hn : e.pprev with
    | none =>
      -- the one parentless node is the genesis node, at height zero
      obtain rfl := t.parentless he hn
      rw [t.genesis, Option.some.injEq] at he
      subst he
      dsimp only at hd
      omega
    | some hp =>
      obtain ⟨pe, hpe, hh⟩ := t.parent he hn
      obtain ⟨⟨hhead, hlast, hsteps⟩, hlen⟩ := ih hpe (by omega)
      rw [chainTo_child he hn]
      refine ⟨⟨?_, by simp, ?_⟩, by simp [hlen]⟩
      · rw [List.head?_append, hhead]; rfl
      · refine List.Chain'.append hsteps (List.chain'_singleton _) fun a ha b hb => ?_
        rw [hlast, Option.mem_some_iff] at ha
        rw [List.head?_singleton, Option.mem_some_iff] at hb
        subst ha hb
        rw [parentOf_eq, he, Option.some_bind, hn]

/-- The main chain is the path from the genesis node to the tip, one node per height. -/
theorem mainChain_path {s : ChainState} (t : BlockTree root (treeLinks s) s.pindexBest)
    {h : Hash} (hb : s.pindexBest = some h) :
    PathFrom s root h (mainChain s) ∧ (mainChain s).length = (heightOf s h).toNat + 1 := by
  obtain ⟨e, he⟩ := Option.isSome_iff_exists.1 (t.bestIndexed hb)
  simp only [mainChain, hb, heightOf_eq he]
  exact t.chainTo_path _ he (Int.toNat_of_nonneg (t.nonneg he)).symm

end BlockTree

/-! ## Every step keeps the tree -/

section Steps

variable {root : Hash} (p : Params) (env : Env)

/-- `SetBestChain` moves the tip within the tree, from a node it is called for. -/
theorem blockTree_SetBestChain (b : Block) {hNew : Hash} {s : ChainState}
    (t : BlockTree root (treeLinks s) s.pindexBest) (hi : (treeLinks s hNew).isSome) :
    BlockTree root (treeLinks (SetBestChain p env b hNew s).2)
      (SetBestChain p env b hNew s).2.pindexBest := by
  rw [treeLinks_SetBestChain]
  refine t.retip fun hx => ?_
  rcases SetBestChain_pindexBest p env b hNew s with e | ⟨hTip, e, rfl | ⟨y, hy⟩⟩ <;>
    rw [e] at hx
  · exact t.bestIndexed hx
  · cases hx
    exact hi
  · cases hx
    rw [parentOf_eq] at hy
    exact t.parent_isSome hy

theorem blockTree_AddToBlockIndex {b : Block} {s : ChainState} (nFile nBlockPos : Nat)
    (t : BlockTree root (treeLinks s) s.pindexBest)
    (hprev : (s.mapBlockIndex b.hashPrevBlock).isSome) :
    BlockTree root (treeLinks (AddToBlockIndex p env b nFile nBlockPos s).2)
      (AddToBlockIndex p env b nFile nBlockPos s).2.pindexBest := by
  obtain ⟨prev, hp⟩ := Option.isSome_iff_exists.1 hprev
  rcases AddToBlockIndex_cases p env b nFile nBlockPos s with e | ⟨hk, s₁, e | e, hl, hb, -⟩
  · rw [e]
    exact t
  all_goals
    -- the state with the node filed, one height above its parent
    have t₁ : BlockTree root (treeLinks s₁) s₁.pindexBest := by
      rw [hl, hb, newLink_of_parent hp]
      exact t.file_child (show treeLinks s b.hash = none by rw [treeLinks, hk]; rfl)
        (show treeLinks s b.hashPrevBlock = some prev.link by rw [treeLinks, hp]; rfl)
    rw [e]
  · exact t₁
  · exact blockTree_SetBestChain p env b t₁ (by rw [hl, update_same]; rfl)

/-- `AcceptBlock` files only blocks whose parent is indexed. -/
theorem blockTree_AcceptBlock (b : Block) {s : ChainState}
    (t : BlockTree root (treeLinks s) s.pindexBest) :
    BlockTree root (treeLinks (AcceptBlock p env b s).2) (AcceptBlock p env b s).2.pindexBest := by
  unfold AcceptBlock
  refine .of_ite t ?_
  split; · exact t
  next prev hp =>
  dsimp only
  iterate 5 refine .of_ite t ?_
  exact blockTree_AddToBlockIndex p env 1 _ t (by rw [hp]; rfl)

section Drain

variable (accept : Block → ChainState → Bool × ChainState)
  (hacc : ∀ b s, BlockTree root (treeLinks s) s.pindexBest →
    BlockTree root (treeLinks (accept b s).2) (accept b s).2.pindexBest)
include hacc

theorem blockTree_drainChildren :
    ∀ (bs : List Block) (work : List Hash) (s : ChainState),
      BlockTree root (treeLinks s) s.pindexBest →
        BlockTree root (treeLinks (drainChildren accept bs work s).2)
          (drainChildren accept bs work s).2.pindexBest
  | [], _, _, t => t
  | b :: bs, _, s, t => by
    unfold drainChildren
    exact blockTree_drainChildren bs _ _ (hacc b s t)

theorem blockTree_drainOrphans :
    ∀ (fuel : Nat) (work : List Hash) (s : ChainState),
      BlockTree root (treeLinks s) s.pindexBest →
        BlockTree root (treeLinks (drainOrphans accept fuel work s))
          (drainOrphans accept fuel work s).pindexBest
  | 0, _, _, t => t
  | _ + 1, [], _, t => t
  | fuel + 1, _ :: _, s, t => by
    unfold drainOrphans
    exact blockTree_drainOrphans fuel _ _ (blockTree_drainChildren accept hacc _ _ s t)

theorem blockTree_processNewBlockWith (b : Block) {s : ChainState}
    (t : BlockTree root (treeLinks s) s.pindexBest) :
    BlockTree root (treeLinks (processNewBlockWith p env accept b s).2)
      (processNewBlockWith p env accept b s).2.pindexBest := by
  have ta := hacc b s t
  unfold processNewBlockWith
  refine .of_ite t (.of_ite t (.of_ite t (.of_ite (.of_ite t t) ?_)))
  split
  · next ha => rwa [ha] at ta
  · next ha =>
    rw [ha] at ta
    exact blockTree_drainOrphans accept hacc _ _ _ ta

end Drain

theorem blockTree_ProcessTx (rand : Nat → Hash) (tx : Transaction) {s : ChainState}
    (t : BlockTree root (treeLinks s) s.pindexBest) :
    BlockTree root (treeLinks (ProcessTx p env rand tx s)) (ProcessTx p env rand tx s).pindexBest := by
  have k := txWrites_ProcessTx p env rand tx s
  rw [k.links, k.pindexBest]
  exact t

theorem blockTree_apply {s : ChainState} (t : BlockTree root (treeLinks s) s.pindexBest) :
    ∀ e : Event, BlockTree root (treeLinks (e.apply p s)) (e.apply p s).pindexBest
  | .block env b => blockTree_processNewBlockWith p env _ (blockTree_AcceptBlock p env) b t
  | .tx env rand tx => blockTree_ProcessTx p env rand tx t

theorem blockTree_LoadBlockIndex (g : Block) (h : (LoadBlockIndex p env g).1 = true) :
    BlockTree g.hash (treeLinks (LoadBlockIndex p env g).2) (LoadBlockIndex p env g).2.pindexBest := by
  unfold LoadBlockIndex at h ⊢
  rcases AddToBlockIndex_cases p env g 1 0 _ with e | ⟨-, s₁, e | e, hl, hb, -⟩
  · rw [e] at h
    cases h
  all_goals
    -- the genesis node filed into the empty index
    have t₁ : BlockTree g.hash (treeLinks s₁) s₁.pindexBest := by
      rw [hl, hb]
      exact .file_root g.hash
    rw [e]
  · exact t₁
  · exact blockTree_SetBestChain p env g t₁ (by rw [hl, update_same]; rfl)

end Steps

/-- **In every reachable state the block index is a tree on one genesis node** and the tip
is unset or a node of it. -/
theorem reachable_blockTree {p : Params} {s : ChainState} (h : Reachable p s) :
    ∃ root, BlockTree root (treeLinks s) s.pindexBest := by
  induction h with
  | genesis env g hg => exact ⟨g.hash, blockTree_LoadBlockIndex p env g hg⟩
  | step e _ ih =>
    obtain ⟨root, t⟩ := ih
    exact ⟨root, blockTree_apply p t e⟩

theorem reachable_blockTree_genesisState :
    ∃ root, BlockTree root (treeLinks genesisState) genesisState.pindexBest :=
  reachable_blockTree genesisState_reachable

/-- **In every reachable state the main chain is the path from the genesis node to the
tip**, one node per height: it starts at a parentless node of height zero, each node's
parent is the one before it, and it ends at `pindexBest`. -/
theorem reachable_mainChain_path {p : Params} {s : ChainState} (h : Reachable p s) {hBest : Hash}
    (hb : s.pindexBest = some hBest) :
    ∃ root, treeLinks s root = some ⟨root, none, 0⟩ ∧ BlockTree.PathFrom s root hBest (mainChain s) ∧
      (mainChain s).length = (heightOf s hBest).toNat + 1 := by
  obtain ⟨root, t⟩ := reachable_blockTree h
  exact ⟨root, t.genesis, t.mainChain_path hb⟩

theorem reachable_mainChain_path_genesisState :
    genesisState.pindexBest = some genesisBlock.hash ∧
      ∃ root, treeLinks genesisState root = some ⟨root, none, 0⟩ ∧
        BlockTree.PathFrom genesisState root genesisBlock.hash (mainChain genesisState) ∧
        (mainChain genesisState).length = (heightOf genesisState genesisBlock.hash).toNat + 1 :=
  have hb : genesisState.pindexBest = some genesisBlock.hash := by decide
  ⟨hb, reachable_mainChain_path genesisState_reachable hb⟩

end NeutronCore
