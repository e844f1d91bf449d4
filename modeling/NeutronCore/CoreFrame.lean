/-
What the chain-state core writes, and what the two handlers around it write.

`ProcessNewBlock` files and drains orphan blocks, and the `tx` handler files and drains
orphan transactions. In between they call `AcceptBlock` and `AcceptToMemoryPool`. Below
`AddToBlockIndex` the core rewrites the amounts of indexed nodes but never where a node
sits in the tree, and besides the index it writes only the database, the `pnext` pointers,
the tip globals, the best invalid trust and the memory pool (`CoreWrites`,
`SetBestChain_writes`); `AddToBlockIndex` adds one node on top of that. The `tx`
handler writes the memory pool and the orphan-transaction maps and nothing else
(`TxWrites`, `txWrites_ProcessTx`). So each handler leaves the other's orphan pool
(`keepsOrphans_AcceptBlock`, `orphanBlockMaps_ProcessTx`), and the invariants of the two
pools and of the block tree are proved over these frame facts.
-/
import NeutronCore.Atomicity

set_option autoImplicit false

namespace NeutronCore

/-- The orphan-block pool: `mapOrphanBlocks` and `mapOrphanBlocksByPrev`. -/
def orphanBlockMaps (s : ChainState) : List (Hash × Block) × List (Hash × Block) :=
  (s.mapOrphanBlocks, s.mapOrphanBlocksByPrev)

/-- The orphan-transaction pool: `mapOrphanTransactions` and `mapOrphanTransactionsByPrev`. -/
def orphanTxMaps (s : ChainState) : SortedMap Transaction × SortedMap (List Hash) :=
  (s.mapOrphanTransactions, s.mapOrphanTransactionsByPrev)

/-- The block tree of a state: the link of the node filed under each hash. -/
def treeLinks (s : ChainState) (h : Hash) : Option TreeLink :=
  (s.mapBlockIndex h).map BlockIndex.link

/-- From `s` to `s'` both orphan pools are as they were. -/
structure KeepsOrphans (s s' : ChainState) : Prop where
  blocks : orphanBlockMaps s' = orphanBlockMaps s
  txs : orphanTxMaps s' = orphanTxMaps s

namespace KeepsOrphans

variable {s s' s'' : ChainState}

theorem refl (s : ChainState) : KeepsOrphans s s := ⟨rfl, rfl⟩

theorem trans (h₁ : KeepsOrphans s s') (h₂ : KeepsOrphans s' s'') : KeepsOrphans s s'' :=
  ⟨h₂.1.trans h₁.1, h₂.2.trans h₁.2⟩

/-- A frame step read off an equation for its result. -/
theorem of_eq {α : Type} {r : α × ChainState} {a : α} (hr : r = (a, s'))
    (h : KeepsOrphans s r.2) : KeepsOrphans s s' := by subst hr; exact h

/-- The same for a result with two other components. -/
theorem of_eq₃ {α β : Type} {r : α × β × ChainState} {a : α} {x : β}
    (hr : r = (a, x, s')) (h : KeepsOrphans s r.2.2) : KeepsOrphans s s' := by subst hr; exact h

/-- A frame step taken after a record update that leaves the orphan maps. -/
theorem after {t : ChainState} (h : KeepsOrphans t s') (e : KeepsOrphans s t) :
    KeepsOrphans s s' :=
  e.trans h

/-- A branch both of whose arms leave the orphan pools. -/
theorem of_ite {α : Type} {c : Prop} [Decidable c] {a b : α × ChainState}
    (ha : KeepsOrphans s a.2) (hb : KeepsOrphans s b.2) :
    KeepsOrphans s (if c then a else b).2 := by
  split
  exacts [ha, hb]

end KeepsOrphans

theorem parentOf_eq (s : ChainState) (h : Hash) :
    parentOf s h = (treeLinks s h).bind TreeLink.pprev := by
  unfold parentOf treeLinks
  cases s.mapBlockIndex h <;> rfl

/-! ## What the chain-state core writes below the tip -/

/-- From `s` to `s'` the core rewrote the amounts of indexed nodes, never their links, and
besides the index wrote at most the database, the `pnext` pointers, `pindexGenesisBlock`,
the best invalid trust and the memory pool. Everything `SetBestChain` does before its last
step, `setTip`, is such a step. -/
structure CoreWrites (s s' : ChainState) : Prop where
  links : treeLinks s' = treeLinks s
  rest : s' = { s with
    mapBlockIndex := s'.mapBlockIndex, pnext := s'.pnext, txdb := s'.txdb,
    pindexGenesisBlock := s'.pindexGenesisBlock, nBestInvalidTrust := s'.nBestInvalidTrust,
    mempool := s'.mempool }

namespace CoreWrites

variable {s s' s'' : ChainState}

theorem refl (s : ChainState) : CoreWrites s s := ⟨rfl, rfl⟩

theorem trans (h₁ : CoreWrites s s') (h₂ : CoreWrites s' s'') : CoreWrites s s'' :=
  ⟨h₂.links.trans h₁.links, h₂.rest.trans (by rw [h₁.rest])⟩

theorem of_eq {α : Type} {r : α × ChainState} {a : α} (hr : r = (a, s'))
    (h : CoreWrites s r.2) : CoreWrites s s' := by subst hr; exact h

theorem of_eq₃ {α β : Type} {r : α × β × ChainState} {a : α} {x : β}
    (hr : r = (a, x, s')) (h : CoreWrites s r.2.2) : CoreWrites s s' := by subst hr; exact h

theorem after {t : ChainState} (h : CoreWrites t s') (e : CoreWrites s t) : CoreWrites s s' :=
  e.trans h

theorem of_ite {α : Type} {c : Prop} [Decidable c] {a b : α × ChainState}
    (ha : CoreWrites s a.2) (hb : CoreWrites s b.2) : CoreWrites s (if c then a else b).2 := by
  split
  exacts [ha, hb]

/-- A step of the core followed by a write of the memory pool. -/
theorem setMempool (h : CoreWrites s s') (m : List Transaction) :
    CoreWrites s { s' with mempool := m } :=
  h.trans ⟨rfl, rfl⟩

/-- The core leaves both orphan pools. -/
theorem orphans (h : CoreWrites s s') : KeepsOrphans s s' := by
  rw [h.rest]
  exact ⟨rfl, rfl⟩

theorem pindexBest (h : CoreWrites s s') : s'.pindexBest = s.pindexBest := by
  rw [h.rest]

theorem parentOf (h : CoreWrites s s') : parentOf s' = parentOf s := by
  funext x
  rw [parentOf_eq, parentOf_eq, h.links]

end CoreWrites

theorem coreWrites_ConnectBlock (p : Params) (env : Env) (b : Block) (hIndex : Hash)
    (fJustCheck reorganize : Bool) (postponedBlocks : Int) (s : ChainState) :
    CoreWrites s (ConnectBlock p env b hIndex fJustCheck reorganize postponedBlocks s).2 := by
  obtain ⟨_, _, e, hl, -, -⟩ :=
    ConnectBlock_updates p env b hIndex fJustCheck reorganize postponedBlocks s
  rw [e]
  exact ⟨funext hl, rfl⟩

theorem coreWrites_DisconnectBlock (env : Env) (b : Block) (hIndex : Hash) (s : ChainState) :
    CoreWrites s (DisconnectBlock env b hIndex s).2 := by
  unfold DisconnectBlock
  repeat' (first | split | dsimp only)
  all_goals exact ⟨rfl, rfl⟩

theorem coreWrites_InvalidChainFound (h : Hash) (s : ChainState) :
    CoreWrites s (InvalidChainFound h s) := by
  unfold InvalidChainFound
  repeat' split
  all_goals exact ⟨rfl, rfl⟩

theorem coreWrites_disconnectBranch (env : Env) :
    ∀ (hs : List Hash) (acc : List Transaction) (s : ChainState),
      CoreWrites s (disconnectBranch env hs acc s).2.2
  | [], _, s => .refl s
  | h :: hs, acc, s => by
    unfold disconnectBranch
    split
    · exact .refl s
    · split
      · next hr => exact .of_eq hr (coreWrites_DisconnectBlock env _ h s)
      · next hr =>
        exact (CoreWrites.of_eq hr (coreWrites_DisconnectBlock env _ h s)).trans
          (coreWrites_disconnectBranch env hs _ _)

theorem coreWrites_connectBranch (p : Params) (env : Env) (postponedBlocks : Int) :
    ∀ (hs : List Hash) (acc : List Transaction) (s : ChainState),
      CoreWrites s (connectBranch p env postponedBlocks hs acc s).2.2
  | [], _, s => .refl s
  | h :: hs, acc, s => by
    have k := fun b => coreWrites_ConnectBlock p env b h false true postponedBlocks s
    unfold connectBranch
    split
    · exact .refl s
    · split
      · next hr => exact .of_eq hr (k _)
      · next hr =>
        exact (CoreWrites.of_eq hr (k _)).trans
          (coreWrites_connectBranch p env postponedBlocks hs _ _)

/-- `AcceptToMemoryPool` writes the memory pool and nothing else. -/
theorem AcceptToMemoryPool_writes (p : Params) (env : Env) (s : ChainState) (tx : Transaction)
    (fCheckInputs : Bool) :
    ∃ m, (AcceptToMemoryPool p env s tx fCheckInputs).2.2 = { s with mempool := m } := by
  unfold AcceptToMemoryPool
  repeat' split
  all_goals exact ⟨_, rfl⟩

theorem coreWrites_AcceptToMemoryPool (p : Params) (env : Env) (s : ChainState)
    (tx : Transaction) (fCheckInputs : Bool) :
    CoreWrites s (AcceptToMemoryPool p env s tx fCheckInputs).2.2 := by
  obtain ⟨_, e⟩ := AcceptToMemoryPool_writes p env s tx fCheckInputs
  rw [e]
  exact ⟨rfl, rfl⟩

theorem coreWrites_resurrect (p : Params) (env : Env) :
    ∀ (txs : List Transaction) (s : ChainState), CoreWrites s (resurrect p env txs s)
  | [], s => .refl s
  | tx :: txs, s =>
    (coreWrites_AcceptToMemoryPool p env s tx false).trans (coreWrites_resurrect p env txs _)

theorem coreWrites_Reorganize (p : Params) (env : Env) (hNew : Hash) (postponedBlocks : Int)
    (s : ChainState) :
    CoreWrites s (Reorganize p env hNew postponedBlocks s).2 := by
  unfold Reorganize
  split; · exact .refl s
  dsimp only
  split; · exact .refl s
  split
  · split
    · next hd => exact .of_eq₃ hd (coreWrites_disconnectBranch env _ _ s)
    · next s₁ hd =>
      have k₁ : CoreWrites s s₁ := .of_eq₃ hd (coreWrites_disconnectBranch env _ _ s)
      split
      · next hc => exact k₁.trans (.of_eq₃ hc (coreWrites_connectBranch p env _ _ _ _))
      · next s₂ hc =>
        have k₂ : CoreWrites s s₂ :=
          k₁.trans (.of_eq₃ hc (coreWrites_connectBranch p env _ _ _ _))
        split; · exact k₂.trans ⟨rfl, rfl⟩
        split; · exact k₂.trans ⟨rfl, rfl⟩
        refine k₂.trans (.setMempool ?_ _)
        exact (coreWrites_resurrect p env _ _).after ⟨rfl, rfl⟩
  · exact .refl s

theorem coreWrites_SetBestChainInner (p : Params) (env : Env) (b : Block) (hNew : Hash)
    (reorganize : Bool) (postponedBlocks : Int) (s : ChainState) :
    CoreWrites s (SetBestChainInner p env b hNew reorganize postponedBlocks s).2 := by
  unfold SetBestChainInner
  split
  · next s₁ hc =>
    exact (CoreWrites.of_eq hc (coreWrites_ConnectBlock p env b hNew _ _ _ s)).trans
      ((coreWrites_InvalidChainFound hNew _).after ⟨rfl, rfl⟩)
  · next s₁ hc =>
    have k₁ : CoreWrites s s₁ := .of_eq hc (coreWrites_ConnectBlock p env b hNew _ _ _ s)
    split
    · exact k₁.trans ((coreWrites_InvalidChainFound hNew _).after ⟨rfl, rfl⟩)
    · split <;> exact k₁.trans ⟨rfl, rfl⟩

theorem coreWrites_postponedLoop (p : Params) (env : Env) (postponedBlocks : Int) :
    ∀ (hs : List Hash) (hNew : Hash) (s : ChainState),
      CoreWrites s (postponedLoop p env postponedBlocks hs hNew s).2
  | [], _, s => .refl s
  | h :: hs, hNew, s => by
    unfold postponedLoop
    split
    · exact .refl s
    · split
      · exact ⟨rfl, rfl⟩
      · next b _ _ db _ =>
        have k₀ : CoreWrites s { s with txdb := db } := ⟨rfl, rfl⟩
        have k₁ := coreWrites_SetBestChainInner p env b h true postponedBlocks { s with txdb := db }
        split
        · next hi => exact k₀.trans (.of_eq hi k₁)
        · next hi =>
          exact (k₀.trans (.of_eq hi k₁)).trans
            (coreWrites_postponedLoop p env postponedBlocks hs hNew _)

/-- Every block the walk to `pindexIntermediate` steps over has a parent. -/
theorem intermediateWalk_parents (s : ChainState) (nBestChainTrust : Nat) :
    ∀ (fuel : Nat) (h : Hash) (acc : List Hash),
      ∀ x ∈ (intermediateWalk s nBestChainTrust fuel h acc).2, x ∈ acc ∨ ∃ hp, parentOf s x = some hp
  | 0, _, _ => fun _ hx => .inl hx
  | fuel + 1, h, acc => by
    unfold intermediateWalk
    split
    · next hp hph =>
      split
      · intro x hx
        rcases intermediateWalk_parents s nBestChainTrust fuel hp _ x hx with hx | hx
        · rcases List.mem_append.1 hx with hx | hx
          · exact .inl hx
          · rw [List.mem_singleton.1 hx]
            exact .inr ⟨hp, hph⟩
        · exact .inr hx
      · exact fun _ hx => .inl hx
    · exact fun _ hx => .inl hx

/-- The node `postponedLoop` hands back as `pindexNew`: the one it was given, or the parent
of a block it tried to reconnect. -/
theorem postponedLoop_tip (p : Params) (env : Env) (postponedBlocks : Int) :
    ∀ (hs : List Hash) (hNew : Hash) (s : ChainState),
      (postponedLoop p env postponedBlocks hs hNew s).1 = hNew ∨
        ∃ x ∈ hs, (postponedLoop p env postponedBlocks hs hNew s).1 = (parentOf s x).getD 0
  | [], _, _ => .inl rfl
  | h :: hs, hNew, s => by
    unfold postponedLoop
    split; · exact .inl rfl
    split; · exact .inl rfl
    next b _ _ db _ =>
    have k := coreWrites_SetBestChainInner p env b h true postponedBlocks { s with txdb := db }
    split
    · next hi =>
      refine .inr ⟨h, .head _, ?_⟩
      rw [(CoreWrites.of_eq hi k).parentOf]
      rfl
    · next s' hi =>
      rcases postponedLoop_tip p env postponedBlocks hs hNew s' with e | ⟨x, hx, e⟩
      · exact .inl e
      · exact .inr ⟨x, .tail _ hx, by rw [e, (CoreWrites.of_eq hi k).parentOf]; rfl⟩

/-- **What `SetBestChain` does**: a step of the core, and on success `setTip` for the
node it was called for or, when a postponed reconnect fails, for the parent of a node. -/
theorem SetBestChain_writes (p : Params) (env : Env) (b : Block) (hNew : Hash)
    (s : ChainState) :
    ∃ r, ((SetBestChain p env b hNew s).2 = r ∨
      ∃ hTip, (SetBestChain p env b hNew s).2 = setTip b.hash hTip r ∧
        (hTip = hNew ∨ ∃ x, parentOf s x = some hTip)) ∧ CoreWrites s r := by
  generalize hr : SetBestChain p env b hNew s = res
  unfold SetBestChain at hr
  split at hr
  · subst hr
    exact ⟨_, .inl rfl, ⟨rfl, rfl⟩⟩
  next db _ =>
  have k₀ : CoreWrites s { s with txdb := db } := ⟨rfl, rfl⟩
  dsimp only at hr
  rw [ite_eq_iff] at hr
  rcases hr with ⟨-, hr⟩ | ⟨-, hr⟩
  · -- the genesis block becomes the tip
    split at hr <;> subst hr
    · exact ⟨_, .inl rfl, ⟨rfl, rfl⟩⟩
    · exact ⟨_, .inr ⟨_, rfl, .inl rfl⟩, ⟨rfl, rfl⟩⟩
  have k₁ := coreWrites_SetBestChainInner p env b hNew false p.innerPostponedDefault
    { s with txdb := db }
  rw [ite_eq_iff] at hr
  rcases hr with ⟨-, hr⟩ | ⟨-, hr⟩
  · -- the block extends the tip
    split at hr <;> subst hr
    · next hi => exact ⟨_, .inl rfl, k₀.trans (.of_eq hi k₁)⟩
    · next hi => exact ⟨_, .inr ⟨_, rfl, .inl rfl⟩, k₀.trans (.of_eq hi k₁)⟩
  split at hr
  · subst hr
    exact ⟨_, .inl rfl, k₀⟩
  split at hr
  · next hro =>
    subst hr
    exact ⟨_, .inl rfl, k₀.trans ((CoreWrites.of_eq hro (coreWrites_Reorganize p env _ _ _)).trans
      ((coreWrites_InvalidChainFound hNew _).after ⟨rfl, rfl⟩))⟩
  · next s₁ hro =>
    have k₂ : CoreWrites s s₁ := k₀.trans (.of_eq hro (coreWrites_Reorganize p env _ _ _))
    subst hr
    refine ⟨_, .inr ⟨_, rfl, ?_⟩, k₂.trans (coreWrites_postponedLoop p env _ _ _ s₁)⟩
    -- a tip other than `hNew` is the parent of a block the walk stepped over
    refine (postponedLoop_tip p env _ _ hNew s₁).imp id fun ⟨x, hx, e⟩ => ?_
    obtain hx | ⟨hp, hph⟩ := intermediateWalk_parents _ _ _ _ [] x (List.mem_reverse.1 hx)
    · cases hx
    · have hph : parentOf s x = some hp := hph
      rw [e, k₂.parentOf, hph]
      exact ⟨x, hph⟩

/-- **`SetBestChain` moves no node of the tree.** -/
theorem treeLinks_SetBestChain (p : Params) (env : Env) (b : Block) (hNew : Hash)
    (s : ChainState) : treeLinks (SetBestChain p env b hNew s).2 = treeLinks s := by
  obtain ⟨r, e | ⟨hTip, e, -⟩, k⟩ := SetBestChain_writes p env b hNew s <;> rw [e]
  exacts [k.links, k.links]

theorem keepsOrphans_SetBestChain (p : Params) (env : Env) (b : Block) (hNew : Hash)
    (s : ChainState) : KeepsOrphans s (SetBestChain p env b hNew s).2 := by
  obtain ⟨r, e | ⟨hTip, e, -⟩, k⟩ := SetBestChain_writes p env b hNew s <;> rw [e]
  exacts [k.orphans, k.orphans.trans ⟨rfl, rfl⟩]

/-- The tip `SetBestChain` leaves: the one it found, the node it was called for, or the
parent of a node. -/
theorem SetBestChain_pindexBest (p : Params) (env : Env) (b : Block) (hNew : Hash)
    (s : ChainState) :
    (SetBestChain p env b hNew s).2.pindexBest = s.pindexBest ∨
      ∃ hTip, (SetBestChain p env b hNew s).2.pindexBest = some hTip ∧
        (hTip = hNew ∨ ∃ x, parentOf s x = some hTip) := by
  obtain ⟨r, e | ⟨hTip, e, ht⟩, k⟩ := SetBestChain_writes p env b hNew s <;> rw [e]
  exacts [.inl k.pindexBest, .inr ⟨hTip, rfl, ht⟩]

/-! ## `AddToBlockIndex` -/

/-- Where `AddToBlockIndex` files block `b` (`main.cpp:2251`): under its hash, one height
above its parent when the parent is indexed, a root at height zero when it is not. -/
def newLink (s : ChainState) (b : Block) : TreeLink :=
  match s.mapBlockIndex b.hashPrevBlock with
  | some prev => ⟨b.hash, some b.hashPrevBlock, prev.nHeight + 1⟩
  | none => ⟨b.hash, none, 0⟩

/-- Filing node `n` under `k` puts its link there and moves no other node. -/
theorem treeLinks_file {s s' : ChainState} {k : Hash} {n : BlockIndex} {e : TreeLink}
    (hs : s'.mapBlockIndex = update s.mapBlockIndex k (some n)) (he : n.link = e) :
    treeLinks s' = update (treeLinks s) k (some e) := by
  funext h
  simp only [treeLinks, hs, update]
  split
  · rw [Option.map_some', he]
  · rfl

/-- **What `AddToBlockIndex` does**: it refuses and leaves the state, or it files
`newLink s b` under the fresh hash of `b`, leaving the tip and the orphan pools, and may
then hand the state to `SetBestChain` for the new node. -/
theorem AddToBlockIndex_cases (p : Params) (env : Env) (b : Block) (nFile nBlockPos : Nat)
    (s : ChainState) :
    AddToBlockIndex p env b nFile nBlockPos s = (false, s) ∨
      s.mapBlockIndex b.hash = none ∧ ∃ s₁,
        ((AddToBlockIndex p env b nFile nBlockPos s).2 = s₁ ∨
          (AddToBlockIndex p env b nFile nBlockPos s).2 = (SetBestChain p env b b.hash s₁).2) ∧
        treeLinks s₁ = update (treeLinks s) b.hash (some (newLink s b)) ∧
        s₁.pindexBest = s.pindexBest ∧ KeepsOrphans s s₁ := by
  generalize hr : AddToBlockIndex p env b nFile nBlockPos s = r
  unfold AddToBlockIndex at hr
  obtain ⟨-, rfl⟩ | ⟨hnew, hr⟩ := ite_eq_iff.1 hr; · exact .inl rfl
  obtain ⟨-, rfl⟩ | ⟨-, hr⟩ := ite_eq_iff.1 hr; · exact .inl rfl
  refine .inr ⟨Option.not_isSome_iff_eq_none.1 hnew, ?_⟩
  -- each of the four branches left ends in a state with the node filed
  dsimp only at hr
  split at hr
  on_goal 2 =>
    split at hr
    on_goal 2 => obtain ⟨-, hr⟩ | ⟨-, hr⟩ := ite_eq_iff.1 hr
  all_goals
    subst hr
    first | refine ⟨_, .inr rfl, ?_⟩ | refine ⟨_, .inl rfl, ?_⟩
    refine ⟨treeLinks_file rfl ?_, rfl, ⟨rfl, rfl⟩⟩
    unfold newLink
    cases s.mapBlockIndex b.hashPrevBlock <;> rfl

/-! ## The orphan pools across `AcceptBlock` -/

theorem keepsOrphans_AddToBlockIndex (p : Params) (env : Env) (b : Block) (nFile nBlockPos : Nat)
    (s : ChainState) :
    KeepsOrphans s (AddToBlockIndex p env b nFile nBlockPos s).2 := by
  rcases AddToBlockIndex_cases p env b nFile nBlockPos s with e | ⟨-, s₁, e | e, -, -, k⟩ <;>
    rw [e]
  exacts [.refl s, k, k.trans (keepsOrphans_SetBestChain p env b b.hash s₁)]

/-- **`AcceptBlock` leaves both orphan pools.** -/
theorem keepsOrphans_AcceptBlock (p : Params) (env : Env) (b : Block) (s : ChainState) :
    KeepsOrphans s (AcceptBlock p env b s).2 := by
  unfold AcceptBlock
  refine .of_ite (.refl s) ?_
  split; · exact .refl s
  dsimp only
  iterate 5 refine .of_ite (.refl s) ?_
  exact (keepsOrphans_AddToBlockIndex p env b 1 _ _).after ⟨rfl, rfl⟩

theorem keepsOrphans_AcceptToMemoryPool (p : Params) (env : Env) (s : ChainState)
    (tx : Transaction) (fCheckInputs : Bool) :
    KeepsOrphans s (AcceptToMemoryPool p env s tx fCheckInputs).2.2 :=
  (coreWrites_AcceptToMemoryPool p env s tx fCheckInputs).orphans

/-! ## What the `tx` handler writes -/

/-- From `s` to `s'` at most the memory pool and the orphan-transaction maps were written. -/
structure TxWrites (s s' : ChainState) : Prop where
  rest : s' = { s with
    mempool := s'.mempool, mapOrphanTransactions := s'.mapOrphanTransactions,
    mapOrphanTransactionsByPrev := s'.mapOrphanTransactionsByPrev }

namespace TxWrites

variable {s s' s'' : ChainState}

theorem refl (s : ChainState) : TxWrites s s := ⟨rfl⟩

theorem trans (h₁ : TxWrites s s') (h₂ : TxWrites s' s'') : TxWrites s s'' :=
  ⟨h₂.rest.trans (by rw [h₁.rest])⟩

theorem of_eq {α : Type} {r : α × ChainState} {a : α} (hr : r = (a, s'))
    (h : TxWrites s r.2) : TxWrites s s' := by subst hr; exact h

theorem of_eq₃ {α β : Type} {r : α × β × ChainState} {a : α} {x : β}
    (hr : r = (a, x, s')) (h : TxWrites s r.2.2) : TxWrites s s' := by subst hr; exact h

/-- The `tx` handler moves no node of the block tree. -/
theorem links (h : TxWrites s s') : treeLinks s' = treeLinks s := by
  rw [h.rest]
  rfl

theorem pindexBest (h : TxWrites s s') : s'.pindexBest = s.pindexBest := by
  rw [h.rest]

/-- The `tx` handler leaves the orphan-block pool. -/
theorem blocks (h : TxWrites s s') : orphanBlockMaps s' = orphanBlockMaps s := by
  rw [h.rest]
  rfl

end TxWrites

theorem txWrites_AcceptToMemoryPool (p : Params) (env : Env) (s : ChainState) (tx : Transaction)
    (fCheckInputs : Bool) : TxWrites s (AcceptToMemoryPool p env s tx fCheckInputs).2.2 := by
  obtain ⟨_, e⟩ := AcceptToMemoryPool_writes p env s tx fCheckInputs
  rw [e]
  exact ⟨rfl⟩

theorem txWrites_EraseOrphanTx (h : Hash) (s : ChainState) : TxWrites s (EraseOrphanTx h s) := by
  unfold EraseOrphanTx
  split
  exacts [.refl s, ⟨rfl⟩]

theorem txWrites_AddOrphanTx (env : Env) (tx : Transaction) (s : ChainState) :
    TxWrites s (AddOrphanTx env tx s).2 := by
  unfold AddOrphanTx
  repeat' split
  all_goals exact ⟨rfl⟩

theorem txWrites_limitLoop (nMaxOrphans : Nat) (rand : Nat → Hash) :
    ∀ (fuel nEvicted : Nat) (s : ChainState),
      TxWrites s (limitLoop nMaxOrphans rand fuel nEvicted s).2
  | 0, _, s => .refl s
  | fuel + 1, nEvicted, s => by
    unfold limitLoop
    split; · exact .refl s
    split; · exact .refl s
    exact (txWrites_EraseOrphanTx _ s).trans (txWrites_limitLoop nMaxOrphans rand fuel _ _)

theorem txWrites_acceptOrphans (p : Params) (env : Env) :
    ∀ (hs work erase : List Hash) (s : ChainState),
      TxWrites s (acceptOrphans p env hs work erase s).2.2
  | [], _, _, s => .refl s
  | h :: hs, work, erase, s => by
    unfold acceptOrphans
    split
    next orphanTx orphans _ =>
    have k : TxWrites s _ :=
      .trans ⟨rfl⟩ (txWrites_AcceptToMemoryPool p env { s with mapOrphanTransactions := orphans }
        orphanTx true)
    dsimp only
    split <;> exact k.trans (txWrites_acceptOrphans p env hs _ _ _)

theorem txWrites_drainOrphanTxs (p : Params) (env : Env) :
    ∀ (fuel : Nat) (work erase : List Hash) (s : ChainState),
      TxWrites s (drainOrphanTxs p env fuel work erase s).2
  | 0, _, _, s => .refl s
  | _ + 1, [], _, s => .refl s
  | fuel + 1, hashPrev :: work, erase, s => by
    unfold drainOrphanTxs
    exact (TxWrites.trans ⟨rfl⟩ (txWrites_acceptOrphans p env _ _ _ _)).trans
      (txWrites_drainOrphanTxs p env fuel _ _ _)

theorem txWrites_eraseAll (hs : List Hash) (s : ChainState) :
    TxWrites s (hs.foldl (fun s h => EraseOrphanTx h s) s) := by
  induction hs generalizing s with
  | nil => exact .refl s
  | cons h hs ih => exact (txWrites_EraseOrphanTx h s).trans (ih _)

/-- **The `tx` handler writes the memory pool and the orphan-transaction maps only.** -/
theorem txWrites_ProcessTx (p : Params) (env : Env) (rand : Nat → Hash) (tx : Transaction)
    (s : ChainState) : TxWrites s (ProcessTx p env rand tx s) := by
  have k := txWrites_AcceptToMemoryPool p env s tx true
  unfold ProcessTx
  split
  · next s₁ ha =>
    split
    next s₂ hd =>
    have k₂ : TxWrites s₁ s₂ := .of_eq hd (txWrites_drainOrphanTxs p env _ _ _ s₁)
    exact (TxWrites.of_eq₃ ha k).trans (k₂.trans (txWrites_eraseAll _ _))
  · next s₁ ha =>
    exact (TxWrites.of_eq₃ ha k).trans
      ((txWrites_AddOrphanTx env tx s₁).trans (txWrites_limitLoop _ _ _ _ _))
  · next s₁ ha => exact .of_eq₃ ha k

/-- **The `tx` handler leaves the orphan-block pool.** -/
theorem orphanBlockMaps_ProcessTx (p : Params) (env : Env) (rand : Nat → Hash) (tx : Transaction)
    (s : ChainState) :
    orphanBlockMaps (ProcessTx p env rand tx s) = orphanBlockMaps s :=
  (txWrites_ProcessTx p env rand tx s).blocks

/-! ## The `block` handler leaves the orphan-transaction pool -/

/-- A branch both of whose arms leave the orphan-transaction pool. -/
theorem orphanTxMaps_ite {α : Type} {c : Prop} [Decidable c] {s : ChainState}
    {a b : α × ChainState} (ha : orphanTxMaps a.2 = orphanTxMaps s)
    (hb : orphanTxMaps b.2 = orphanTxMaps s) : orphanTxMaps (if c then a else b).2 = orphanTxMaps s := by
  split
  exacts [ha, hb]

section Drain

variable (accept : Block → ChainState → Bool × ChainState)
  (hacc : ∀ b s, KeepsOrphans s (accept b s).2)
include hacc

theorem orphanTxMaps_drainChildren :
    ∀ (bs : List Block) (work : List Hash) (s : ChainState),
      orphanTxMaps (drainChildren accept bs work s).2 = orphanTxMaps s
  | [], _, _ => rfl
  | b :: bs, work, s => by
    unfold drainChildren
    exact (orphanTxMaps_drainChildren bs _ _).trans (hacc b s).txs

theorem orphanTxMaps_drainOrphans :
    ∀ (fuel : Nat) (work : List Hash) (s : ChainState),
      orphanTxMaps (drainOrphans accept fuel work s) = orphanTxMaps s
  | 0, _, _ => rfl
  | _ + 1, [], _ => rfl
  | fuel + 1, hashPrev :: work, s => by
    unfold drainOrphans
    exact (orphanTxMaps_drainOrphans fuel _ _).trans (orphanTxMaps_drainChildren accept hacc _ _ s)

theorem orphanTxMaps_processNewBlockWith (p : Params) (env : Env) (b : Block) (s : ChainState) :
    orphanTxMaps (processNewBlockWith p env accept b s).2 = orphanTxMaps s := by
  unfold processNewBlockWith
  refine orphanTxMaps_ite rfl (orphanTxMaps_ite rfl (orphanTxMaps_ite rfl
    (orphanTxMaps_ite (orphanTxMaps_ite rfl rfl) ?_)))
  split
  · next s₁ ha => exact (KeepsOrphans.of_eq ha (hacc b s)).txs
  · next s₁ ha =>
    exact (orphanTxMaps_drainOrphans accept hacc _ _ _).trans
      (KeepsOrphans.of_eq ha (hacc b s)).txs

end Drain

/-- **The `block` handler leaves the orphan-transaction pool.** -/
theorem orphanTxMaps_ProcessNewBlock (p : Params) (env : Env) (b : Block) (s : ChainState) :
    orphanTxMaps (ProcessNewBlock p env b s).2 = orphanTxMaps s :=
  orphanTxMaps_processNewBlockWith _ (keepsOrphans_AcceptBlock p env) p env b s

end NeutronCore
