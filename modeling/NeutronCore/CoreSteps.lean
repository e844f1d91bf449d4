/-
The chain-state core as a composition of primitive writes.

Below `AddToBlockIndex`, `SetBestChain` (`main.cpp:2009`) and everything it calls change
the state by a handful of primitive writes: `ConnectBlock` and `DisconnectBlock`,
`InvalidChainFound`, writes of the database handle, of the `pnext` pointers and of
`pindexGenesisBlock`, the re-admission of a disconnected block's transactions to the pool
without input checks (`main.cpp:1966`), and the pruning of the pool after a connect
(`main.cpp:2003`) or a reorganization (`main.cpp:1972`). A relation between states that is
reflexive, transitive and kept by each of these holds from the state `SetBestChain` starts
in to the state its last step, `setTip`, is applied to (`stable_SetBestChain`).

That last step moves the tip to the node the call was made for or, when a postponed
reconnect fails, to the parent of a block the walk to `pindexIntermediate` stepped over,
which it did only because the parent's trust beat the tip's (`TipChoice`).

The memory-pool invariant and the fork-choice invariant are each such a relation, so the
walk through the core is written once, here.
-/
import NeutronCore.CoreFrame

set_option autoImplicit false

namespace NeutronCore

/-- The chain trust of the node filed under `h`, and `0` for a hash that is not indexed: how
`SetBestChain` reads `pindex->nChainTrust` through the index (`main.cpp:2037`). -/
def chainTrust (s : ChainState) (h : Hash) : Nat :=
  ((s.mapBlockIndex h).map BlockIndex.nChainTrust).getD 0

/-- A relation between states that each primitive write of the chain-state core keeps. -/
structure CoreStable (p : Params) (env : Env) (R : ChainState → ChainState → Prop) : Prop where
  refl : ∀ s, R s s
  trans : ∀ {s t u}, R s t → R t u → R s u
  connect : ∀ b h fJustCheck reorganize postponedBlocks s,
    R s (ConnectBlock p env b h fJustCheck reorganize postponedBlocks s).2
  disconnect : ∀ b h s, R s (DisconnectBlock env b h s).2
  invalid : ∀ h s, R s (InvalidChainFound h s)
  write : ∀ s db pnext genesis m, m.Sublist s.mempool →
    R s { s with txdb := db, pnext := pnext, pindexGenesisBlock := genesis, mempool := m }
  readmit : ∀ s tx, R s (AcceptToMemoryPool p env s tx false).2.2

/-- Where `SetBestChain` moves the tip: to the node `hNew` it was called for, or to the parent
of some node, with more trust than the tip of `s`. -/
def TipChoice (s : ChainState) (hNew hTip : Hash) : Prop :=
  hTip = hNew ∨ ∃ best x, s.pindexBest.bind s.mapBlockIndex = some best ∧
    parentOf s x = some hTip ∧ best.nChainTrust < chainTrust s hTip

/-- A fold each of whose steps keeps a sublist of the pool leaves a sublist of the pool. -/
theorem foldl_sublist {α β : Type} (f : List α → β → List α) (hf : ∀ m x, (f m x).Sublist m) :
    ∀ (xs : List β) (m : List α), (xs.foldl f m).Sublist m
  | [], _ => List.Sublist.refl _
  | x :: xs, m => (foldl_sublist f hf xs (f m x)).trans (hf m x)

/-- Every block the walk to `pindexIntermediate` steps over has a parent with more trust
than the bound the walk was given. -/
theorem intermediateWalk_trust (s : ChainState) (nBestChainTrust : Nat) :
    ∀ (fuel : Nat) (h : Hash) (acc : List Hash),
      ∀ x ∈ (intermediateWalk s nBestChainTrust fuel h acc).2, x ∈ acc ∨
        ∃ hp, parentOf s x = some hp ∧ nBestChainTrust < chainTrust s hp
  | 0, _, _ => fun _ hx => .inl hx
  | fuel + 1, h, acc => by
    unfold intermediateWalk
    split
    · next hp hph =>
      split
      · next hlt =>
        intro x hx
        rcases intermediateWalk_trust s nBestChainTrust fuel hp _ x hx with hx | hx
        · rcases List.mem_append.1 hx with hx | hx
          · exact .inl hx
          · rw [List.mem_singleton.1 hx]
            exact .inr ⟨hp, hph, hlt⟩
        · exact .inr hx
      · exact fun _ hx => .inl hx
    · exact fun _ hx => .inl hx

section Rel

variable {R : ChainState → ChainState → Prop} {s s' : ChainState}

/-- A step of a relation read off an equation for its result. -/
theorem rel_of_eq {α : Type} {r : α × ChainState} {a : α} (hr : r = (a, s')) (h : R s r.2) :
    R s s' := by subst hr; exact h

/-- The same for a result with two other components. -/
theorem rel_of_eq₃ {α β : Type} {r : α × β × ChainState} {a : α} {x : β} (hr : r = (a, x, s'))
    (h : R s r.2.2) : R s s' := by subst hr; exact h

end Rel

namespace CoreStable

variable {p : Params} {env : Env} {R : ChainState → ChainState → Prop} (hR : CoreStable p env R)
include hR

theorem txdb (s : ChainState) (db : TxDb) : R s { s with txdb := db } :=
  hR.write s db s.pnext s.pindexGenesisBlock s.mempool (List.Sublist.refl _)

theorem prune (s : ChainState) (m : List Transaction) (h : m.Sublist s.mempool) :
    R s { s with mempool := m } :=
  hR.write s s.txdb s.pnext s.pindexGenesisBlock m h

/-- Two relations the core keeps are kept together. -/
theorem and {R' : ChainState → ChainState → Prop} (hR' : CoreStable p env R') :
    CoreStable p env fun s s' => R s s' ∧ R' s s' where
  refl s := ⟨hR.refl s, hR'.refl s⟩
  trans h₁ h₂ := ⟨hR.trans h₁.1 h₂.1, hR'.trans h₁.2 h₂.2⟩
  connect b h f r n s := ⟨hR.connect b h f r n s, hR'.connect b h f r n s⟩
  disconnect b h s := ⟨hR.disconnect b h s, hR'.disconnect b h s⟩
  invalid h s := ⟨hR.invalid h s, hR'.invalid h s⟩
  write s db pnext genesis m hm := ⟨hR.write s db pnext genesis m hm, hR'.write s db pnext genesis m hm⟩
  readmit s tx := ⟨hR.readmit s tx, hR'.readmit s tx⟩

end CoreStable

/-- The frame of the core's writes is itself kept by each of them. -/
theorem coreWrites_stable (p : Params) (env : Env) : CoreStable p env CoreWrites where
  refl := .refl
  trans := .trans
  connect := coreWrites_ConnectBlock p env
  disconnect := coreWrites_DisconnectBlock env
  invalid := coreWrites_InvalidChainFound
  write _ _ _ _ _ _ := ⟨rfl, rfl⟩
  readmit s tx := coreWrites_AcceptToMemoryPool p env s tx false

/-! ## The walk through the core -/

section Walk

variable {p : Params} {env : Env} {R : ChainState → ChainState → Prop} (hR : CoreStable p env R)
include hR

theorem stable_disconnectBranch :
    ∀ (hs : List Hash) (acc : List Transaction) (s : ChainState),
      R s (disconnectBranch env hs acc s).2.2
  | [], _, s => hR.refl s
  | h :: hs, acc, s => by
    unfold disconnectBranch
    split
    · exact hR.refl s
    · split
      · next hr => exact rel_of_eq hr (hR.disconnect _ h s)
      · next hr =>
        exact hR.trans (rel_of_eq hr (hR.disconnect _ h s)) (stable_disconnectBranch hs _ _)

theorem stable_connectBranch (postponedBlocks : Int) :
    ∀ (hs : List Hash) (acc : List Transaction) (s : ChainState),
      R s (connectBranch p env postponedBlocks hs acc s).2.2
  | [], _, s => hR.refl s
  | h :: hs, acc, s => by
    unfold connectBranch
    split
    · exact hR.refl s
    · split
      · next hr => exact rel_of_eq hr (hR.connect _ h false true postponedBlocks s)
      · next hr =>
        exact hR.trans (rel_of_eq hr (hR.connect _ h false true postponedBlocks s))
          (stable_connectBranch postponedBlocks hs _ _)

theorem stable_resurrect : ∀ (txs : List Transaction) (s : ChainState), R s (resurrect p env txs s)
  | [], s => hR.refl s
  | tx :: txs, s => hR.trans (hR.readmit s tx) (stable_resurrect txs _)

theorem stable_Reorganize (hNew : Hash) (postponedBlocks : Int) (s : ChainState) :
    R s (Reorganize p env hNew postponedBlocks s).2 := by
  unfold Reorganize
  split; · exact hR.refl s
  dsimp only
  split; · exact hR.refl s
  split
  · split
    · next hd => exact rel_of_eq₃ hd (stable_disconnectBranch hR _ _ s)
    · next s₁ hd =>
      have k₁ : R s s₁ := rel_of_eq₃ hd (stable_disconnectBranch hR _ _ s)
      split
      · next hc => exact hR.trans k₁ (rel_of_eq₃ hc (stable_connectBranch hR _ _ _ _))
      · next s₂ hc =>
        have k₂ : R s s₂ := hR.trans k₁ (rel_of_eq₃ hc (stable_connectBranch hR _ _ _ _))
        split; · exact hR.trans k₂ (hR.txdb _ _)
        split; · exact hR.trans k₂ (hR.txdb _ _)
        -- the pool of the new branch: re-admitted transactions, then the pruning
        refine hR.trans k₂ (hR.trans (hR.trans (hR.write _ _ _ s₂.pindexGenesisBlock _ (.refl _))
          (stable_resurrect hR _ _)) (hR.prune _ _ ?_))
        exact foldl_sublist _ (fun m tx => (List.filter_sublist _).trans (List.filter_sublist _)) _ _
  · exact hR.refl s

theorem stable_SetBestChainInner (b : Block) (hNew : Hash) (reorganize : Bool)
    (postponedBlocks : Int) (s : ChainState) :
    R s (SetBestChainInner p env b hNew reorganize postponedBlocks s).2 := by
  unfold SetBestChainInner
  split
  · next s₁ hc =>
    exact hR.trans (rel_of_eq hc (hR.connect b hNew _ _ _ s))
      (hR.trans (hR.txdb _ _) (hR.invalid hNew _))
  · next s₁ hc =>
    have k₁ : R s s₁ := rel_of_eq hc (hR.connect b hNew _ _ _ s)
    split
    · exact hR.trans k₁ (hR.trans (hR.txdb _ _) (hR.invalid hNew _))
    · split
      · exact hR.trans k₁ (hR.txdb _ _)
      · dsimp only
        exact hR.trans k₁ (hR.write _ _ _ s₁.pindexGenesisBlock _
          (foldl_sublist mempoolRemove (fun m _ => List.filter_sublist m) _ _))

theorem stable_postponedLoop (postponedBlocks : Int) :
    ∀ (hs : List Hash) (hNew : Hash) (s : ChainState),
      R s (postponedLoop p env postponedBlocks hs hNew s).2
  | [], _, s => hR.refl s
  | h :: hs, hNew, s => by
    unfold postponedLoop
    split
    · exact hR.refl s
    · split
      · exact hR.txdb _ _
      · next b _ _ db _ =>
        have k₁ := stable_SetBestChainInner hR b h true postponedBlocks { s with txdb := db }
        split
        · next hi => exact hR.trans (hR.txdb _ _) (rel_of_eq hi k₁)
        · next hi =>
          exact hR.trans (hR.trans (hR.txdb _ _) (rel_of_eq hi k₁))
            (stable_postponedLoop postponedBlocks hs hNew _)

/-- **What `SetBestChain` does, for every relation the core's writes keep**: a run of
primitive writes, and on success `setTip` for the node it was called for or for the parent
of a node with more trust than the tip. -/
theorem stable_SetBestChain (b : Block) (hNew : Hash) (s : ChainState) :
    ∃ r, R s r ∧ ((SetBestChain p env b hNew s).2 = r ∨
      ∃ hTip, (SetBestChain p env b hNew s).2 = setTip b.hash hTip r ∧ TipChoice s hNew hTip) := by
  generalize hr : SetBestChain p env b hNew s = res
  unfold SetBestChain at hr
  split at hr
  · subst hr
    exact ⟨_, hR.txdb _ _, .inl rfl⟩
  next db _ =>
  have k₀ : R s { s with txdb := db } := hR.txdb _ _
  dsimp only at hr
  rw [ite_eq_iff] at hr
  rcases hr with ⟨-, hr⟩ | ⟨-, hr⟩
  · -- the genesis block becomes the tip
    split at hr <;> subst hr
    · exact ⟨_, hR.trans k₀ (hR.txdb _ _), .inl rfl⟩
    · exact ⟨_, hR.trans k₀ (hR.write _ _ _ _ _ (.refl _)), .inr ⟨_, rfl, .inl rfl⟩⟩
  have k₁ := stable_SetBestChainInner hR b hNew false p.innerPostponedDefault { s with txdb := db }
  rw [ite_eq_iff] at hr
  rcases hr with ⟨-, hr⟩ | ⟨-, hr⟩
  · -- the block extends the tip
    split at hr <;> subst hr
    · next hi => exact ⟨_, hR.trans k₀ (rel_of_eq hi k₁), .inl rfl⟩
    · next hi => exact ⟨_, hR.trans k₀ (rel_of_eq hi k₁), .inr ⟨_, rfl, .inl rfl⟩⟩
  split at hr
  · subst hr
    exact ⟨_, k₀, .inl rfl⟩
  next best hbest =>
  split at hr
  · next hro =>
    subst hr
    exact ⟨_, hR.trans k₀ (hR.trans (rel_of_eq hro (stable_Reorganize hR _ _ _))
      (hR.trans (hR.txdb _ _) (hR.invalid hNew _))), .inl rfl⟩
  · next s₁ hro =>
    subst hr
    refine ⟨_, hR.trans k₀ (hR.trans (rel_of_eq hro (stable_Reorganize hR _ _ _))
      (stable_postponedLoop hR _ _ _ s₁)), .inr ⟨_, rfl, ?_⟩⟩
    -- a tip other than `hNew` is the parent of a block the walk stepped over
    have w₀ : CoreWrites s { s with txdb := db } := ⟨rfl, rfl⟩
    have w₁ : CoreWrites s s₁ := w₀.trans (.of_eq hro (coreWrites_Reorganize p env _ _ _))
    refine (postponedLoop_tip p env _ _ hNew s₁).imp id fun ⟨x, hx, e⟩ => ?_
    obtain hx | ⟨hp, hph, hlt⟩ := intermediateWalk_trust _ _ _ _ [] x (List.mem_reverse.1 hx)
    · cases hx
    · have hph : parentOf s x = some hp := hph
      rw [e, w₁.parentOf, hph]
      exact ⟨best, x, hbest, hph, hlt⟩

end Walk

/-! ## Filing a node -/

/-- The header fields a node copies from its block: the constructor
`CBlockIndex(nFile, nBlockPos, block)` (spec §3) and `phashBlock` (`main.cpp:2251`). -/
structure BlockIndex.Carries (n : BlockIndex) (b : Block) : Prop where
  hash : n.hash = b.hash
  nBits : n.nBits = b.nBits
  nTime : n.nTime = b.nTime
  fProofOfStake : n.fProofOfStake = b.IsProofOfStake
  stake : (n.prevoutStake, n.nStakeTime) = b.GetProofOfStake

/-- The node `AddToBlockIndex` files for `b` at `(nFile, nBlockPos)` (`main.cpp:2246`–`2261`):
the block's header fields, linked to the parent one height above it when the parent is
indexed, and carrying the parent's trust plus the block's own, summed in `uint256` and so
modulo `2^256` (`main.cpp:2261`). -/
structure FiledNode (s : ChainState) (b : Block) (nFile nBlockPos : Nat) (node : BlockIndex) : Prop where
  pprev : node.pprev = (s.mapBlockIndex b.hashPrevBlock).map fun _ => b.hashPrevBlock
  nHeight : ∀ {prev}, s.mapBlockIndex b.hashPrevBlock = some prev → node.nHeight = prev.nHeight + 1
  nChainTrust : node.nChainTrust = (chainTrust s b.hashPrevBlock + GetBlockTrust node.nBits) % 2 ^ 256
  nFile : node.nFile = nFile
  nBlockPos : node.nBlockPos = nBlockPos
  header : node.Carries b

/-- **What `AddToBlockIndex` does** (`main.cpp:2238`): it refuses and leaves the state, or it
files a `FiledNode` for `b` under its fresh hash, adds the node's stake to `setStakeSeen` if
it is a proof-of-stake node, and then hands the state to `SetBestChain` for the node only if
its trust beats the best chain's (`main.cpp:2303`). -/
theorem AddToBlockIndex_files (p : Params) (env : Env) (b : Block) (nFile nBlockPos : Nat)
    (s : ChainState) :
    AddToBlockIndex p env b nFile nBlockPos s = (false, s) ∨
      s.mapBlockIndex b.hash = none ∧ ∃ (node : BlockIndex) (stakeSeen : List (OutPoint × Nat)) (db : TxDb),
        FiledNode s b nFile nBlockPos node ∧
        stakeSeen = (if node.fProofOfStake then setInsert s.setStakeSeen (node.prevoutStake, node.nStakeTime)
          else s.setStakeSeen) ∧
        let s₁ := { s with mapBlockIndex := update s.mapBlockIndex b.hash (some node),
                           setStakeSeen := stakeSeen, txdb := db }
        ((AddToBlockIndex p env b nFile nBlockPos s).2 = s₁ ∨
          s.nBestChainTrust < node.nChainTrust ∧
            (AddToBlockIndex p env b nFile nBlockPos s).2 = (SetBestChain p env b b.hash s₁).2) := by
  generalize hr : AddToBlockIndex p env b nFile nBlockPos s = r
  unfold AddToBlockIndex at hr
  obtain ⟨-, rfl⟩ | ⟨hnew, hr⟩ := ite_eq_iff.1 hr; · exact .inl rfl
  obtain ⟨-, rfl⟩ | ⟨-, hr⟩ := ite_eq_iff.1 hr; · exact .inl rfl
  refine .inr ⟨Option.not_isSome_iff_eq_none.1 hnew, ?_⟩
  -- four exits, each with the node filed
  dsimp only at hr
  split at hr
  on_goal 2 =>
    split at hr
    on_goal 2 => obtain ⟨hlt, hr⟩ | ⟨-, hr⟩ := ite_eq_iff.1 hr
  all_goals
    subst hr
    first | refine ⟨_, _, _, ?_, rfl, .inr ⟨hlt, rfl⟩⟩ | refine ⟨_, _, _, ?_, rfl, .inl rfl⟩
    split <;> next hp =>
      refine ⟨by rw [hp]; rfl, fun h => by rw [hp] at h; cases h <;> rfl, ?_, rfl, rfl,
        ⟨rfl, rfl, rfl, rfl, rfl⟩⟩
      simp only [chainTrust, hp, newIndex, Option.some_bind, Option.none_bind, Option.map_some',
        Option.map_none', Option.getD_some, Option.getD_none]

/-- The header tests `AcceptBlock` makes of `b` against its indexed parent `prev`
(`main.cpp:2429`–`2444`): no proof of work above `LAST_POW_BLOCK`, the bits the retarget rule
asks for, and a time past the median of the last eleven and not too far behind the
parent's. -/
structure HeaderOk (p : Params) (s : ChainState) (b : Block) (prev : BlockIndex) : Prop where
  pow : b.IsProofOfWork = true → prev.nHeight + 1 ≤ p.LAST_POW_BLOCK
  nBits : b.nBits = GetNextTargetRequired p s prev b.IsProofOfStake
  pastTime : GetPastTimeLimit s prev < b.GetBlockTime
  drift : (prev.nTime : Int) ≤ p.FutureDrift b.GetBlockTime

/-- **What `AcceptBlock` does** (`main.cpp:2410`): it refuses and leaves the state, or, for a
block whose parent is indexed and whose header passes `HeaderOk` against it, writes the
block at the next position of file 1 and hands it to `AddToBlockIndex` there. -/
theorem AcceptBlock_cases (p : Params) (env : Env) (b : Block) (s : ChainState) :
    (AcceptBlock p env b s).2 = s ∨ ∃ prev, s.mapBlockIndex b.hashPrevBlock = some prev ∧
      HeaderOk p s b prev ∧
      (AcceptBlock p env b s).2 = (AddToBlockIndex p env b 1 s.nNextBlockPos
        { s with blockFile := update s.blockFile (1, s.nNextBlockPos) (some b),
                 nNextBlockPos := s.nNextBlockPos + 1 }).2 := by
  generalize hr : AcceptBlock p env b s = r
  unfold AcceptBlock at hr
  rcases ite_eq_iff.1 hr with ⟨-, rfl⟩ | ⟨-, hr⟩; · exact .inl rfl
  split at hr; · subst hr; exact .inl rfl
  next prev hp =>
  dsimp only at hr
  rcases ite_eq_iff.1 hr with ⟨-, rfl⟩ | ⟨hpow, hr⟩; · exact .inl rfl
  rcases ite_eq_iff.1 hr with ⟨-, rfl⟩ | ⟨hbits, hr⟩; · exact .inl rfl
  rcases ite_eq_iff.1 hr with ⟨-, rfl⟩ | ⟨htime, hr⟩; · exact .inl rfl
  iterate 2 (rcases ite_eq_iff.1 hr with ⟨-, rfl⟩ | ⟨-, hr⟩; · exact .inl rfl)
  obtain ⟨hpast, hdrift⟩ := not_or.1 htime
  refine .inr ⟨prev, hp, ⟨fun hw => ?_, not_not.1 hbits, lt_of_not_le hpast, le_of_not_lt hdrift⟩,
    by rw [← hr]⟩
  simpa only [hw, Bool.true_and, decide_eq_true_eq, not_lt] using hpow

/-! ## The block handler around the core -/

/-- A relation between states that the writes of the orphan-block pool keep: filing an
orphan, dropping one, and clearing the by-prev entries of a drained parent. -/
structure OrphanStable (R : ChainState → ChainState → Prop) : Prop where
  refl : ∀ s, R s s
  trans : ∀ {s t u}, R s t → R t u → R s u
  stash : ∀ b s, R s (stashOrphan b s)
  drop : ∀ b s, R s (dropOrphan b s)
  byPrev : ∀ s m, R s { s with mapOrphanBlocksByPrev := m }

section Handler

variable {R : ChainState → ChainState → Prop} (hR : OrphanStable R)
  (accept : Block → ChainState → Bool × ChainState) (hacc : ∀ b s, R s (accept b s).2)
include hR hacc

theorem orphanStable_drainChildren :
    ∀ (bs : List Block) (work : List Hash) (s : ChainState), R s (drainChildren accept bs work s).2
  | [], _, s => hR.refl s
  | b :: bs, _, s => by
    unfold drainChildren
    exact hR.trans (hR.trans (hacc b s) (hR.drop b _)) (orphanStable_drainChildren bs _ _)

theorem orphanStable_drainOrphans :
    ∀ (fuel : Nat) (work : List Hash) (s : ChainState), R s (drainOrphans accept fuel work s)
  | 0, _, s => hR.refl s
  | _ + 1, [], s => hR.refl s
  | fuel + 1, _ :: _, s => by
    unfold drainOrphans
    exact hR.trans (hR.trans (orphanStable_drainChildren hR accept hacc _ _ s) (hR.byPrev _ _))
      (orphanStable_drainOrphans fuel _ _)

/-- **The block handler keeps every relation its acceptance step and the orphan pool's writes
keep.** -/
theorem orphanStable_processNewBlockWith (p : Params) (env : Env) (b : Block) (s : ChainState) :
    R s (processNewBlockWith p env accept b s).2 := by
  generalize hr : processNewBlockWith p env accept b s = r
  unfold processNewBlockWith at hr
  iterate 3 (rcases ite_eq_iff.1 hr with ⟨-, rfl⟩ | ⟨-, hr⟩; · exact hR.refl s)
  rcases ite_eq_iff.1 hr with ⟨-, hr⟩ | ⟨-, hr⟩
  · rcases ite_eq_iff.1 hr with ⟨-, rfl⟩ | ⟨-, rfl⟩
    exacts [hR.refl s, hR.stash b s]
  split at hr
  · next ha => subst hr; exact rel_of_eq ha (hacc b s)
  · next ha =>
    subst hr
    exact hR.trans (rel_of_eq ha (hacc b s)) (orphanStable_drainOrphans hR accept hacc _ _ _)

end Handler

end NeutronCore
