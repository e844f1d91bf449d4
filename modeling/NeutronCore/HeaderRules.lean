/-
The header rules of `AcceptBlock` over whole runs.

`AcceptBlock` (`main.cpp:2410`) indexes a block only if its header passes four tests against
its parent (`main.cpp:2429`–`2444`): no proof of work above `LAST_POW_BLOCK`, the bits that
`GetNextTargetRequired` asks for, a time past `GetPastTimeLimit` (the median of the parent's
last eleven times) and one not too far behind the parent's. The tests read the index as it
stood when the block arrived.

The index only grows, and a node keeps its shape once filed, since `ConnectBlock` rewrites
amounts only (`IndexGrows`). The two walks behind the rules that read the index,
`GetLastBlockIndex` and the times of the last eleven ancestors, read nothing but parents and
the shape fields of the nodes they pass, so from an indexed node they give the same answer in
every later state (`GetNextTargetRequired_grows`, `GetPastTimeLimit_grows`). Hence the rules a
block passed on arrival hold of its node against its parent in every reachable state
(`reachable_headerRules`).
-/
import NeutronCore.ForkChoice
import NeutronCore.FindBlock
import NeutronCore.Retarget

set_option autoImplicit false

namespace NeutronCore

/-! ## Shapes -/

namespace BlockIndex

variable {n n' : BlockIndex} (h : n'.shape = n.shape)
include h

theorem pprev_of_shape : n'.pprev = n.pprev := congrArg (·.pprev) h

theorem nHeight_of_shape : n'.nHeight = n.nHeight := congrArg (·.nHeight) h

theorem nTime_of_shape : n'.nTime = n.nTime := congrArg (·.nTime) h

theorem nBits_of_shape : n'.nBits = n.nBits := congrArg (·.nBits) h

theorem fProofOfStake_of_shape : n'.fProofOfStake = n.fProofOfStake := congrArg (·.fProofOfStake) h

theorem depthFuel_of_shape : depthFuel n' = depthFuel n := by rw [depthFuel, depthFuel, nHeight_of_shape h]

end BlockIndex

open BlockIndex

/-! ## The index only grows -/

/-- From `s` to `s'` every indexed node stays indexed with its shape. -/
structure IndexGrows (s s' : ChainState) : Prop where
  grows : ∀ {h n}, s.mapBlockIndex h = some n → ∃ n', s'.mapBlockIndex h = some n' ∧ n'.shape = n.shape

/-- Every parent a node names is indexed in `s`. -/
def ParentsIndexed (s : ChainState) (n : BlockIndex) : Prop :=
  ∀ {q}, n.pprev = some q → (s.mapBlockIndex q).isSome

theorem IndexGrows.of_shape {s s' : ChainState} (h : indexShape s' = indexShape s) : IndexGrows s s' :=
  ⟨fun {q n} hn => Option.map_eq_some'.1 ((congrFun h q).trans (by rw [indexShape, hn]; rfl))⟩

/-- Filing under a fresh hash keeps every indexed node. -/
theorem IndexGrows.file {s s' : ChainState} {k : Hash} {v : Option BlockIndex}
    (hk : s.mapBlockIndex k = none) (h : s'.mapBlockIndex = update s.mapBlockIndex k v) : IndexGrows s s' :=
  ⟨fun {_ n} hn => ⟨n, by rw [h, update_of_isSome hk (by rw [hn]; rfl), hn], rfl⟩⟩

theorem IndexGrows.refl (s : ChainState) : IndexGrows s s := ⟨fun hn => ⟨_, hn, rfl⟩⟩

theorem IndexGrows.trans {s t u : ChainState} (g₁ : IndexGrows s t) (g₂ : IndexGrows t u) : IndexGrows s u :=
  ⟨fun hn =>
    let ⟨_, h₁, e₁⟩ := g₁.grows hn
    let ⟨n₂, h₂, e₂⟩ := g₂.grows h₁
    ⟨n₂, h₂, e₂.trans e₁⟩⟩

/-- The parent a filed node names is the block's, and it is indexed. -/
theorem FiledNode.parent {s : ChainState} {b : Block} {nFile nBlockPos : Nat} {node : BlockIndex}
    (hnode : FiledNode s b nFile nBlockPos node) {q : Hash} (hq : node.pprev = some q) :
    q = b.hashPrevBlock ∧ ∃ prev, s.mapBlockIndex b.hashPrevBlock = some prev := by
  obtain ⟨prev, hp, rfl⟩ := Option.map_eq_some'.1 (hnode.pprev ▸ hq)
  exact ⟨rfl, prev, hp⟩

theorem FiledNode.parentsIndexed {s : ChainState} {b : Block} {nFile nBlockPos : Nat} {node : BlockIndex}
    (hnode : FiledNode s b nFile nBlockPos node) : ParentsIndexed s node := fun hq => by
  obtain ⟨rfl, _, hp⟩ := hnode.parent hq
  rw [hp]; rfl

/-- Filing a node whose parent, if it names one, is indexed keeps the index closed. -/
theorem IndexClosed.file {s s' : ChainState} (hx : IndexClosed s) {k : Hash} {node : BlockIndex}
    (hk : s.mapBlockIndex k = none) (hnode : ParentsIndexed s node)
    (h : s'.mapBlockIndex = update s.mapBlockIndex k (some node)) (hb : s'.pindexBest = s.pindexBest) :
    IndexClosed s' where
  best hb' := by
    have hq := hx.best (hb ▸ hb')
    rwa [h, update_of_isSome hk hq]
  parent hn hq := by
    rw [h] at hn ⊢
    rcases update_eq_some.1 hn with ⟨-, rfl⟩ | ⟨-, hn⟩
    · rw [update_of_isSome hk (hnode hq)]; exact hnode hq
    · rw [update_of_isSome hk (hx.parent hn hq)]; exact hx.parent hn hq

section Grows

variable {s s' : ChainState} (g : IndexGrows s s') (hx : IndexClosed s)
include g hx

/-- **`GetLastBlockIndex` keeps its answer as the index grows**: from nodes of one shape it
reaches nodes of one shape, and the node it stops at still has its parents indexed. -/
theorem GetLastBlockIndex_grows (k : Bool) :
    ∀ fuel {n n' : BlockIndex}, ParentsIndexed s n → n'.shape = n.shape →
      (GetLastBlockIndex s' k fuel n').shape = (GetLastBlockIndex s k fuel n).shape ∧
        ParentsIndexed s (GetLastBlockIndex s k fuel n)
  | 0, _, _, hn, hsh => ⟨hsh, hn⟩
  | fuel + 1, n, n', hn, hsh => by
    simp only [GetLastBlockIndex, pprev_of_shape hsh, fProofOfStake_of_shape hsh]
    cases hq : n.pprev with
    | none => exact ⟨hsh, hn⟩
    | some q =>
      obtain ⟨m, hm⟩ := Option.isSome_iff_exists.1 (hn hq)
      obtain ⟨m', hm', hmsh⟩ := g.grows hm
      simp only [Option.some_bind, hm, hm']
      split
      · exact GetLastBlockIndex_grows k fuel (hx.parent hm) hmsh
      · exact ⟨hsh, hn⟩

/-- The times of the last `k` ancestors keep their values as the index grows. -/
theorem lastTimes_grows : ∀ k {n n' : BlockIndex}, ParentsIndexed s n → n'.shape = n.shape →
    lastTimes s' k (some n') = lastTimes s k (some n)
  | 0, _, _, _, _ => rfl
  | k + 1, n, n', hn, hsh => by
    simp only [lastTimes, nTime_of_shape hsh, pprev_of_shape hsh]
    cases hq : n.pprev with
    | none => cases k <;> rfl
    | some q =>
      obtain ⟨m, hm⟩ := Option.isSome_iff_exists.1 (hn hq)
      obtain ⟨m', hm', hmsh⟩ := g.grows hm
      simp only [Option.some_bind, hm, hm', lastTimes_grows k (hx.parent hm) hmsh]

theorem GetPastTimeLimit_grows {n n' : BlockIndex} (hn : ParentsIndexed s n) (hsh : n'.shape = n.shape) :
    GetPastTimeLimit s' n' = GetPastTimeLimit s n := by
  rw [GetPastTimeLimit, GetPastTimeLimit, lastTimes_grows g hx 11 hn hsh]

/-- **The retarget rule keeps its answer as the index grows**: both walks of
`GetNextTargetRequired` end at nodes of the same shape, whose times and bits it reads. -/
theorem GetNextTargetRequired_grows (p : Params) {n n' : BlockIndex} (hn : ParentsIndexed s n)
    (hsh : n'.shape = n.shape) (k : Bool) :
    GetNextTargetRequired p s' n' k = GetNextTargetRequired p s n k := by
  obtain ⟨h₁, c₁⟩ := GetLastBlockIndex_grows g hx k (depthFuel n) hn hsh
  simp only [GetNextTargetRequired, depthFuel_of_shape hsh, nHeight_of_shape hsh, pprev_of_shape h₁,
    nTime_of_shape h₁, nBits_of_shape h₁]
  cases hq : (GetLastBlockIndex s k (depthFuel n) n).pprev with
  | none => rfl
  | some q =>
    obtain ⟨m, hm⟩ := Option.isSome_iff_exists.1 (c₁ hq)
    obtain ⟨m', hm', hmsh⟩ := g.grows hm
    obtain ⟨h₂, -⟩ := GetLastBlockIndex_grows g hx k (depthFuel m) (hx.parent hm) hmsh
    simp only [Option.some_bind, hm, hm', depthFuel_of_shape hmsh, pprev_of_shape h₂, nTime_of_shape h₂]

end Grows

/-! ## The retarget walk ends -/

/-- From a node of a block tree the walk back along `pprev` takes at most one step per height,
so fuel beyond the node's height changes nothing. -/
theorem GetLastBlockIndex_fuel_indep {s : ChainState} {root : Hash} {best : Option Hash}
    (t : BlockTree root (treeLinks s) best) (k : Bool) :
    ∀ fuel {h n}, s.mapBlockIndex h = some n → n.nHeight.toNat < fuel →
      ∀ j, GetLastBlockIndex s k (fuel + j) n = GetLastBlockIndex s k fuel n
  | 0, _, _, _, hlt, _ => absurd hlt (Nat.not_lt_zero _)
  | fuel + 1, h, n, hn, hlt, j => by
    rw [Nat.add_right_comm]
    simp only [GetLastBlockIndex]
    cases hq : n.pprev with
    | none => rfl
    | some q =>
      -- the parent is filed one height below, at a height of at least zero
      obtain ⟨pe, hpe, hh⟩ := t.parent (show treeLinks s h = some n.link by rw [treeLinks, hn]; rfl) hq
      obtain ⟨prev, hprev, rfl⟩ := Option.map_eq_some'.1 hpe
      have h0 : 0 ≤ prev.nHeight := t.nonneg hpe
      have hh' : n.nHeight = prev.nHeight + 1 := hh
      simp only [Option.some_bind, hprev]
      split
      · exact GetLastBlockIndex_fuel_indep t k fuel hprev (by omega) j
      · rfl

/-! ## The rules -/

/-- The header rules that `AcceptBlock` checked of the block behind node `n`, read off `n` and
its parent `pn` in the index of `s` (`main.cpp:2429`–`2444`). -/
structure HeaderRules (p : Params) (s : ChainState) (n pn : BlockIndex) : Prop where
  pow : n.fProofOfStake = false → n.nHeight ≤ p.LAST_POW_BLOCK
  nBits : n.nBits = GetNextTargetRequired p s pn n.fProofOfStake
  pastTime : GetPastTimeLimit s pn < n.nTime
  drift : (pn.nTime : Int) ≤ p.FutureDrift n.nTime

/-- The node filed for a block that passed `AcceptBlock`'s tests obeys the rules against its
parent. -/
theorem HeaderOk.rules {p : Params} {s : ChainState} {b : Block} {nFile nBlockPos : Nat}
    {prev node : BlockIndex} (hok : HeaderOk p s b prev) (hnode : FiledNode s b nFile nBlockPos node)
    (hp : s.mapBlockIndex b.hashPrevBlock = some prev) : HeaderRules p s node prev where
  pow hw := by
    rw [hnode.nHeight hp]
    exact hok.pow (by rw [Block.IsProofOfWork, ← hnode.header.fProofOfStake, hw]; rfl)
  nBits := by rw [hnode.header.nBits, hnode.header.fProofOfStake]; exact hok.nBits
  pastTime := by rw [hnode.header.nTime]; exact hok.pastTime
  drift := by rw [hnode.header.nTime]; exact hok.drift

theorem HeaderRules.grows {p : Params} {s s' : ChainState} (g : IndexGrows s s') (hx : IndexClosed s)
    {n n' pn pn' : BlockIndex} (hpn : ParentsIndexed s pn) (hn : n'.shape = n.shape) (hp : pn'.shape = pn.shape)
    (r : HeaderRules p s n pn) : HeaderRules p s' n' pn' where
  pow := by rw [fProofOfStake_of_shape hn, nHeight_of_shape hn]; exact r.pow
  nBits := by
    rw [nBits_of_shape hn, fProofOfStake_of_shape hn, GetNextTargetRequired_grows g hx p hpn hp]
    exact r.nBits
  pastTime := by rw [GetPastTimeLimit_grows g hx hpn hp, nTime_of_shape hn]; exact r.pastTime
  drift := by rw [nTime_of_shape hp, nTime_of_shape hn]; exact r.drift

theorem HeaderOk.grows {p : Params} {s s' : ChainState} (g : IndexGrows s s') (hx : IndexClosed s)
    {b : Block} {prev : BlockIndex} (hp : s.mapBlockIndex b.hashPrevBlock = some prev)
    (hok : HeaderOk p s b prev) : HeaderOk p s' b prev where
  pow := hok.pow
  nBits := by rw [GetNextTargetRequired_grows g hx p (hx.parent hp) rfl]; exact hok.nBits
  pastTime := by rw [GetPastTimeLimit_grows g hx (hx.parent hp) rfl]; exact hok.pastTime
  drift := hok.drift

/-- Every indexed node whose parent is indexed obeys the header rules against it. -/
structure HeaderValid (p : Params) (s : ChainState) : Prop where
  rules : ∀ {h n q pn}, s.mapBlockIndex h = some n → n.pprev = some q → s.mapBlockIndex q = some pn →
    HeaderRules p s n pn

section Steps

variable {p : Params} {s : ChainState}

/-- A write that keeps every node's shape keeps the rules. -/
theorem HeaderValid.of_shape {s' : ChainState} (hv : HeaderValid p s) (hx : IndexClosed s)
    (h : indexShape s' = indexShape s) : HeaderValid p s' := ⟨fun {_ n' q pn'} hn' hq hpn' => by
  obtain ⟨n, hn, hsh⟩ := (IndexGrows.of_shape h.symm).grows hn'
  obtain ⟨pn, hpn, hpsh⟩ := (IndexGrows.of_shape h.symm).grows hpn'
  exact (hv.rules hn ((pprev_of_shape hsh).trans hq) hpn).grows (IndexGrows.of_shape h) hx (hx.parent hpn)
    hsh.symm hpsh.symm⟩

/-- Filing the node of a block that passed the tests keeps the rules: the old nodes keep
theirs, and the new node's parent is the one the tests read. -/
theorem HeaderValid.file {s₁ : ChainState} (hv : HeaderValid p s) (hx : IndexClosed s) {b : Block}
    {nFile nBlockPos : Nat} {node : BlockIndex} (hfresh : s.mapBlockIndex b.hash = none)
    (hnode : FiledNode s b nFile nBlockPos node)
    (hok : ∀ {prev}, s.mapBlockIndex b.hashPrevBlock = some prev → HeaderOk p s b prev)
    (hs₁ : s₁.mapBlockIndex = update s.mapBlockIndex b.hash (some node)) : HeaderValid p s₁ :=
  ⟨fun {_ n q pn} hn hq hpn => by
    have g : IndexGrows s s₁ := IndexGrows.file hfresh hs₁
    rw [hs₁] at hn hpn
    rcases update_eq_some.1 hn with ⟨-, rfl⟩ | ⟨-, hn⟩
    · -- the new node: its parent is the block's, which the tests read
      obtain ⟨rfl, prev, hp⟩ := hnode.parent hq
      rw [update_of_isSome hfresh (by rw [hp]; rfl), hp] at hpn
      cases hpn
      exact ((hok hp).rules hnode hp).grows g hx (hx.parent hp) rfl rfl
    · rw [update_of_isSome hfresh (hx.parent hn hq)] at hpn
      exact (hv.rules hn hq hpn).grows g hx (hx.parent hpn) rfl rfl⟩

theorem headerValid_SetBestChain (env : Env) (b : Block) (hNew : Hash) (hv : HeaderValid p s)
    (hx : IndexClosed s) : HeaderValid p (SetBestChain p env b hNew s).2 := by
  -- `setTip` writes no node
  obtain ⟨r, k, e | ⟨hTip, e, -⟩⟩ := stable_SetBestChain (keepsIndex_stable p env) b hNew s <;> rw [e] <;>
    exact hv.of_shape hx k.shape

theorem headerValid_AddToBlockIndex (env : Env) (b : Block) (nFile nBlockPos : Nat) (hv : HeaderValid p s)
    (hx : IndexClosed s) (hok : ∀ {prev}, s.mapBlockIndex b.hashPrevBlock = some prev → HeaderOk p s b prev) :
    HeaderValid p (AddToBlockIndex p env b nFile nBlockPos s).2 := by
  rcases AddToBlockIndex_files p env b nFile nBlockPos s with e | ⟨hfresh, _, _, _, hnode, -, e | ⟨-, e⟩⟩ <;>
    rw [e]
  · exact hv
  · exact hv.file hx hfresh hnode hok rfl
  · exact headerValid_SetBestChain env b b.hash (hv.file hx hfresh hnode hok rfl)
      (hx.file hfresh hnode.parentsIndexed rfl rfl)

theorem headerValid_AcceptBlock (env : Env) (b : Block) (hv : HeaderValid p s) (hx : IndexClosed s) :
    HeaderValid p (AcceptBlock p env b s).2 := by
  rcases AcceptBlock_cases p env b s with e | ⟨prev, hp, hok, e⟩ <;> rw [e]
  · exact hv
  · -- writing the block to its file leaves the index as it was
    have g : IndexGrows s
        { s with blockFile := update s.blockFile (1, s.nNextBlockPos) (some b),
                 nNextBlockPos := s.nNextBlockPos + 1 } := IndexGrows.of_shape rfl
    exact headerValid_AddToBlockIndex env b 1 _ (hv.of_shape hx rfl) ⟨hx.best, hx.parent⟩
      fun hp' => (Option.some.inj (hp.symm.trans hp')) ▸ hok.grows g hx hp

end Steps

/-! ## The index only grows -/

theorem indexGrows_SetBestChain (p : Params) (env : Env) (b : Block) (hNew : Hash) (s : ChainState) :
    IndexGrows s (SetBestChain p env b hNew s).2 := by
  obtain ⟨r, k, e | ⟨hTip, e, -⟩⟩ := stable_SetBestChain (keepsIndex_stable p env) b hNew s <;> rw [e] <;>
    exact IndexGrows.of_shape k.shape

theorem indexGrows_AddToBlockIndex (p : Params) (env : Env) (b : Block) (nFile nBlockPos : Nat)
    (s : ChainState) : IndexGrows s (AddToBlockIndex p env b nFile nBlockPos s).2 := by
  rcases AddToBlockIndex_files p env b nFile nBlockPos s with e | ⟨hfresh, _, _, _, -, -, e | ⟨-, e⟩⟩ <;>
    rw [e]
  · exact .refl s
  · exact IndexGrows.file hfresh rfl
  · exact (IndexGrows.file hfresh rfl).trans (indexGrows_SetBestChain p env b b.hash _)

theorem indexGrows_AcceptBlock (p : Params) (env : Env) (b : Block) (s : ChainState) :
    IndexGrows s (AcceptBlock p env b s).2 := by
  rcases AcceptBlock_cases p env b s with e | ⟨_, -, -, e⟩ <;> rw [e]
  · exact .refl s
  · -- writing the block to its file leaves the index as it was
    refine IndexGrows.trans ?_ (indexGrows_AddToBlockIndex p env b 1 _ _)
    exact IndexGrows.of_shape rfl

theorem indexGrows_orphanStable : OrphanStable IndexGrows where
  refl := .refl
  trans := .trans
  stash _ _ := IndexGrows.of_shape rfl
  drop _ _ := IndexGrows.of_shape rfl
  byPrev _ _ := IndexGrows.of_shape rfl

theorem indexGrows_apply (p : Params) : ∀ (e : Event) (s : ChainState), IndexGrows s (e.apply p s)
  | .block env b, s =>
    orphanStable_processNewBlockWith indexGrows_orphanStable _ (indexGrows_AcceptBlock p env) p env b s
  | .tx env rand t, s => by
    show IndexGrows s (ProcessTx p env rand t s)
    exact IndexGrows.of_shape (by unfold indexShape; rw [(txWrites_ProcessTx p env rand t s).rest])

/-- **The block index only grows, and its nodes keep their place.** Along every run, from
any state, each node once filed stays filed under its hash with the same shape: its parent,
height, trust, bits, time, kind, stake and disk position never change, and only
`ConnectBlock` rewrites its amounts. -/
theorem run_indexGrows (p : Params) : ∀ (evs : List Event) (s : ChainState), IndexGrows s (run p evs s)
  | [], s => .refl s
  | e :: evs, s => (indexGrows_apply p e s).trans (run_indexGrows p evs _)

/-! ## Every run -/

/-- From `s` to `s'` the header rules and the fork-choice invariant, whose tree keeps the
index closed, are kept. -/
def HeaderStep (p : Params) (s s' : ChainState) : Prop :=
  HeaderValid p s ∧ ForkChoiceInv s → HeaderValid p s' ∧ ForkChoiceInv s'

theorem ForkChoiceInv.indexClosed {s : ChainState} (hi : ForkChoiceInv s) : IndexClosed s :=
  let ⟨_, t⟩ := hi.tree; t.indexClosed

/-- A step that keeps the index keeps the rules. -/
theorem HeaderStep.of_index {p : Params} {s s' : ChainState} (h : s'.mapBlockIndex = s.mapBlockIndex)
    (hf : ForkStep s s') : HeaderStep p s s' := fun ⟨hv, hi⟩ =>
  ⟨hv.of_shape hi.indexClosed (by unfold indexShape; rw [h]), (hf hi).1⟩

theorem headerStep_orphanStable (p : Params) : OrphanStable (HeaderStep p) where
  refl _ := id
  trans h₁ h₂ := h₂ ∘ h₁
  stash b s := .of_index rfl (forkStep_orphanStable.stash b s)
  drop b s := .of_index rfl (forkStep_orphanStable.drop b s)
  byPrev s m := .of_index rfl (forkStep_orphanStable.byPrev s m)

theorem headerStep_apply (p : Params) : ∀ (e : Event) (s : ChainState), HeaderStep p s (e.apply p s)
  | .block env b, s =>
    orphanStable_processNewBlockWith (headerStep_orphanStable p) _
      (fun b s ⟨hv, hi⟩ =>
        ⟨headerValid_AcceptBlock env b hv hi.indexClosed, (forkStep_AcceptBlock p env b s hi).1⟩)
      p env b s
  | .tx env rand t, s => by
    show HeaderStep p s (ProcessTx p env rand t s)
    exact .of_index (by rw [(txWrites_ProcessTx p env rand t s).rest]) (forkStep_ProcessTx p env rand t s)

theorem headerValid_LoadBlockIndex (p : Params) (env : Env) (g : Block) :
    HeaderValid p (LoadBlockIndex p env g).2 :=
  headerValid_AddToBlockIndex env g 1 0 ⟨fun hn => Option.noConfusion hn⟩
    ⟨Option.noConfusion, Option.noConfusion⟩ (fun hp => Option.noConfusion hp)

theorem headerValid_reachable {p : Params} {s : ChainState} (hr : Reachable p s) :
    HeaderValid p s ∧ ForkChoiceInv s := by
  induction hr with
  | genesis env g hg => exact ⟨headerValid_LoadBlockIndex p env g, forkChoiceInv_LoadBlockIndex p env g hg⟩
  | step e _ ih => exact headerStep_apply p e _ ih

/-- **Every indexed block obeys the header rules against its parent in every reachable
state**: the parent it names is indexed, and the node has no proof of work above
`LAST_POW_BLOCK`, the bits `GetNextTargetRequired` asks for from that parent in the index as
it is now, a time past the parent's `GetPastTimeLimit`, and one that `FutureDrift` puts no
earlier than the parent's. -/
theorem reachable_headerRules {p : Params} {s : ChainState} (hr : Reachable p s) {h q : Hash}
    (hq : parentOf s h = some q) :
    ∃ n pn, s.mapBlockIndex h = some n ∧ s.mapBlockIndex q = some pn ∧ HeaderRules p s n pn := by
  have hs := headerValid_reachable hr
  obtain ⟨n, hn, hnq⟩ := Option.bind_eq_some.1 hq
  obtain ⟨pn, hpn⟩ := Option.isSome_iff_exists.1 (hs.2.indexClosed.parent hn hnq)
  exact ⟨n, pn, hn, hpn, hs.1.rules hn hnq hpn⟩

theorem reachable_headerRules_two_blocks :
    parentOf twoBlocksState 12 = some 11 ∧
      ∃ n pn, twoBlocksState.mapBlockIndex 12 = some n ∧ twoBlocksState.mapBlockIndex 11 = some pn ∧
        HeaderRules testnet twoBlocksState n pn :=
  have hq : parentOf twoBlocksState 12 = some 11 := by decide
  ⟨hq, reachable_headerRules (genesisState_reachable.run _) hq⟩

/-- **The retarget walk runs to its end.** In every reachable state, `GetLastBlockIndex` from
any indexed node (`AcceptBlock` hands `GetNextTargetRequired` the indexed parent, and its
second walk starts from that node's indexed parent) reaches the node it returns within the
`nHeight + 1` steps the model gives it: any more steps give the same node, so the bounded walk
is the source's `while` loop. -/
theorem reachable_GetLastBlockIndex_ends {p : Params} {s : ChainState} (hr : Reachable p s) {h : Hash}
    {n : BlockIndex} (hn : s.mapBlockIndex h = some n) (k : Bool) (j : Nat) :
    GetLastBlockIndex s k (depthFuel n + j) n = GetLastBlockIndex s k (depthFuel n) n :=
  let ⟨_, t⟩ := (forkChoiceInv_reachable hr).tree
  GetLastBlockIndex_fuel_indep t k _ hn (Nat.lt_succ_self _) j

theorem reachable_GetLastBlockIndex_ends_two_blocks :
    ∃ n, twoBlocksState.mapBlockIndex 12 = some n ∧
      GetLastBlockIndex twoBlocksState true (depthFuel n + 5) n =
        GetLastBlockIndex twoBlocksState true (depthFuel n) n :=
  match hn : twoBlocksState.mapBlockIndex 12 with
  | some n => ⟨n, rfl, reachable_GetLastBlockIndex_ends (genesisState_reachable.run _) hn true 5⟩
  | none => absurd hn (by decide)

end NeutronCore
