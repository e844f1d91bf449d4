/-
The fork choice over every run: the best chain is the one of most trust.

`AddToBlockIndex` (`main.cpp:2238`) gives a new node the chain trust of its parent plus the
trust its own `nBits` claims, a `uint256` sum and so taken modulo `2^256` (`main.cpp:2261`),
and hands it to `SetBestChain` only when that beats `nBestChainTrust` (`main.cpp:2303`). `SetBestChain` then moves the tip to that
node or, when a postponed reconnect fails, to the parent of a block it stepped over because
the parent's trust beat the tip's (`TipChoice`), and records the new tip's trust
(`main.cpp:2102`). Below it, `ConnectBlock` rewrites a node's amounts (`nMint`,
`nMoneySupply`) and nothing else of it (`indexShape_ConnectBlock`), and no other write of
the core or of the handlers touches a node.

So in every reachable state each node's trust is its parent's plus its own block's, modulo
`2^256`, and
`nBestChainTrust` is the tip's trust (`reachable_trustConsistent`); `nBestHeight` is the
tip's height as well (`BestHeightRecorded`); and along every run from a reachable state the
best chain's trust never falls, and it strictly rises whenever the tip moves
(`reachable_run_heavier`). The walks through the core and the block handler are
`CoreStable`'s and `OrphanStable`'s, and `KeepsIndex` is what the core's writes keep.
-/
import NeutronCore.CoreSteps
import NeutronCore.BlockTree

set_option autoImplicit false

namespace NeutronCore

/-! ## What `ConnectBlock` keeps of a node -/

/-- A node with its amounts cleared: all that `ConnectBlock` never rewrites, the trust and
the `nBits` it derives from included. -/
def BlockIndex.shape (n : BlockIndex) : BlockIndex := { n with nMint := 0, nMoneySupply := 0 }

/-- The shape of the node filed under each hash. -/
def indexShape (s : ChainState) (h : Hash) : Option BlockIndex := (s.mapBlockIndex h).map BlockIndex.shape

/-- Rewriting an indexed node with one of the same shape keeps every node's shape. -/
theorem indexShape_file {s : ChainState} {k : Hash} {n n' : BlockIndex} (hk : s.mapBlockIndex k = some n)
    (hn : n'.shape = n.shape) :
    indexShape { s with mapBlockIndex := update s.mapBlockIndex k (some n') } = indexShape s := by
  funext h
  by_cases hh : h = k
  · subst hh; simp only [indexShape, update_same, hk, Option.map_some', hn]
  · simp only [indexShape, update_ne _ _ hh]

/-- **`ConnectBlock` rewrites amounts only**: every node's shape, its trust among it, is as
it was. -/
theorem indexShape_ConnectBlock (p : Params) (env : Env) (b : Block) (hIndex : Hash)
    (fJustCheck reorganize : Bool) (postponedBlocks : Int) (s : ChainState) :
    indexShape (ConnectBlock p env b hIndex fJustCheck reorganize postponedBlocks s).2 = indexShape s := by
  generalize hc : ConnectBlock p env b hIndex fJustCheck reorganize postponedBlocks s = r
  unfold ConnectBlock at hc
  split at hc; · subst hc; rfl
  next pindex hp =>
  -- every exit files `pindex` with new amounts, once or twice, under its own hash
  have twice : ∀ n₁ n₂ : BlockIndex, n₁.shape = pindex.shape → n₂.shape = pindex.shape →
      indexShape { s with mapBlockIndex := update (update s.mapBlockIndex hIndex (some n₁)) hIndex (some n₂) } =
        indexShape s := fun n₁ n₂ h₁ h₂ =>
    (indexShape_file (s := { s with mapBlockIndex := update s.mapBlockIndex hIndex (some n₁) })
      (update_same ..) (h₂.trans h₁.symm)).trans (indexShape_file hp h₁)
  rcases ite_eq_iff.1 hc with ⟨-, rfl⟩ | ⟨-, hc⟩; · rfl
  split at hc; · subst hc; rfl
  dsimp only at hc
  rcases ite_eq_iff.1 hc with ⟨-, rfl⟩ | ⟨-, hc⟩; · exact indexShape_file hp rfl
  rcases ite_eq_iff.1 hc with ⟨-, rfl⟩ | ⟨-, hc⟩; · exact twice _ _ rfl rfl
  split at hc; · subst hc; exact twice _ _ rfl rfl
  rcases ite_eq_iff.1 hc with ⟨-, rfl⟩ | ⟨-, hc⟩; · exact twice _ _ rfl rfl
  split at hc; · subst hc; exact twice _ _ rfl rfl
  split at hc <;> subst hc <;> exact twice _ _ rfl rfl

/-- A field of a node that `ConnectBlock` never rewrites reads the same from two indexes of
one shape. -/
theorem map_of_shape {α : Type} {f : BlockIndex → α} (hf : ∀ n, f n.shape = f n) {s s' : ChainState}
    (h : indexShape s' = indexShape s) (x : Hash) :
    (s'.mapBlockIndex x).map f = (s.mapBlockIndex x).map f := by
  simpa only [indexShape, Option.map_map, Function.comp_def, hf] using congrArg (Option.map f) (congrFun h x)

theorem chainTrust_of_shape {s s' : ChainState} (h : indexShape s' = indexShape s) :
    chainTrust s' = chainTrust s :=
  funext fun x => congrArg (Option.getD · 0) (map_of_shape (f := BlockIndex.nChainTrust) (fun _ => rfl) h x)

theorem heightOf_of_shape {s s' : ChainState} (h : indexShape s' = indexShape s) :
    heightOf s' = heightOf s :=
  funext fun x => congrArg (Option.getD · 0) (map_of_shape (f := BlockIndex.nHeight) (fun _ => rfl) h x)

/-! ## The index across the core -/

/-- From `s` to `s'` every node's shape, the stake set, the tip and the tip's records are as
they were. -/
structure KeepsIndex (s s' : ChainState) : Prop where
  shape : indexShape s' = indexShape s
  setStakeSeen : s'.setStakeSeen = s.setStakeSeen
  pindexBest : s'.pindexBest = s.pindexBest
  nBestHeight : s'.nBestHeight = s.nBestHeight
  nBestChainTrust : s'.nBestChainTrust = s.nBestChainTrust

theorem KeepsIndex.of_index {s s' : ChainState} (h : s'.mapBlockIndex = s.mapBlockIndex)
    (hs : s'.setStakeSeen = s.setStakeSeen) (hb : s'.pindexBest = s.pindexBest)
    (hh : s'.nBestHeight = s.nBestHeight) (ht : s'.nBestChainTrust = s.nBestChainTrust) :
    KeepsIndex s s' :=
  ⟨by unfold indexShape; rw [h], hs, hb, hh, ht⟩

/-- `DisconnectBlock` writes the database and nothing else. -/
theorem DisconnectBlock_txdb_only (env : Env) (b : Block) (h : Hash) (s : ChainState) :
    ∃ db, (DisconnectBlock env b h s).2 = { s with txdb := db } := by
  unfold DisconnectBlock
  split
  · exact ⟨_, rfl⟩
  · split <;> exact ⟨_, rfl⟩

/-- `InvalidChainFound` writes the best invalid trust, in memory and in the database. -/
theorem InvalidChainFound_writes (h : Hash) (s : ChainState) :
    ∃ t db, InvalidChainFound h s = { s with nBestInvalidTrust := t, txdb := db } := by
  unfold InvalidChainFound
  split
  · split <;> exact ⟨_, _, rfl⟩
  · exact ⟨_, _, rfl⟩

/-- The core's writes keep the index: only `ConnectBlock` writes nodes, and only their
amounts; only `setTip` moves the tip. -/
theorem keepsIndex_stable (p : Params) (env : Env) : CoreStable p env KeepsIndex where
  refl _ := .of_index rfl rfl rfl rfl rfl
  trans h₁ h₂ := ⟨h₂.1.trans h₁.1, h₂.2.trans h₁.2, h₂.3.trans h₁.3, h₂.4.trans h₁.4, h₂.5.trans h₁.5⟩
  connect b h f r n s := by
    have hs := indexShape_ConnectBlock p env b h f r n s
    obtain ⟨_, _, e, -⟩ := ConnectBlock_updates p env b h f r n s
    rw [e] at hs ⊢
    exact ⟨hs, rfl, rfl, rfl, rfl⟩
  disconnect b h s := by
    obtain ⟨_, e⟩ := DisconnectBlock_txdb_only env b h s
    rw [e]
    exact .of_index rfl rfl rfl rfl rfl
  invalid h s := by
    obtain ⟨_, _, e⟩ := InvalidChainFound_writes h s
    rw [e]
    exact .of_index rfl rfl rfl rfl rfl
  write _ _ _ _ _ _ := .of_index rfl rfl rfl rfl rfl
  readmit s tx := by
    obtain ⟨_, e⟩ := AcceptToMemoryPool_writes p env s tx false
    rw [e]
    exact .of_index rfl rfl rfl rfl rfl

/-! ## The invariant -/

/-- The trusts as `AddToBlockIndex` and `SetBestChain` record them: each node's chain trust
is its parent's, or nothing for a root, plus the trust of its own `nBits`, modulo `2^256`,
and the best chain's trust is its tip's. -/
structure TrustConsistent (s : ChainState) : Prop where
  sum : ∀ {h n}, s.mapBlockIndex h = some n →
    n.nChainTrust = ((n.pprev.map (chainTrust s)).getD 0 + GetBlockTrust n.nBits) % 2 ^ 256
  best : s.nBestChainTrust = (s.pindexBest.map (chainTrust s)).getD 0

/-- The index is closed under the links `AddToBlockIndex` relies on: the tip and every
node's parent are indexed. -/
structure IndexClosed (s : ChainState) : Prop where
  best : ∀ {h}, s.pindexBest = some h → (s.mapBlockIndex h).isSome
  parent : ∀ {h n q}, s.mapBlockIndex h = some n → n.pprev = some q → (s.mapBlockIndex q).isSome

theorem BlockTree.indexClosed {root : Hash} {s : ChainState}
    (t : BlockTree root (treeLinks s) s.pindexBest) : IndexClosed s where
  best hb := by simpa [treeLinks] using t.bestIndexed hb
  parent hn hq := by
    obtain ⟨pe, hpe, -⟩ := t.parent (show treeLinks s _ = some _ by rw [treeLinks, hn]; rfl) hq
    obtain ⟨pn, hpn, -⟩ := Option.map_eq_some'.1 hpe
    rw [hpn]
    rfl

theorem TrustConsistent.of_keepsIndex {s s' : ChainState} (k : KeepsIndex s s') (hc : TrustConsistent s) :
    TrustConsistent s' := by
  have ht := chainTrust_of_shape k.shape
  refine ⟨fun {h n} hn => ?_, by rw [k.nBestChainTrust, k.pindexBest, ht, hc.best]⟩
  -- the node of `s` under `h` has the trust, the parent and the `nBits` of `n`
  have hm := map_of_shape (f := fun n => (n.nChainTrust, n.pprev, n.nBits)) (fun _ => rfl) k.shape h
  rw [hn, Option.map_some'] at hm
  obtain ⟨m, hm, hmn⟩ := Option.map_eq_some'.1 hm.symm
  simp only [Prod.mk.injEq] at hmn
  rw [ht, ← hmn.1, ← hmn.2.1, ← hmn.2.2, hc.sum hm]

/-- `nBestHeight` as `setTip` records it: the height of the node `pindexBest` names. -/
def BestHeightRecorded (s : ChainState) : Prop :=
  ∀ h, s.pindexBest = some h → s.nBestHeight = heightOf s h

theorem BestHeightRecorded.of_keepsIndex {s s' : ChainState} (k : KeepsIndex s s')
    (hh : BestHeightRecorded s) : BestHeightRecorded s' := fun h hb => by
  rw [k.nBestHeight, hh h (k.pindexBest ▸ hb), heightOf_of_shape k.shape]

/-- From `s` to `s'` the best chain's trust did not fall, and it rose if the tip moved. -/
structure Heavier (s s' : ChainState) : Prop where
  le : s.nBestChainTrust ≤ s'.nBestChainTrust
  lt : s'.pindexBest ≠ s.pindexBest → s.nBestChainTrust < s'.nBestChainTrust

namespace Heavier

theorem refl (s : ChainState) : Heavier s s := ⟨le_rfl, fun h => absurd rfl h⟩

theorem trans {s t u : ChainState} (h₁ : Heavier s t) (h₂ : Heavier t u) : Heavier s u := by
  refine ⟨h₁.le.trans h₂.le, fun hne => ?_⟩
  by_cases ht : t.pindexBest = s.pindexBest
  · exact lt_of_le_of_lt h₁.le (h₂.lt (ht ▸ hne))
  · exact lt_of_lt_of_le (h₁.lt ht) h₂.le

theorem of_keepsIndex {s s' : ChainState} (k : KeepsIndex s s') : Heavier s s' :=
  ⟨k.nBestChainTrust.ge, fun h => absurd k.pindexBest h⟩

/-- A step to a best chain of strictly more trust. -/
theorem of_lt {s s' : ChainState} (h : s.nBestChainTrust < s'.nBestChainTrust) : Heavier s s' :=
  ⟨h.le, fun _ => h⟩

end Heavier

/-! ## `SetBestChain` and `AddToBlockIndex` -/

section Steps

variable (p : Params) (env : Env)

/-- **`SetBestChain` moves the tip only to more trust.** Called for a node of more trust than
the best chain's, it keeps the trusts consistent, and the best chain's trust after it is the
old one or strictly more. -/
theorem trust_SetBestChain (b : Block) {hNew : Hash} {s : ChainState} (hc : TrustConsistent s)
    (hgt : s.nBestChainTrust < chainTrust s hNew) :
    TrustConsistent (SetBestChain p env b hNew s).2 ∧ Heavier s (SetBestChain p env b hNew s).2 := by
  obtain ⟨r, k, e | ⟨hTip, e, hchoice⟩⟩ := stable_SetBestChain (keepsIndex_stable p env) b hNew s <;> rw [e]
  · exact ⟨hc.of_keepsIndex k, .of_keepsIndex k⟩
  · -- `setTip` records the trust of the node it moves to, which beats the old best
    have hr := hc.of_keepsIndex k
    have hlt : s.nBestChainTrust < chainTrust r hTip := by
      rw [chainTrust_of_shape k.shape]
      rcases hchoice with rfl | ⟨best, x, hbest, -, hlt⟩
      · exact hgt
      · obtain ⟨h, hb, hh⟩ := Option.bind_eq_some.1 hbest
        rwa [hc.best, hb, Option.map_some', Option.getD_some, chainTrust, hh]
    exact ⟨⟨hr.sum, rfl⟩, .of_lt hlt⟩

/-- `SetBestChain` records the height of the tip it moves to. -/
theorem height_SetBestChain (b : Block) (hNew : Hash) {s : ChainState} (hh : BestHeightRecorded s) :
    BestHeightRecorded (SetBestChain p env b hNew s).2 := by
  obtain ⟨r, k, e | ⟨hTip, e, -⟩⟩ := stable_SetBestChain (keepsIndex_stable p env) b hNew s <;> rw [e]
  · exact hh.of_keepsIndex k
  · rintro _ ⟨⟩
    rfl

/-- An indexed hash is not the fresh one a node is filed under. -/
theorem update_of_isSome {m : Hash → Option BlockIndex} {k q : Hash} (hk : m k = none)
    (hq : (m q).isSome) (v : Option BlockIndex) : update m k v q = m q :=
  update_ne _ _ fun e => by rw [e, hk] at hq; cases hq

/-- Filing a fresh node with its parent's trust plus its own keeps the trusts consistent. -/
theorem trust_file {s : ChainState} (hc : TrustConsistent s) (hx : IndexClosed s) {b : Block}
    {node : BlockIndex} (hfresh : s.mapBlockIndex b.hash = none)
    (hpprev : node.pprev = (s.mapBlockIndex b.hashPrevBlock).map fun _ => b.hashPrevBlock)
    (htrust : node.nChainTrust = (chainTrust s b.hashPrevBlock + GetBlockTrust node.nBits) % 2 ^ 256)
    (s₁ : ChainState) (hs₁ : s₁.mapBlockIndex = update s.mapBlockIndex b.hash (some node))
    (hb : s₁.pindexBest = s.pindexBest) (ht : s₁.nBestChainTrust = s.nBestChainTrust) :
    TrustConsistent s₁ := by
  -- an indexed hash keeps its trust
  have keep : ∀ {q}, (s.mapBlockIndex q).isSome → chainTrust s₁ q = chainTrust s q := fun {q} hq => by
    rw [chainTrust, hs₁, update_of_isSome hfresh hq, chainTrust]
  have keepParent : ∀ {n : BlockIndex}, (∀ {q}, n.pprev = some q → (s.mapBlockIndex q).isSome) →
      (n.pprev.map (chainTrust s₁)).getD 0 = (n.pprev.map (chainTrust s)).getD 0 := fun {n} hn => by
    cases hq : n.pprev with
    | none => rfl
    | some q => exact congrArg (Option.getD · 0) (congrArg some (keep (hn hq)))
  refine ⟨fun {h n} hn => ?_, ?_⟩
  · rw [hs₁] at hn
    rcases update_eq_some.1 hn with ⟨rfl, rfl⟩ | ⟨-, hn⟩
    · -- the new node: its parent, if indexed, is the block's
      rw [htrust, keepParent fun {q} hq => ?_]
      · cases hp : s.mapBlockIndex b.hashPrevBlock <;>
          simp only [hpprev, hp, chainTrust, Option.map_none', Option.map_some', Option.getD_none,
            Option.getD_some]
      · rw [hpprev] at hq
        obtain ⟨_, hp, rfl⟩ := Option.map_eq_some'.1 hq
        rw [hp]
        rfl
    · rw [hc.sum hn, keepParent (hx.parent hn)]
  · rw [ht, hb, hc.best]
    cases hq : s.pindexBest with
    | none => rfl
    | some q => exact (congrArg (Option.getD · 0) (congrArg some (keep (hx.best hq)))).symm

/-- Filing a fresh node keeps the tip's recorded height: the tip is indexed, so it is not
the fresh node. -/
theorem height_file {s : ChainState} (hh : BestHeightRecorded s) (hx : IndexClosed s) {k : Hash}
    {node : BlockIndex} (hfresh : s.mapBlockIndex k = none) (stakeSeen : List (OutPoint × Nat)) (db : TxDb) :
    BestHeightRecorded { s with mapBlockIndex := update s.mapBlockIndex k (some node),
                                setStakeSeen := stakeSeen, txdb := db } := fun h hbest => by
  rw [hh h hbest, heightOf, heightOf]
  exact congrArg (fun n => (Option.map BlockIndex.nHeight n).getD 0)
    (update_of_isSome hfresh (hx.best hbest) _).symm

/-- **`AddToBlockIndex` keeps the trusts consistent and moves the tip only to more trust.** -/
theorem trust_AddToBlockIndex (b : Block) (nFile nBlockPos : Nat) {s : ChainState}
    (hc : TrustConsistent s) (hx : IndexClosed s) :
    TrustConsistent (AddToBlockIndex p env b nFile nBlockPos s).2 ∧
      Heavier s (AddToBlockIndex p env b nFile nBlockPos s).2 := by
  rcases AddToBlockIndex_files p env b nFile nBlockPos s with
    e | ⟨hfresh, node, stakeSeen, db, hn, -, e | ⟨hlt, e⟩⟩ <;> rw [e]
  · exact ⟨hc, .refl s⟩
  · exact ⟨trust_file hc hx hfresh hn.pprev hn.nChainTrust _ rfl rfl rfl, ⟨le_rfl, fun h => absurd rfl h⟩⟩
  · have h₁ : TrustConsistent
        { s with mapBlockIndex := update s.mapBlockIndex b.hash (some node), setStakeSeen := stakeSeen,
                 txdb := db } := trust_file hc hx hfresh hn.pprev hn.nChainTrust _ rfl rfl rfl
    obtain ⟨h₂, k⟩ := @trust_SetBestChain p env b b.hash _ h₁
      (by simpa only [chainTrust, update_same, Option.map_some', Option.getD_some] using hlt)
    -- filing the node left the best chain as it was
    exact ⟨h₂, k.le, k.lt⟩

theorem height_AddToBlockIndex (b : Block) (nFile nBlockPos : Nat) {s : ChainState}
    (hh : BestHeightRecorded s) (hx : IndexClosed s) :
    BestHeightRecorded (AddToBlockIndex p env b nFile nBlockPos s).2 := by
  rcases AddToBlockIndex_files p env b nFile nBlockPos s with e | ⟨hfresh, _, _, _, -, -, e | ⟨-, e⟩⟩ <;>
    rw [e]
  · exact hh
  · exact height_file hh hx hfresh _ _
  · exact height_SetBestChain p env b b.hash (height_file hh hx hfresh _ _)

end Steps

/-! ## Every run -/

/-- The fork-choice invariant: the block index is a tree with the tip among its nodes, the
trusts are consistent, and `nBestHeight` is the tip's height. -/
structure ForkChoiceInv (s : ChainState) : Prop where
  tree : ∃ root, BlockTree root (treeLinks s) s.pindexBest
  trust : TrustConsistent s
  height : BestHeightRecorded s

/-- From `s` to `s'` the invariant is kept and the best chain got no lighter. -/
def ForkStep (s s' : ChainState) : Prop := ForkChoiceInv s → ForkChoiceInv s' ∧ Heavier s s'

theorem ForkStep.trans {s t u : ChainState} (h₁ : ForkStep s t) (h₂ : ForkStep t u) : ForkStep s u :=
  fun hi => have r₁ := h₁ hi; have r₂ := h₂ r₁.1; ⟨r₂.1, r₁.2.trans r₂.2⟩

/-- A step that keeps the index keeps the invariant: the links are part of each node's shape. -/
theorem ForkStep.of_keepsIndex {s s' : ChainState} (k : KeepsIndex s s') : ForkStep s s' :=
  fun ⟨⟨root, t⟩, hc, hh⟩ =>
    have hl : treeLinks s' = treeLinks s := funext (map_of_shape (f := BlockIndex.link) (fun _ => rfl) k.shape)
    ⟨⟨⟨root, by rwa [hl, k.pindexBest]⟩, hc.of_keepsIndex k, hh.of_keepsIndex k⟩, .of_keepsIndex k⟩

theorem forkStep_orphanStable : OrphanStable ForkStep where
  refl s hi := ⟨hi, .refl s⟩
  trans := .trans
  stash _ _ := .of_keepsIndex (.of_index rfl rfl rfl rfl rfl)
  drop _ _ := .of_keepsIndex (.of_index rfl rfl rfl rfl rfl)
  byPrev _ _ := .of_keepsIndex (.of_index rfl rfl rfl rfl rfl)

/-- `AddToBlockIndex` for a block whose parent is indexed keeps the invariant. -/
theorem forkStep_AddToBlockIndex (p : Params) (env : Env) (b : Block) (nFile nBlockPos : Nat)
    {s : ChainState} (hp : (s.mapBlockIndex b.hashPrevBlock).isSome) :
    ForkStep s (AddToBlockIndex p env b nFile nBlockPos s).2 := fun ⟨⟨root, t⟩, hc, hh⟩ =>
  have hx := t.indexClosed
  have k := trust_AddToBlockIndex p env b nFile nBlockPos hc hx
  ⟨⟨⟨root, blockTree_AddToBlockIndex p env nFile nBlockPos t hp⟩, k.1,
    height_AddToBlockIndex p env b nFile nBlockPos hh hx⟩, k.2⟩

theorem forkStep_AcceptBlock (p : Params) (env : Env) (b : Block) (s : ChainState) :
    ForkStep s (AcceptBlock p env b s).2 := by
  rcases AcceptBlock_cases p env b s with e | ⟨_, hp, -, e⟩ <;> rw [e]
  · exact fun hi => ⟨hi, .refl s⟩
  · refine ForkStep.trans ?_ (forkStep_AddToBlockIndex p env b 1 _ ?_)
    exacts [.of_keepsIndex (.of_index rfl rfl rfl rfl rfl), by rw [hp]; rfl]

theorem forkStep_ProcessTx (p : Params) (env : Env) (rand : Nat → Hash) (tx : Transaction)
    (s : ChainState) : ForkStep s (ProcessTx p env rand tx s) := by
  have k := txWrites_ProcessTx p env rand tx s
  rw [k.rest]
  exact .of_keepsIndex (.of_index rfl rfl rfl rfl rfl)

theorem forkStep_apply (p : Params) : ∀ (e : Event) (s : ChainState), ForkStep s (e.apply p s)
  | .block env b, s =>
    orphanStable_processNewBlockWith forkStep_orphanStable _ (forkStep_AcceptBlock p env) p env b s
  | .tx env rand t, s => forkStep_ProcessTx p env rand t s

theorem forkChoiceInv_LoadBlockIndex (p : Params) (env : Env) (g : Block)
    (h : (LoadBlockIndex p env g).1 = true) : ForkChoiceInv (LoadBlockIndex p env g).2 :=
  ⟨⟨g.hash, blockTree_LoadBlockIndex p env g h⟩,
    (trust_AddToBlockIndex p env g 1 0 ⟨Option.noConfusion, rfl⟩
      ⟨Option.noConfusion, Option.noConfusion⟩).1,
    height_AddToBlockIndex p env g 1 0 (fun _ => Option.noConfusion)
      ⟨Option.noConfusion, Option.noConfusion⟩⟩

theorem forkChoiceInv_reachable {p : Params} {s : ChainState} (h : Reachable p s) : ForkChoiceInv s := by
  induction h with
  | genesis env g hg => exact forkChoiceInv_LoadBlockIndex p env g hg
  | step e _ ih => exact (forkStep_apply p e _ ih).1

/-- **The trusts are consistent in every reachable state**: each indexed node's chain trust is
its parent's, or nothing for a root, plus the trust its own `nBits` claims, and
`nBestChainTrust` is the trust of the node `pindexBest` names. -/
theorem reachable_trustConsistent {p : Params} {s : ChainState} (h : Reachable p s) :
    TrustConsistent s :=
  (forkChoiceInv_reachable h).trust

theorem reachable_trustConsistent_genesisState : TrustConsistent genesisState :=
  reachable_trustConsistent genesisState_reachable

/-- **The best chain only gets heavier.** Along every run from a reachable state,
`nBestChainTrust` never falls, and if the tip at the end is not the tip at the start, it
strictly rose: the node never switches to a chain of equal or less trust. -/
theorem reachable_run_heavier {p : Params} {s : ChainState} (h : Reachable p s) :
    ∀ evs : List Event, Heavier s (run p evs s) := by
  intro evs
  induction evs generalizing s with
  | nil => exact .refl s
  | cons e evs ih =>
    exact (forkStep_apply p e s (forkChoiceInv_reachable h)).2.trans (ih (h.step e))

theorem reachable_run_heavier_eleven :
    (run testnet (chainEvents 11) genesisState).pindexBest ≠ genesisState.pindexBest ∧
      Heavier genesisState (run testnet (chainEvents 11) genesisState) :=
  ⟨by decide, reachable_run_heavier genesisState_reachable _⟩

end NeutronCore
