/-
The block index against the block files.

`AcceptBlock` (`main.cpp:2410`) writes a block at the next position of the block file and
only then files its node there through `AddToBlockIndex` (`main.cpp:2238`), which copies the
block's header fields into the node. `ReadFromDisk(pindex)` reads the block back from the
node's position, and `Reorganize`, `SetBestChain` and `DisconnectBlock`'s callers rely on that
read returning the node's own block.

The core below `AddToBlockIndex` never writes the block files and never moves a node
(`KeepsIndex`, `CoreWrites`), so three facts hold of every indexed node in every reachable
state (`reachable_blocksStored`): it sits below `nNextBlockPos`, so the next write never lands
on it; its position holds a block with its hash, whose header fields it carries and whose
parent is the one it names; and reading it back fails only when the disk read does.

A block whose parent is unknown is kept in memory instead, in `mapOrphanBlocks`, until the
drain of `ProcessNewBlock` hands it to `AcceptBlock` and erases it. No hash is in both
places in any reachable state (`reachable_orphan_unindexed`).
-/
import NeutronCore.HeaderRules

set_option autoImplicit false

namespace NeutronCore

open BlockIndex

/-- `b` is the block of the node `n` filed under `h`: the block's hash is `h`, the node
carries its header fields, and the parent the node names is the block's `hashPrevBlock`. -/
structure StoredAs (h : Hash) (n : BlockIndex) (b : Block) : Prop where
  hash : b.hash = h
  header : n.Carries b
  link : ∀ {q}, n.pprev = some q → q = b.hashPrevBlock

theorem StoredAs.of_shape {h : Hash} {n n' : BlockIndex} {b : Block} (st : StoredAs h n b)
    (hsh : n'.shape = n.shape) : StoredAs h n' b where
  hash := st.hash
  header :=
    ⟨(congrArg (·.hash) hsh).trans st.header.hash, (nBits_of_shape hsh).trans st.header.nBits,
      (nTime_of_shape hsh).trans st.header.nTime, (fProofOfStake_of_shape hsh).trans st.header.fProofOfStake,
      (congrArg (fun m => (m.prevoutStake, m.nStakeTime)) hsh).trans st.header.stake⟩
  link hq := st.link ((pprev_of_shape hsh).symm.trans hq)

/-- Every indexed node sits below `nNextBlockPos`, at a position of the block files that holds
its own block. -/
structure BlocksStored (s : ChainState) : Prop where
  stored : ∀ {h n}, s.mapBlockIndex h = some n → n.nBlockPos < s.nNextBlockPos ∧
    ∃ b, s.blockFile (n.nFile, n.nBlockPos) = some b ∧ StoredAs h n b

/-- The read `ReadFromDisk(pindex)` makes of a stored node fails only when the disk does. -/
theorem readBlock_of_stored {s : ChainState} {h : Hash} {n : BlockIndex} {b : Block}
    (hn : s.mapBlockIndex h = some n) (hb : s.blockFile (n.nFile, n.nBlockPos) = some b)
    (st : StoredAs h n b) (env : Env) :
    readBlock env s h = if env.ioFail (.readBlock h) then none else some b := by
  rw [readBlock, hn, Option.some_bind, hb, Option.some_bind, if_pos st.hash]

section Steps

variable {s : ChainState}

/-- A step that keeps every node's shape, the block files and the next position keeps the
blocks stored. -/
theorem BlocksStored.of_shape {s' : ChainState} (hs : BlocksStored s) (h : indexShape s' = indexShape s)
    (hf : s'.blockFile = s.blockFile) (hpos : s'.nNextBlockPos = s.nNextBlockPos) : BlocksStored s' :=
  ⟨fun {_ n'} hn' => by
    obtain ⟨n, hn, hsh⟩ := (IndexGrows.of_shape h.symm).grows hn'
    obtain ⟨hlt, b, hb, st⟩ := hs.stored hn
    have hpos' : n'.nBlockPos = n.nBlockPos := congrArg (·.nBlockPos) hsh.symm
    have hfile : n'.nFile = n.nFile := congrArg (·.nFile) hsh.symm
    rw [hf, hpos, hfile, hpos']
    exact ⟨hlt, b, hb, st.of_shape hsh.symm⟩⟩

/-- Writing a block at the next position moves no indexed node's block: each sits below it. -/
theorem BlocksStored.write (hs : BlocksStored s) (b : Block) :
    BlocksStored { s with blockFile := update s.blockFile (1, s.nNextBlockPos) (some b),
                          nNextBlockPos := s.nNextBlockPos + 1 } :=
  ⟨fun hn => by
    obtain ⟨hlt, b', hb', st⟩ := hs.stored hn
    exact ⟨Nat.lt_succ_of_lt hlt, b',
      (update_ne _ _ fun e => absurd (congrArg Prod.snd e) (Nat.ne_of_lt hlt)).trans hb', st⟩⟩

/-- Filing the node of a block stored at its position keeps the blocks stored. -/
theorem BlocksStored.file {s₁ : ChainState} (hs : BlocksStored s) {b : Block} {nFile nBlockPos : Nat}
    {node : BlockIndex} (hnode : FiledNode s b nFile nBlockPos node)
    (hb : s.blockFile (nFile, nBlockPos) = some b) (hlt : nBlockPos < s.nNextBlockPos)
    (hs₁ : s₁.mapBlockIndex = update s.mapBlockIndex b.hash (some node))
    (hf : s₁.blockFile = s.blockFile) (hpos : s₁.nNextBlockPos = s.nNextBlockPos) : BlocksStored s₁ :=
  ⟨fun hn => by
    rw [hs₁] at hn
    rw [hf, hpos]
    rcases update_eq_some.1 hn with ⟨rfl, rfl⟩ | ⟨-, hn⟩
    · -- the new node, at the position the block was written to
      rw [hnode.nFile, hnode.nBlockPos]
      exact ⟨hlt, b, hb, rfl, hnode.header, fun hq => (hnode.parent hq).1⟩
    · exact hs.stored hn⟩

theorem blocksStored_SetBestChain (p : Params) (env : Env) (b : Block) (hNew : Hash) (hs : BlocksStored s) :
    BlocksStored (SetBestChain p env b hNew s).2 := by
  obtain ⟨r, ⟨k, w⟩, e | ⟨hTip, e, -⟩⟩ :=
    stable_SetBestChain ((keepsIndex_stable p env).and (coreWrites_stable p env)) b hNew s <;> rw [e] <;>
  · -- neither the core nor `setTip` writes the block files
    have hf : r.blockFile = s.blockFile := by rw [w.rest]
    have hpos : r.nNextBlockPos = s.nNextBlockPos := by rw [w.rest]
    exact hs.of_shape k.shape hf hpos

theorem blocksStored_AddToBlockIndex (p : Params) (env : Env) (b : Block) (nFile nBlockPos : Nat)
    (hs : BlocksStored s) (hb : s.blockFile (nFile, nBlockPos) = some b) (hlt : nBlockPos < s.nNextBlockPos) :
    BlocksStored (AddToBlockIndex p env b nFile nBlockPos s).2 := by
  rcases AddToBlockIndex_files p env b nFile nBlockPos s with e | ⟨-, _, _, _, hnode, -, e | ⟨-, e⟩⟩ <;>
    rw [e]
  · exact hs
  · exact hs.file hnode hb hlt rfl rfl rfl
  · exact blocksStored_SetBestChain p env b b.hash (hs.file hnode hb hlt rfl rfl rfl)

theorem blocksStored_AcceptBlock (p : Params) (env : Env) (b : Block) (hs : BlocksStored s) :
    BlocksStored (AcceptBlock p env b s).2 := by
  rcases AcceptBlock_cases p env b s with e | ⟨_, -, -, e⟩ <;> rw [e]
  · exact hs
  · exact blocksStored_AddToBlockIndex p env b 1 _ (hs.write b) (update_same ..) (Nat.lt_succ_self _)

end Steps

/-! ## Every run -/

/-- From `s` to `s'` the blocks stay stored. -/
def StoreStep (s s' : ChainState) : Prop := BlocksStored s → BlocksStored s'

/-- A step that writes neither the index nor the block files. -/
theorem StoreStep.of_index {s s' : ChainState} (h : s'.mapBlockIndex = s.mapBlockIndex)
    (hf : s'.blockFile = s.blockFile) (hpos : s'.nNextBlockPos = s.nNextBlockPos) : StoreStep s s' :=
  fun hs => hs.of_shape (by unfold indexShape; rw [h]) hf hpos

theorem storeStep_orphanStable : OrphanStable StoreStep where
  refl _ := id
  trans h₁ h₂ := h₂ ∘ h₁
  stash _ _ := .of_index rfl rfl rfl
  drop _ _ := .of_index rfl rfl rfl
  byPrev _ _ := .of_index rfl rfl rfl

theorem storeStep_apply (p : Params) : ∀ (e : Event) (s : ChainState), StoreStep s (e.apply p s)
  | .block env b, s =>
    orphanStable_processNewBlockWith storeStep_orphanStable _ (fun b _ => blocksStored_AcceptBlock p env b) p env b s
  | .tx env rand t, s => by
    have k := txWrites_ProcessTx p env rand t s
    show StoreStep s (ProcessTx p env rand t s)
    exact .of_index (by rw [k.rest]) (by rw [k.rest]) (by rw [k.rest])

theorem blocksStored_reachable {p : Params} {s : ChainState} (hr : Reachable p s) : BlocksStored s := by
  induction hr with
  | genesis env g _ =>
    exact blocksStored_AddToBlockIndex p env g 1 0 ⟨fun hn => Option.noConfusion hn⟩ rfl Nat.one_pos
  | step e _ ih => exact storeStep_apply p e _ ih

/-- **Every indexed block is stored where its node says, and reads back**: in every reachable
state each indexed node sits below `nNextBlockPos`, so no later write lands on it; its
position holds a block with its hash, whose bits, time, kind and stake the node carries and
whose `hashPrevBlock` is the parent the node names; and `ReadFromDisk(pindex)` returns that
block unless the disk read itself fails. -/
theorem reachable_blocksStored {p : Params} {s : ChainState} (hr : Reachable p s) {h : Hash}
    (hh : (s.mapBlockIndex h).isSome) :
    ∃ n b, s.mapBlockIndex h = some n ∧ n.nBlockPos < s.nNextBlockPos ∧
      s.blockFile (n.nFile, n.nBlockPos) = some b ∧ StoredAs h n b ∧
      ∀ env, readBlock env s h = if env.ioFail (.readBlock h) then none else some b := by
  obtain ⟨n, hn⟩ := Option.isSome_iff_exists.1 hh
  obtain ⟨hlt, b, hb, st⟩ := (blocksStored_reachable hr).stored hn
  exact ⟨n, b, hn, hlt, hb, st, readBlock_of_stored hn hb st⟩

theorem reachable_blocksStored_two_blocks :
    (twoBlocksState.mapBlockIndex 12).isSome = true ∧
      ∃ n b, twoBlocksState.mapBlockIndex 12 = some n ∧ n.nBlockPos < twoBlocksState.nNextBlockPos ∧
        twoBlocksState.blockFile (n.nFile, n.nBlockPos) = some b ∧ StoredAs 12 n b ∧
        ∀ env, readBlock env twoBlocksState 12 = if env.ioFail (.readBlock 12) then none else some b :=
  have hh : (twoBlocksState.mapBlockIndex 12).isSome = true := by decide
  ⟨hh, reachable_blocksStored (genesisState_reachable.run _) hh⟩

/-! ## Indexed or pooled, never both

A block received in full is kept in one of two places: filed in the index (and written to
the block files), or pooled in `mapOrphanBlocks` while its parent is unknown.
`ProcessNewBlock` refuses a block whose hash is in either (`main.cpp:2566`, `2571`),
`AcceptBlock` adds no hash to the index but the block's own, and a round of the drain erases
every orphan it hands to `AcceptBlock` (`main.cpp:2717`). -/

/-- From `s` to `s'` the index gains no hash other than `k`. -/
structure IndexAdds (k : Hash) (s s' : ChainState) : Prop where
  fresh : ∀ {h}, s.mapBlockIndex h = none → h ≠ k → s'.mapBlockIndex h = none

namespace IndexAdds

variable {k : Hash} {s t u : ChainState}

theorem refl (s : ChainState) : IndexAdds k s s := ⟨fun hx _ => hx⟩

theorem trans (h₁ : IndexAdds k s t) (h₂ : IndexAdds k t u) : IndexAdds k s u :=
  ⟨fun hx hne => h₂.fresh (h₁.fresh hx hne) hne⟩

/-- A step that keeps every node's shape adds no hash. -/
theorem of_shape (h : indexShape t = indexShape s) : IndexAdds k s t :=
  ⟨fun {x} hx _ => by simpa only [indexShape, hx, Option.map_none', Option.map_eq_none'] using congrFun h x⟩

/-- Filing a node under `k`. -/
theorem update {v : Option BlockIndex} (h : t.mapBlockIndex = NeutronCore.update s.mapBlockIndex k v) :
    IndexAdds k s t :=
  ⟨fun hx hne => by rw [h, update_ne _ _ hne]; exact hx⟩

end IndexAdds

theorem indexAdds_SetBestChain (p : Params) (env : Env) (b : Block) (hNew k : Hash) (s : ChainState) :
    IndexAdds k s (SetBestChain p env b hNew s).2 := by
  obtain ⟨r, kr, e | ⟨hTip, e, -⟩⟩ := stable_SetBestChain (keepsIndex_stable p env) b hNew s <;> rw [e] <;>
    exact .of_shape kr.shape

theorem indexAdds_AddToBlockIndex (p : Params) (env : Env) (b : Block) (nFile nBlockPos : Nat)
    (s : ChainState) : IndexAdds b.hash s (AddToBlockIndex p env b nFile nBlockPos s).2 := by
  rcases AddToBlockIndex_files p env b nFile nBlockPos s with e | ⟨-, _, _, _, -, -, e | ⟨-, e⟩⟩ <;>
    rw [e]
  · exact .refl s
  · exact .update rfl
  · exact (IndexAdds.update rfl).trans (indexAdds_SetBestChain p env b b.hash _ _)

/-- **`AcceptBlock` indexes no hash but the block's own.** -/
theorem indexAdds_AcceptBlock (p : Params) (env : Env) (b : Block) (s : ChainState) :
    IndexAdds b.hash s (AcceptBlock p env b s).2 := by
  rcases AcceptBlock_cases p env b s with e | ⟨_, -, -, e⟩ <;> rw [e]
  · exact .refl s
  · exact ⟨fun hx hne => (indexAdds_AddToBlockIndex p env b 1 _ _).fresh hx hne⟩

/-- No hash is both indexed and pooled as an orphan block. -/
structure OrphansUnindexed (s : ChainState) : Prop where
  unindexed : ∀ e ∈ s.mapOrphanBlocks, s.mapBlockIndex e.1 = none

instance (s : ChainState) : Decidable (OrphansUnindexed s) :=
  decidable_of_iff (∀ e ∈ s.mapOrphanBlocks, s.mapBlockIndex e.1 = none) ⟨fun h => ⟨h⟩, fun h => h.1⟩

/-- A step that indexes at most `k` and pools only blocks pooled before, none under `k`. -/
theorem OrphansUnindexed.step {s t : ChainState} {k : Hash} (hu : OrphansUnindexed s) (ha : IndexAdds k s t)
    (ho : ∀ e ∈ t.mapOrphanBlocks, e ∈ s.mapOrphanBlocks ∧ e.1 ≠ k) : OrphansUnindexed t :=
  ⟨fun e he => have ⟨hs, hk⟩ := ho e he; ha.fresh (hu.unindexed e hs) hk⟩

section Drain

variable (accept : Block → ChainState → Bool × ChainState)
  (hacc : ∀ b s, KeepsOrphans s (accept b s).2) (hadd : ∀ b s, IndexAdds b.hash s (accept b s).2)
include hacc hadd

/-- Each orphan the inner loop hands to `accept` leaves the pool with the hash it may index. -/
theorem unindexed_drainChildren :
    ∀ (bs : List Block) (work : List Hash) (s : ChainState), OrphansUnindexed s →
      OrphansUnindexed (drainChildren accept bs work s).2
  | [], _, _, hu => hu
  | b :: bs, _, s, hu => by
    unfold drainChildren
    refine unindexed_drainChildren bs _ _ (hu.step ⟨(hadd b s).fresh⟩ fun e he => ?_)
    have hkeep : (accept b s).2.mapOrphanBlocks = s.mapOrphanBlocks := congrArg Prod.fst (hacc b s).blocks
    obtain ⟨he, hk⟩ := List.mem_filter.1 he
    exact ⟨hkeep ▸ he, by simpa only [bne_iff_ne, ne_eq] using hk⟩

theorem unindexed_drainOrphans :
    ∀ (fuel : Nat) (work : List Hash) (s : ChainState), OrphansUnindexed s →
      OrphansUnindexed (drainOrphans accept fuel work s)
  | 0, _, _, hu => hu
  | _ + 1, [], _, hu => hu
  | fuel + 1, _ :: _, _, hu => by
    unfold drainOrphans
    exact unindexed_drainOrphans fuel _ _ ⟨(unindexed_drainChildren accept hacc hadd _ _ _ hu).unindexed⟩

/-- **The block handler never pools an indexed block, nor indexes a pooled one.** A block is
pooled only when its hash is in neither map, and a block `accept` takes is in no pool. -/
theorem unindexed_processNewBlockWith (p : Params) (env : Env) (b : Block) {s : ChainState}
    (hu : OrphansUnindexed s) : OrphansUnindexed (processNewBlockWith p env accept b s).2 := by
  generalize hr : processNewBlockWith p env accept b s = r
  unfold processNewBlockWith at hr
  rcases ite_eq_iff.1 hr with ⟨-, rfl⟩ | ⟨hnew, hr⟩; · exact hu
  obtain ⟨hidx, hpool⟩ := Bool.or_eq_false_iff.1 (Bool.eq_false_iff.2 hnew)
  iterate 2 (rcases ite_eq_iff.1 hr with ⟨-, rfl⟩ | ⟨-, hr⟩; · exact hu)
  -- the block is in no pool, so indexing it leaves every pooled hash unindexed
  have hout : ∀ e ∈ s.mapOrphanBlocks, e.1 ≠ b.hash := fun e he hk =>
    have hin : hasOrphan s b.hash = true := List.any_eq_true.2 ⟨e, he, beq_iff_eq.2 hk⟩
    Bool.false_ne_true (hpool ▸ hin)
  rcases ite_eq_iff.1 hr with ⟨-, hr⟩ | ⟨-, hr⟩
  · rcases ite_eq_iff.1 hr with ⟨-, rfl⟩ | ⟨-, rfl⟩; · exact hu
    -- pooling: the new entry's hash is not indexed
    refine ⟨fun e he => ?_⟩
    rcases List.mem_append.1 he with he | he
    · exact hu.unindexed e he
    · rw [List.mem_singleton.1 he]
      simpa only [Option.not_isSome, Option.isNone_iff_eq_none] using hidx
  have hstep : ∀ {ok s₁}, accept b s = (ok, s₁) → OrphansUnindexed s₁ := fun ha =>
    have hkeep : _ = s.mapOrphanBlocks := congrArg Prod.fst (KeepsOrphans.of_eq ha (hacc b s)).blocks
    hu.step (rel_of_eq ha (hadd b s)) fun e he => ⟨hkeep ▸ he, hout e (hkeep ▸ he)⟩
  split at hr
  · next ha => subst hr; exact hstep ha
  · next ha => subst hr; exact unindexed_drainOrphans accept hacc hadd _ _ _ (hstep ha)

end Drain

theorem unindexed_apply (p : Params) {s : ChainState} (hu : OrphansUnindexed s) :
    ∀ e : Event, OrphansUnindexed (e.apply p s)
  | .block env b =>
    unindexed_processNewBlockWith _ (keepsOrphans_AcceptBlock p env) (indexAdds_AcceptBlock p env) p env b hu
  | .tx env rand t => by
    have k := txWrites_ProcessTx p env rand t s
    show OrphansUnindexed (ProcessTx p env rand t s)
    rw [k.rest]
    exact ⟨hu.unindexed⟩

theorem orphansUnindexed_reachable {p : Params} {s : ChainState} (hr : Reachable p s) : OrphansUnindexed s := by
  induction hr with
  | genesis env g _ =>
    have hpool : (LoadBlockIndex p env g).2.mapOrphanBlocks = [] :=
      congrArg Prod.fst (keepsOrphans_AddToBlockIndex p env g 1 0 _).blocks
    exact ⟨fun e he => absurd (hpool ▸ he) (List.not_mem_nil e)⟩
  | step e _ ih => exact unindexed_apply p ih e

/-- **A block is never both indexed and pooled as an orphan**: in every reachable state no
hash of `mapOrphanBlocks` is in `mapBlockIndex`. -/
theorem reachable_orphan_unindexed {p : Params} {s : ChainState} (hr : Reachable p s) {h : Hash}
    (ho : hasOrphan s h = true) : s.mapBlockIndex h = none := by
  obtain ⟨e, he, hk⟩ := List.any_eq_true.1 ho
  rw [← beq_iff_eq.1 hk]
  exact (orphansUnindexed_reachable hr).unindexed e he

/-- Chain block 2 arrives before its parent and is pooled. -/
def earlyChildState : ChainState :=
  run testnet [.block (Env.quiet false 2000000000) (chainBlock 2)] genesisState

theorem reachable_orphan_unindexed_early_child :
    hasOrphan earlyChildState (chainBlock 2).hash = true ∧
      earlyChildState.mapBlockIndex (chainBlock 2).hash = none :=
  have ho : hasOrphan earlyChildState (chainBlock 2).hash = true := by decide
  ⟨ho, reachable_orphan_unindexed (genesisState_reachable.run _) ho⟩

end NeutronCore
