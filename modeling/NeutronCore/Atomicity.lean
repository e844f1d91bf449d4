/-
A failed `SetBestChain` changes nothing it governs.

Inside the database transaction `SetBestChain` opens, every write of `ConnectBlock`,
`DisconnectBlock` and the loops of `Reorganize` goes into the transaction
(`TxDb.Staged`), and none of them touches the tip globals, the `pnext` pointers or the
pool (`Frame`). Every failing exit then either aborts the transaction or fails to commit
it, and in-memory state moves only after a commit has succeeded. So whatever block a
failure happens at, the tip globals, every `pnext`, the pool and the committed database
are as they were (`Untouched`); what may differ is the node amounts `ConnectBlock` writes
through its pointer and the best invalid trust `InvalidChainFound` records.
-/
import NeutronCore.Runs

set_option autoImplicit false

namespace NeutronCore

/-! ## Writes inside an open transaction -/

namespace TxDb

/-- From `db` to `db'` only staged writes: while a transaction is open, the committed
contents stay and the transaction stays open. -/
def Staged (db db' : TxDb) : Prop := db.txn.isSome → db'.committed = db.committed ∧ db'.txn.isSome

theorem Staged.refl (db : TxDb) : Staged db db := fun h => ⟨rfl, h⟩

theorem Staged.trans {db db' db'' : TxDb} (h₁ : Staged db db') (h₂ : Staged db' db'') : Staged db db'' :=
  fun h => let ⟨c₁, t₁⟩ := h₁ h; let ⟨c₂, t₂⟩ := h₂ t₁; ⟨c₂.trans c₁, t₂⟩

/-- A staged step read off an equation for its result. -/
theorem Staged.of_eq {db db' : TxDb} {r : Bool × TxDb} {ok : Bool} (hr : r = (ok, db')) (h : Staged db r.2) :
    Staged db db' := by subst hr; exact h

variable {io : DbOp → Bool} {db : TxDb}

theorem staged_write (f : DbContents → DbContents) : Staged db (db.write f) := fun h => by
  simp [h]

theorem staged_tryWrite (op : DbOp) (f : DbContents → DbContents) : Staged db (db.tryWrite io op f).2 := by
  unfold tryWrite
  split
  · exact .refl db
  · exact staged_write f

theorem staged_UpdateTxIndex (h : Hash) (ti : TxIndex) : Staged db (db.UpdateTxIndex io h ti).2 :=
  staged_tryWrite _ _

theorem staged_EraseTxIndex (h : Hash) : Staged db (db.EraseTxIndex io h).2 :=
  staged_tryWrite _ _

theorem staged_WriteBlockIndex (r : DiskBlockIndex) : Staged db (db.WriteBlockIndex io r).2 :=
  staged_tryWrite _ _

theorem staged_WriteHashBestChain (h : Hash) : Staged db (db.WriteHashBestChain io h).2 :=
  staged_tryWrite _ _

/-- A refused `TxnBegin` leaves the database as it was. -/
theorem TxnBegin_false {db' : TxDb} (h : db.TxnBegin io = (false, db')) : db' = db := by
  unfold TxnBegin at h
  split at h <;> cases h; rfl

theorem TxnBegin_true {db' : TxDb} (h : db.TxnBegin io = (true, db')) :
    db' = { db with txn := some db.committed } := by
  unfold TxnBegin at h
  split at h <;> cases h; rfl

/-- A commit that fails leaves the committed contents. -/
theorem committed_of_TxnCommit_false {db' : TxDb} (h : db.TxnCommit io = (false, db')) :
    db'.committed = db.committed := by
  unfold TxnCommit at h
  split at h
  · cases h; rfl
  · split at h <;> cases h; rfl

@[simp] theorem TxnAbort_committed : db.TxnAbort.committed = db.committed := rfl

end TxDb

open TxDb

variable {io : DbOp → Bool}

theorem staged_flushQueued : ∀ (q : SortedMap TxIndex) (db : TxDb), Staged db (flushQueued io q db).2
  | [], db => .refl db
  | (h, ti) :: rest, db => by
    unfold flushQueued
    split
    · next hr => exact .of_eq hr (staged_UpdateTxIndex h ti)
    · next hr => exact (Staged.of_eq hr (staged_UpdateTxIndex h ti)).trans (staged_flushQueued rest _)

theorem staged_disconnectInputsLoop : ∀ (is : List TxIn) (db : TxDb),
    Staged db (disconnectInputsLoop io is db).2
  | [], db => .refl db
  | i :: is, db => by
    unfold disconnectInputsLoop
    split
    · exact .refl db
    · split
      · exact .refl db
      · split
        · next hr => exact .of_eq hr (staged_UpdateTxIndex _ _)
        · next hr =>
          exact (Staged.of_eq hr (staged_UpdateTxIndex _ _)).trans (staged_disconnectInputsLoop is _)

theorem staged_DisconnectInputs (tx : Transaction) (db : TxDb) : Staged db (DisconnectInputs io tx db).2 := by
  have hloop : ∀ r, r = (if tx.IsCoinBase then (true, db) else disconnectInputsLoop io tx.vin db) →
      Staged db r.2 := by
    rintro r rfl
    split
    · exact .refl db
    · exact staged_disconnectInputsLoop tx.vin db
  unfold DisconnectInputs
  split
  · next hr => exact hloop _ hr.symm
  · next hr => exact (hloop _ hr.symm).trans (staged_EraseTxIndex _)

theorem staged_disconnectTxs : ∀ (txs : List Transaction) (db : TxDb), Staged db (disconnectTxs io txs db).2
  | [], db => .refl db
  | tx :: txs, db => by
    unfold disconnectTxs
    split
    · next hr => exact .of_eq hr (staged_DisconnectInputs tx db)
    · next hr => exact (Staged.of_eq hr (staged_DisconnectInputs tx db)).trans (staged_disconnectTxs txs _)

/-! ## Steps that keep the tip, the pointers and the pool -/

/-- From `s` to `s'` the tip globals, the `pnext` pointers and the pool are kept, and the
database only took staged writes. -/
structure Frame (s s' : ChainState) : Prop where
  pindexBest : s'.pindexBest = s.pindexBest
  hashBestChain : s'.hashBestChain = s.hashBestChain
  nBestHeight : s'.nBestHeight = s.nBestHeight
  nBestChainTrust : s'.nBestChainTrust = s.nBestChainTrust
  pnext : s'.pnext = s.pnext
  mempool : s'.mempool = s.mempool
  staged : Staged s.txdb s'.txdb

theorem Frame.refl (s : ChainState) : Frame s s := ⟨rfl, rfl, rfl, rfl, rfl, rfl, .refl _⟩

theorem Frame.trans {s s' s'' : ChainState} (h₁ : Frame s s') (h₂ : Frame s' s'') : Frame s s'' :=
  ⟨h₂.1.trans h₁.1, h₂.2.trans h₁.2, h₂.3.trans h₁.3, h₂.4.trans h₁.4, h₂.5.trans h₁.5,
    h₂.6.trans h₁.6, h₁.7.trans h₂.7⟩

/-- A frame step read off an equation for its result. -/
theorem Frame.of_eq {α : Type} {s s' : ChainState} {r : α × ChainState} {a : α} (hr : r = (a, s'))
    (h : Frame s r.2) : Frame s s' := by subst hr; exact h

/-- The same for a loop that also returns a list. -/
theorem Frame.of_eq₃ {α β : Type} {s s' : ChainState} {r : α × β × ChainState} {a : α} {x : β}
    (hr : r = (a, x, s')) (h : Frame s r.2.2) : Frame s s' := by subst hr; exact h

/-- Writing the node amounts through `mapBlockIndex`, and a staged database. -/
theorem Frame.update (s : ChainState) (m : Hash → Option BlockIndex) {db : TxDb} (h : Staged s.txdb db) :
    Frame s { s with mapBlockIndex := m, txdb := db } := ⟨rfl, rfl, rfl, rfl, rfl, rfl, h⟩

/-- What `ConnectBlock` writes: the amounts of the node through `mapBlockIndex`, never a
node's link, and the database, by staged writes only; with `fJustCheck` the one write is
the node's record. Every other field of the state is as it was. -/
theorem ConnectBlock_updates (p : Params) (env : Env) (b : Block) (hIndex : Hash)
    (fJustCheck reorganize : Bool) (postponedBlocks : Int) (s : ChainState) :
    ∃ m db, (ConnectBlock p env b hIndex fJustCheck reorganize postponedBlocks s).2 =
        { s with mapBlockIndex := m, txdb := db } ∧
      (∀ h, (m h).map BlockIndex.link = (s.mapBlockIndex h).map BlockIndex.link) ∧
      Staged s.txdb db ∧
      (fJustCheck = true → db = s.txdb ∨ ∃ r, db = (s.txdb.WriteBlockIndex env.ioFail r).2) := by
  generalize hc : ConnectBlock p env b hIndex fJustCheck reorganize postponedBlocks s = r
  unfold ConnectBlock at hc
  split at hc; · subst hc; exact ⟨_, _, rfl, fun _ => rfl, .refl _, fun _ => .inl rfl⟩
  next pindex hp =>
  rcases ite_eq_iff.1 hc with ⟨-, rfl⟩ | ⟨-, hc⟩
  · exact ⟨_, _, rfl, fun _ => rfl, .refl _, fun _ => .inl rfl⟩
  split at hc; · subst hc; exact ⟨_, _, rfl, fun _ => rfl, .refl _, fun _ => .inl rfl⟩
  dsimp only at hc
  rcases ite_eq_iff.1 hc with ⟨-, rfl⟩ | ⟨-, hc⟩
  · exact ⟨_, _, rfl, links_update hp rfl, .refl _, fun _ => .inl rfl⟩
  -- from here on the node is written twice, its amounts only
  have hl : ∀ n₁ n₂ : BlockIndex, n₁.link = pindex.link → n₂.link = pindex.link → ∀ h,
      ((update (update s.mapBlockIndex hIndex (some n₁)) hIndex (some n₂)) h).map BlockIndex.link =
        (s.mapBlockIndex h).map BlockIndex.link := fun _ _ h₁ h₂ h =>
    (links_update (update_same ..) (h₂.trans h₁.symm) h).trans (links_update hp h₁ h)
  rcases ite_eq_iff.1 hc with ⟨-, rfl⟩ | ⟨-, hc⟩
  · exact ⟨_, _, rfl, hl _ _ rfl rfl, .refl _, fun _ => .inl rfl⟩
  split at hc
  · next hr =>
    subst hc
    exact ⟨_, _, rfl, hl _ _ rfl rfl, .of_eq hr (staged_WriteBlockIndex _),
      fun _ => .inr ⟨_, (congrArg Prod.snd hr).symm⟩⟩
  · next db hr =>
    have h₁ : Staged s.txdb db := .of_eq hr (staged_WriteBlockIndex _)
    rcases ite_eq_iff.1 hc with ⟨-, rfl⟩ | ⟨hj, hc⟩
    · exact ⟨_, _, rfl, hl _ _ rfl rfl, h₁, fun _ => .inr ⟨_, (congrArg Prod.snd hr).symm⟩⟩
    split at hc
    · next hf =>
      subst hc
      exact ⟨_, _, rfl, hl _ _ rfl rfl, h₁.trans (.of_eq hf (staged_flushQueued _ _)), (absurd · hj)⟩
    · next db' hf =>
      have h₂ : Staged s.txdb db' := h₁.trans (.of_eq hf (staged_flushQueued _ _))
      split at hc <;> subst hc
      · exact ⟨_, _, rfl, hl _ _ rfl rfl, h₂, (absurd · hj)⟩
      · exact ⟨_, _, rfl, hl _ _ rfl rfl, h₂.trans (staged_WriteBlockIndex _), (absurd · hj)⟩

theorem frame_ConnectBlock (p : Params) (env : Env) (b : Block) (hIndex : Hash)
    (fJustCheck reorganize : Bool) (postponedBlocks : Int) (s : ChainState) :
    Frame s (ConnectBlock p env b hIndex fJustCheck reorganize postponedBlocks s).2 := by
  obtain ⟨m, _, e, -, h, -⟩ := ConnectBlock_updates p env b hIndex fJustCheck reorganize postponedBlocks s
  rw [e]
  exact .update s m h

theorem frame_DisconnectBlock (env : Env) (b : Block) (hIndex : Hash) (s : ChainState) :
    Frame s (DisconnectBlock env b hIndex s).2 := by
  unfold DisconnectBlock
  split
  · next hr => exact .update s _ (.of_eq hr (staged_disconnectTxs _ _))
  · next db hr =>
    have h₁ : Staged s.txdb db := .of_eq hr (staged_disconnectTxs _ _)
    split
    · exact .update s _ h₁
    · exact .update s _ (h₁.trans (staged_WriteBlockIndex _))

theorem frame_disconnectBranch (env : Env) : ∀ (hs : List Hash) (acc : List Transaction) (s : ChainState),
    Frame s (disconnectBranch env hs acc s).2.2
  | [], _, s => .refl s
  | h :: hs, acc, s => by
    unfold disconnectBranch
    split
    · exact .refl s
    · split
      · next hr => exact .of_eq hr (frame_DisconnectBlock env _ h s)
      · next hr =>
        exact (Frame.of_eq hr (frame_DisconnectBlock env _ h s)).trans (frame_disconnectBranch env hs _ _)

theorem frame_connectBranch (p : Params) (env : Env) (postponedBlocks : Int) :
    ∀ (hs : List Hash) (acc : List Transaction) (s : ChainState),
      Frame s (connectBranch p env postponedBlocks hs acc s).2.2
  | [], _, s => .refl s
  | h :: hs, acc, s => by
    unfold connectBranch
    split
    · exact .refl s
    · split
      · next hr => exact .of_eq hr (frame_ConnectBlock p env _ h false true postponedBlocks s)
      · next hr =>
        exact (Frame.of_eq hr (frame_ConnectBlock p env _ h false true postponedBlocks s)).trans
          (frame_connectBranch p env postponedBlocks hs _ _)

/-! ## What a failed call leaves -/

/-- What `SetBestChain` governs is the same in `s` and `s'`: `pindexBest`,
`hashBestChain`, `nBestHeight`, `nBestChainTrust`, every node's `pnext`, the pool, and the
committed database contents (tx index, block-index records, best-chain hash). -/
structure Untouched (s s' : ChainState) : Prop where
  pindexBest : s'.pindexBest = s.pindexBest
  hashBestChain : s'.hashBestChain = s.hashBestChain
  nBestHeight : s'.nBestHeight = s.nBestHeight
  nBestChainTrust : s'.nBestChainTrust = s.nBestChainTrust
  pnext : s'.pnext = s.pnext
  mempool : s'.mempool = s.mempool
  committed : s'.txdb.committed = s.txdb.committed

theorem Untouched.refl (s : ChainState) : Untouched s s := ⟨rfl, rfl, rfl, rfl, rfl, rfl, rfl⟩

theorem Untouched.trans {s s' s'' : ChainState} (h₁ : Untouched s s') (h₂ : Untouched s' s'') :
    Untouched s s'' :=
  ⟨h₂.1.trans h₁.1, h₂.2.trans h₁.2, h₂.3.trans h₁.3, h₂.4.trans h₁.4, h₂.5.trans h₁.5,
    h₂.6.trans h₁.6, h₂.7.trans h₁.7⟩

/-- An untouched step read off an equation for its result. -/
theorem Untouched.of_eq {α : Type} {s s' : ChainState} {r : α × ChainState} {a : α} (hr : r = (a, s'))
    (h : Untouched s r.2) : Untouched s s' := by subst hr; exact h

/-- A frame step from a state with an open transaction touches nothing governed. -/
theorem Frame.untouched {s s' : ChainState} (h : Frame s s') (ht : s.txdb.txn.isSome) : Untouched s s' :=
  ⟨h.1, h.2, h.3, h.4, h.5, h.6, (h.7 ht).1⟩

/-- A new database whose committed contents are the old ones. -/
theorem Untouched.txdb (s : ChainState) {db : TxDb} (h : db.committed = s.txdb.committed) :
    Untouched s { s with txdb := db } := ⟨rfl, rfl, rfl, rfl, rfl, rfl, h⟩

theorem untouched_InvalidChainFound (h : Hash) (s : ChainState) : Untouched s (InvalidChainFound h s) := by
  unfold InvalidChainFound
  split
  · split
    · exact ⟨rfl, rfl, rfl, rfl, rfl, rfl, rfl⟩
    · exact .refl s
  · exact .refl s

@[simp] theorem InvalidChainFound_committed (h : Hash) (s : ChainState) :
    (InvalidChainFound h s).txdb.committed = s.txdb.committed :=
  (untouched_InvalidChainFound h s).committed

@[simp] theorem InvalidChainFound_txn (h : Hash) (s : ChainState) :
    (InvalidChainFound h s).txdb.txn = s.txdb.txn := by
  unfold InvalidChainFound
  split
  · split <;> rfl
  · rfl

/-- The failure exit of `SetBestChainInner` and of `SetBestChain`'s reorganization: abort,
then record the invalid chain. -/
theorem untouched_abort (h : Hash) (s : ChainState) :
    Untouched s (InvalidChainFound h { s with txdb := s.txdb.TxnAbort }) :=
  (@Untouched.txdb s s.txdb.TxnAbort rfl).trans (untouched_InvalidChainFound h _)

theorem Reorganize_false_untouched (p : Params) (env : Env) (hNew : Hash) (postponedBlocks : Int)
    (s : ChainState) (ht : s.txdb.txn.isSome) (hf : (Reorganize p env hNew postponedBlocks s).1 = false) :
    Untouched s (Reorganize p env hNew postponedBlocks s).2 := by
  revert hf
  unfold Reorganize
  split; · exact fun _ => .refl s
  dsimp only
  split; · exact fun _ => .refl s
  split
  · split
    · next hd => exact fun _ => (Frame.of_eq₃ hd (frame_disconnectBranch env _ _ s)).untouched ht
    · next s₁ hd =>
      have f₁ : Frame s s₁ := .of_eq₃ hd (frame_disconnectBranch env _ _ s)
      split
      · next hc =>
        exact fun _ => (f₁.trans (.of_eq₃ hc (frame_connectBranch p env _ _ _ _))).untouched ht
      · next s₂ hc =>
        have f₂ : Frame s s₂ := f₁.trans (.of_eq₃ hc (frame_connectBranch p env _ _ _ _))
        split
        · next hw =>
          exact fun _ => (f₂.trans (.update s₂ _ (.of_eq hw (staged_WriteHashBestChain _)))).untouched ht
        · next db hw =>
          have u : Untouched s { s₂ with txdb := db } :=
            (f₂.trans (.update s₂ _ (.of_eq hw (staged_WriteHashBestChain _)))).untouched ht
          split
          · next hcm => exact fun _ => u.trans (Untouched.txdb _ (committed_of_TxnCommit_false hcm))
          · exact nofun
  · exact fun _ => .refl s

theorem SetBestChainInner_false_untouched (p : Params) (env : Env) (b : Block) (hNew : Hash)
    (reorganize : Bool) (postponedBlocks : Int) (s : ChainState) (ht : s.txdb.txn.isSome)
    (hf : (SetBestChainInner p env b hNew reorganize postponedBlocks s).1 = false) :
    Untouched s (SetBestChainInner p env b hNew reorganize postponedBlocks s).2 := by
  revert hf
  unfold SetBestChainInner
  split
  · next s₁ hc =>
    have u : Untouched s s₁ := (Frame.of_eq hc (frame_ConnectBlock p env b hNew _ _ _ s)).untouched ht
    exact fun _ => u.trans (untouched_abort hNew s₁)
  · next s₁ hc =>
    have f₁ : Frame s s₁ := .of_eq hc (frame_ConnectBlock p env b hNew _ _ _ s)
    split
    · next db hw =>
      have u : Untouched s { s₁ with txdb := db } :=
        (f₁.trans (.update s₁ _ (.of_eq hw (staged_WriteHashBestChain _)))).untouched ht
      exact fun _ => u.trans (untouched_abort hNew _)
    · next db hw =>
      have u : Untouched s { s₁ with txdb := db } :=
        (f₁.trans (.update s₁ _ (.of_eq hw (staged_WriteHashBestChain _)))).untouched ht
      split
      · next hcm => exact fun _ => u.trans (Untouched.txdb _ (committed_of_TxnCommit_false hcm))
      · exact nofun

/-- **Atomicity of `SetBestChain`.** Whatever the state and the new node, a call that
returns `false` leaves `pindexBest`, `hashBestChain`, `nBestHeight`, `nBestChainTrust`,
every `pnext`, the pool and the committed database as they were. -/
theorem SetBestChain_atomic (p : Params) (env : Env) (b : Block) (hNew : Hash) (s : ChainState)
    (hf : (SetBestChain p env b hNew s).1 = false) : Untouched s (SetBestChain p env b hNew s).2 := by
  revert hf
  unfold SetBestChain
  split
  · next db hb => exact fun _ => Untouched.txdb s (by rw [TxnBegin_false hb])
  · next db hb =>
    have hdb : db.committed = s.txdb.committed ∧ db.txn.isSome := by
      rw [TxnBegin_true hb]
      exact ⟨rfl, rfl⟩
    have u₀ : Untouched s { s with txdb := db } := Untouched.txdb s hdb.1
    dsimp only
    split
    · split
      · next hcm =>
        have hw := @staged_WriteHashBestChain env.ioFail db b.hash hdb.2
        exact fun _ => u₀.trans (Untouched.txdb _ ((committed_of_TxnCommit_false hcm).trans hw.1))
      · exact nofun
    · split
      · split
        · next hi =>
          have u := SetBestChainInner_false_untouched p env b hNew false p.innerPostponedDefault
            { s with txdb := db } hdb.2
          exact fun _ => u₀.trans (Untouched.of_eq hi (u (by rw [hi])))
        · exact nofun
      · split
        · exact fun _ => u₀
        · split
          · next hr =>
            have u := Reorganize_false_untouched p env _ _ _ hdb.2 (by rw [hr])
            exact fun _ => u₀.trans ((Untouched.of_eq hr u).trans (untouched_abort hNew _))
          · exact nofun

/-- The tip of a side branch on the genesis block, two blocks long, whose second block
spends an output no transaction has. -/
def badBranchTip : Block :=
  powBlock testnet 42 41 (1000 + 79 * 2)
    [coinbase 142 (1000 + 79 * 2) 1, ⟨242, 1000 + 79 * 2, [⟨⟨999, 0⟩, []⟩], [⟨1, []⟩]⟩]

/-- Chain block 1 is the tip, and the side branch to `badBranchTip` is indexed: its first
block tied with the tip, and its second failed to take over. -/
def badBranchState : ChainState :=
  let env := Env.quiet true 2000000000
  run testnet
    [.block env (chainBlock 1), .block env (powBlock testnet 41 1 (1000 + 79) [coinbase 141 (1000 + 79) 1]),
      .block env badBranchTip]
    genesisState

/-- Making the side branch best again disconnects chain block 1 and connects the branch's
first block inside the transaction, fails at the second, and leaves everything governed as
it was. -/
theorem SetBestChain_atomic_bad_branch :
    (SetBestChain testnet (Env.quiet true 2000000000) badBranchTip 42 badBranchState).1 = false ∧
      Untouched badBranchState
        (SetBestChain testnet (Env.quiet true 2000000000) badBranchTip 42 badBranchState).2 :=
  have h : (SetBestChain testnet (Env.quiet true 2000000000) badBranchTip 42 badBranchState).1 = false := by
    decide
  ⟨h, SetBestChain_atomic _ _ _ _ _ h⟩

end NeutronCore
