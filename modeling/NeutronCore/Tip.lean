/-
The tip after a reorganization with postponed reconnects.

`SetBestChain` reconnects the blocks above `pindexIntermediate` one by one through
`SetBestChainInner(txdb, pindex, true, postponedBlocks)`, which hands `true` to
`ConnectBlock` as `fJustCheck`. `ConnectBlock` then writes the node's own record and
returns before it flushes the staged tx-index entries, so every postponed reconnect leaves
the committed tx index as it found it (`postponedLoop_txIndex`): the blocks become main
chain without their transactions indexed (`postponed_block_unindexed`).

When one of those reconnects fails, `SetBestChain` moves `pindexBest` to the failing
block's parent, but whatever happens it sets `hashBestChain` to the hash of the block it
was called for (`main.cpp:2098`), and the committed best-chain hash is that of
the last block committed. A failed reconnect leaves the three apart
(`tip_disagrees_after_failed_reconnect`).

Both runs are on `testnet`: a block is indexed outside initial download, where connecting
the first block after genesis fails (its parent's money supply is zero,
`main.cpp:1610`), and its child arrives during initial download.
-/
import NeutronCore.Conflicts

set_option autoImplicit false

namespace NeutronCore

/-! ## Writes that leave the tx index -/

namespace TxDb

/-- From `db` to `db'` the tx index is the same, as readers see it and as committed, and a
transaction is open in both or in neither. -/
structure KeepsTxIndex (db db' : TxDb) : Prop where
  view : db'.view.txIndex = db.view.txIndex
  committed : db'.committed.txIndex = db.committed.txIndex
  txn : db'.txn.isSome = db.txn.isSome

theorem KeepsTxIndex.refl (db : TxDb) : KeepsTxIndex db db := ⟨rfl, rfl, rfl⟩

theorem KeepsTxIndex.trans {db db' db'' : TxDb} (h₁ : KeepsTxIndex db db') (h₂ : KeepsTxIndex db' db'') :
    KeepsTxIndex db db'' := ⟨h₂.1.trans h₁.1, h₂.2.trans h₁.2, h₂.3.trans h₁.3⟩

theorem KeepsTxIndex.of_eq {db db' : TxDb} {r : Bool × TxDb} {ok : Bool} (hr : r = (ok, db'))
    (h : KeepsTxIndex db r.2) : KeepsTxIndex db db' := by subst hr; exact h

variable {io : DbOp → Bool} {db : TxDb}

theorem keepsTxIndex_tryWrite (op : DbOp) {f : DbContents → DbContents}
    (hf : ∀ c, (f c).txIndex = c.txIndex) :
    KeepsTxIndex db (db.tryWrite io op f).2 := by
  unfold tryWrite
  split
  · exact .refl db
  · constructor <;> cases h : db.txn <;> simp [write, view, h, hf]

theorem keepsTxIndex_WriteBlockIndex (r : DiskBlockIndex) : KeepsTxIndex db (db.WriteBlockIndex io r).2 :=
  keepsTxIndex_tryWrite _ fun _ => rfl

theorem keepsTxIndex_WriteHashBestChain (h : Hash) : KeepsTxIndex db (db.WriteHashBestChain io h).2 :=
  keepsTxIndex_tryWrite _ fun _ => rfl

/-- A commit, whatever its outcome, ends the transaction; a successful one commits what
readers saw. -/
theorem TxnCommit_spec {ok : Bool} {db' : TxDb} (h : db.TxnCommit io = (ok, db')) :
    db'.txn = none ∧ (ok = true → db'.committed = db.view) := by
  unfold TxnCommit at h
  split at h
  · cases h; simp_all
  · rename_i c hc
    split at h <;> cases h <;> simp [view, hc]

end TxDb

open TxDb

/-- `ConnectBlock` with `fJustCheck` writes the node's record and nothing of the tx index. -/
theorem keepsTxIndex_ConnectBlock_justCheck (p : Params) (env : Env) (b : Block) (hIndex : Hash)
    (reorganize : Bool) (postponedBlocks : Int) (s : ChainState) :
    KeepsTxIndex s.txdb (ConnectBlock p env b hIndex true reorganize postponedBlocks s).2.txdb := by
  obtain ⟨_, _, e, -, -, hj⟩ := ConnectBlock_updates p env b hIndex true reorganize postponedBlocks s
  rw [e]
  rcases hj rfl with rfl | ⟨r, rfl⟩
  exacts [.refl _, keepsTxIndex_WriteBlockIndex r]

/-- **A postponed reconnect indexes nothing.** From a freshly begun transaction,
`SetBestChainInner(txdb, pindex, true, postponedBlocks)` leaves the committed tx index as it
was and the transaction closed, whatever its outcome. -/
theorem SetBestChainInner_postponed_txIndex (p : Params) (env : Env) (b : Block) (hNew : Hash)
    (postponedBlocks : Int) (s : ChainState) (ht : s.txdb.txn = some s.txdb.committed) :
    (SetBestChainInner p env b hNew true postponedBlocks s).2.txdb.committed.txIndex =
        s.txdb.committed.txIndex ∧
      (SetBestChainInner p env b hNew true postponedBlocks s).2.txdb.txn = none := by
  have hview : s.txdb.view = s.txdb.committed := by simp [view, ht]
  have k :=
    keepsTxIndex_ConnectBlock_justCheck p env b hNew (postponedBlocks ≠ 0) p.connectPostponedDefault s
  unfold SetBestChainInner
  split
  · next s₁ hc =>
    rw [hc] at k
    exact ⟨by simpa using k.committed, by simp [TxnAbort]⟩
  · next s₁ hc =>
    rw [hc] at k
    split
    · next db hw =>
      have k₂ : KeepsTxIndex s.txdb db := k.trans (.of_eq hw (keepsTxIndex_WriteHashBestChain _))
      exact ⟨by simpa using k₂.committed, by simp [TxnAbort]⟩
    · next db hw =>
      have k₂ : KeepsTxIndex s.txdb db := k.trans (.of_eq hw (keepsTxIndex_WriteHashBestChain _))
      split
      · next db' hcm =>
        exact ⟨(congrArg DbContents.txIndex (committed_of_TxnCommit_false hcm)).trans k₂.committed,
          (TxnCommit_spec hcm).1⟩
      · next db' hcm =>
        obtain ⟨hn, hc'⟩ := TxnCommit_spec hcm
        exact ⟨by rw [hc' rfl, k₂.view, hview], hn⟩

/-- **The postponed reconnects index nothing.** Started with no transaction open, as
`Reorganize` leaves it, the loop of postponed reconnects leaves the committed tx index as it
was, however many blocks it reconnects and wherever it stops. -/
theorem postponedLoop_txIndex (p : Params) (env : Env) (postponedBlocks : Int) :
    ∀ (hs : List Hash) (hNew : Hash) (s : ChainState), s.txdb.txn = none →
      (postponedLoop p env postponedBlocks hs hNew s).2.txdb.committed.txIndex = s.txdb.committed.txIndex
  | [], _, _, _ => rfl
  | h :: hs, hNew, s, ht => by
    unfold postponedLoop
    split
    · rfl
    · split
      · next db hb => rw [TxnBegin_false hb]
      · next db hb =>
        have hfresh : ({ s with txdb := db } : ChainState).txdb.txn =
            some ({ s with txdb := db } : ChainState).txdb.committed := by
          rw [TxnBegin_true hb]
        obtain ⟨hi, hn⟩ := SetBestChainInner_postponed_txIndex p env _ h postponedBlocks _ hfresh
        have hdb : db.committed.txIndex = s.txdb.committed.txIndex := by rw [TxnBegin_true hb]
        split
        · next s' heq => rw [heq] at hi; exact hi.trans hdb
        · next s' heq =>
          rw [heq] at hi hn
          exact (postponedLoop_txIndex p env postponedBlocks hs hNew s' hn).trans (hi.trans hdb)

/-! ## The runs -/

/-- Chain block 1 arrives outside initial download: it is indexed, and connecting it
fails. Chain block 2 arrives during initial download: its parent now outweighs the tip, so
`SetBestChain` reorganizes to block 1 and reconnects block 2 as a postponed block. -/
def postponedState : ChainState :=
  run testnet
    [.block (Env.quiet false 2000000000) (chainBlock 1), .block (Env.quiet true 2000000000) (chainBlock 2)]
    genesisState

/-- **A reachable main-chain block without index entries.** After the run above the main
chain is the genesis block, block 1 and block 2, its transactions have distinct hashes, and
the committed tx index has the coinbase of block 1 but not that of block 2. -/
theorem postponed_block_unindexed :
    Reachable testnet postponedState ∧ mainChain postponedState = [1, 11, 12] ∧
      (mainChainTxs postponedState).map Transaction.hash = [100, 101, 102] ∧
      (postponedState.txdb.committed.txIndex 101).isSome ∧
      postponedState.txdb.committed.txIndex 102 = none :=
  ⟨genesisState_reachable.run _, by decide, by decide, by decide, by decide⟩

/-- As `postponedState`, but block 2 spends an output no transaction has, so its postponed
reconnect fails. -/
def failedReconnectState : ChainState :=
  run testnet [.block (Env.quiet false 2000000000) (chainBlock 1),
    .block (Env.quiet true 2000000000) (powBlock testnet 12 11 (1000 + 79 * 2)
      [coinbase 102 (1000 + 79 * 2) 1000000,
        ⟨202, 1000 + 79 * 2, [⟨⟨999, 0⟩, []⟩], [⟨1, []⟩]⟩])]
    genesisState

/-- **A reachable disagreeing tip.** After the run above `pindexBest` is block 1, whose
reorganization was committed, while `hashBestChain` is the hash of block 2. -/
theorem tip_disagrees_after_failed_reconnect :
    Reachable testnet failedReconnectState ∧ failedReconnectState.pindexBest = some 11 ∧
      failedReconnectState.hashBestChain = 12 ∧ failedReconnectState.txdb.committed.hashBestChain = 11 :=
  ⟨genesisState_reachable.run _, by decide, by decide, by decide⟩

end NeutronCore
