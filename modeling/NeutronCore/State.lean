/-
The state the chain-state core works on: the transaction database `CTxDB` with its one
write transaction, the in-memory block index, the tip globals of `main.cpp`, the memory
pool and the orphan-block pool; and the environment one call runs in.

## The database

`CTxDB` (`txdb.h`, `db.h`, not under `src/`) is modelled from spec §4.2: a key-value
store with one in-flight write transaction. Reads see the transaction's writes; a commit
makes them the committed contents at once; an abort, or a commit that fails, discards
them. The best-invalid-trust record is written by `InvalidChainFound` through a second
handle (`CTxDB()`, `main.cpp:1066`), outside any transaction, so it is a field of its own.

Every disk operation can fail. Which ones fail is the environment's choice, `Env.ioFail`,
keyed by the operation and the hash it concerns, so that a failure can be placed at any
block of any fork.

## The block index

`mapBlockIndex` maps a block hash to its node; a node names its parent by hash, which is
what `pprev` points to. `pnext` is kept as a map of its own, since `SetBestChain` and
`Reorganize` are its only writers and what is proved of it (`SetBestChain_atomic`) is about
the whole map.
-/
import NeutronCore.Compact

set_option autoImplicit false

namespace NeutronCore

/-! ## Disk positions and the transaction index -/

/-- `CDiskTxPos`: a block file, the block's offset in it, and the transaction's offset. -/
structure DiskTxPos where
  nFile : Nat
  nBlockPos : Nat
  nTxPos : Nat
deriving DecidableEq, Repr

namespace DiskTxPos

/-- Modelled from the spec: `CDiskTxPos::SetNull` is in `main.h`, which is not under `src/`.
Spec §3 reads a null spent slot as an unspent output and names no null value; this takes
the file `(unsigned int)-1` and both offsets zero, the value `DisconnectInputs` writes back
(`main.cpp:1114`). -/
def null : DiskTxPos := ⟨nullIndex, 0, 0⟩

/-- Modelled from the spec: `CDiskTxPos::IsNull` is in `main.h`, which is not under `src/`.
It tests the file alone, `(unsigned int)-1`, not the offsets: a slot that `SetNull` did not
write can still read as null, which `reconnect_rewrites_null_slot` turns on. -/
def IsNull (p : DiskTxPos) : Bool := p.nFile == nullIndex

/-- `CDiskTxPos(1,1,1)`, which `FetchInputs` reads as "in the memory pool"
(`main.cpp:1175`, spec §3). -/
def memPool : DiskTxPos := ⟨1, 1, 1⟩

end DiskTxPos

/-- `CTxIndex`: where a transaction is on disk, and per output the position of the
transaction spending it (null while unspent). -/
structure TxIndex where
  pos : DiskTxPos
  vSpent : List DiskTxPos
deriving DecidableEq, Repr

/-- `CTxIndex(pos, nOutputs)`: every output unspent. -/
def TxIndex.fresh (pos : DiskTxPos) (nOutputs : Nat) : TxIndex :=
  ⟨pos, List.replicate nOutputs DiskTxPos.null⟩

/-! ## Block index nodes -/

/-- `CBlockIndex`, the fields the core reads. `pprev` is the parent's hash. -/
structure BlockIndex where
  hash : Hash
  pprev : Option Hash
  nHeight : Int
  nFile : Nat
  nBlockPos : Nat
  nChainTrust : Nat
  nBits : Nat
  nTime : Nat
  fProofOfStake : Bool
  prevoutStake : OutPoint
  nStakeTime : Nat
  nMint : Int := 0
  nMoneySupply : Int := 0
deriving DecidableEq, Repr

/-- Where a node sits in the block tree: its hash, its parent and its height. -/
structure TreeLink where
  hash : Hash
  pprev : Option Hash
  nHeight : Int
deriving DecidableEq, Repr

/-- A node's link. Connecting a block rewrites the node's amounts, never its link. -/
def BlockIndex.link (n : BlockIndex) : TreeLink := ⟨n.hash, n.pprev, n.nHeight⟩

/-- `CDiskBlockIndex`: a node as written to the database, with its `hashNext`. -/
structure DiskBlockIndex where
  node : BlockIndex
  hashNext : Hash
deriving DecidableEq, Repr

/-! ## The database -/

/-- The records of the key-value store (spec §6, "Persisted state layout"). -/
structure DbContents where
  txIndex : Hash → Option TxIndex
  blockIndex : Hash → Option DiskBlockIndex
  hashBestChain : Hash

/-- The disk operations whose failure the environment decides. -/
inductive DbOp where
  | txnBegin
  | txnCommit
  | readTxIndex (h : Hash)
  | updateTxIndex (h : Hash)
  | eraseTxIndex (h : Hash)
  | writeBlockIndex (h : Hash)
  | writeHashBestChain (h : Hash)
  | readBlock (h : Hash)
deriving DecidableEq, Repr

/-- Modelled from the spec: `CTxDB` (`txdb.h`, `db.h`) is not under `src/`. Spec §4.2: a
committed store and at most one open write transaction. -/
structure TxDb where
  committed : DbContents
  txn : Option DbContents
  bnBestInvalidTrust : Nat

/-- A key-value map updated at one key. -/
def update {α β : Type} [DecidableEq α] (f : α → β) (k : α) (v : β) : α → β :=
  fun x => if x = k then v else f x

@[simp] theorem update_same {α β : Type} [DecidableEq α] (f : α → β) (k : α) (v : β) :
    update f k v k = v := by simp [update]

theorem update_ne {α β : Type} [DecidableEq α] (f : α → β) {k x : α} (v : β) (h : x ≠ k) :
    update f k v x = f x := by simp [update, h]

/-- Rewriting an indexed node with one of the same link keeps the link under every hash. -/
theorem links_update {m : Hash → Option BlockIndex} {k : Hash} {n n' : BlockIndex}
    (hk : m k = some n) (hl : n'.link = n.link) (h : Hash) :
    ((update m k (some n')) h).map BlockIndex.link = (m h).map BlockIndex.link := by
  by_cases hh : h = k
  · rw [hh, update_same, hk, Option.map_some', Option.map_some', hl]
  · rw [update_ne _ _ hh]

/-- `std::map<uint256, V>`: entries sorted by key, one per key. -/
abbrev SortedMap (V : Type) := List (Hash × V)

/-- `m[k] = v` on a `std::map`. -/
def SortedMap.insert {V : Type} : SortedMap V → Hash → V → SortedMap V
  | [], k, v => [(k, v)]
  | (k', v') :: rest, k, v =>
    if k < k' then (k, v) :: (k', v') :: rest
    else if k = k' then (k, v) :: rest
    else (k', v') :: SortedMap.insert rest k v

/-- `m.find(k)` on a `std::map`. -/
def SortedMap.find? {V : Type} (m : SortedMap V) (k : Hash) : Option V := m.lookup k

/-- `m.erase(k)` on a `std::map`. -/
def SortedMap.erase {V : Type} (m : SortedMap V) (k : Hash) : SortedMap V := m.filter (·.1 != k)

/-- `m[k]` read on a `std::map` whose `operator[]` inserts `d` at a missing key: the value,
and the map after the read. -/
def SortedMap.getInsert {V : Type} (m : SortedMap V) (k : Hash) (d : V) : V × SortedMap V :=
  match m.find? k with
  | some v => (v, m)
  | none => (d, m.insert k d)

/-- `f(m[k])` on a `std::map` whose `operator[]` inserts `d` at a missing key. -/
def SortedMap.modifyD {V : Type} (m : SortedMap V) (k : Hash) (d : V) (f : V → V) : SortedMap V :=
  m.insert k (f ((m.find? k).getD d))

namespace SortedMap

variable {V : Type}

/-! What a lookup sees after each write. None of these needs the keys sorted: `insert`
replaces the first entry of its key or adds one before it, and `find?` reads the first. -/

theorem find?_cons (m : SortedMap V) (k k' : Hash) (v : V) :
    SortedMap.find? ((k', v) :: m) k = if k = k' then some v else m.find? k := by
  simp only [find?, List.lookup_cons, beq_iff_eq]
  split <;> simp_all

@[simp] theorem find?_insert (m : SortedMap V) (k k' : Hash) (v : V) :
    (m.insert k v).find? k' = if k' = k then some v else m.find? k' := by
  induction m with
  | nil => simp only [insert, find?_cons]
  | cons e m ih =>
    obtain ⟨k'', v''⟩ := e
    simp only [insert]
    split
    · simp only [find?_cons]
    · split
      · subst_vars; simp only [find?_cons]; split <;> simp
      · simp only [find?_cons, ih]
        split <;> split <;> simp_all

@[simp] theorem find?_erase (m : SortedMap V) (k k' : Hash) :
    (m.erase k).find? k' = if k' = k then none else m.find? k' := by
  induction m with
  | nil => simp [erase, find?]
  | cons e m ih =>
    obtain ⟨k'', v''⟩ := e
    simp only [erase, List.filter_cons] at ih ⊢
    split <;> simp only [find?_cons, ih] <;> split <;> simp_all

@[simp] theorem find?_modifyD (m : SortedMap V) (k k' : Hash) (d : V) (f : V → V) :
    (m.modifyD k d f).find? k' = if k' = k then some (f ((m.find? k).getD d)) else m.find? k' := by
  simp [modifyD]

theorem find?_getInsert (m : SortedMap V) (k : Hash) (d : V) (k' : Hash) :
    (m.getInsert k d).2.find? k' = if k' = k then some (m.getInsert k d).1 else m.find? k' := by
  unfold getInsert
  split
  · next v hv => split <;> simp_all
  · simp

theorem find?_of_not_mem {m : SortedMap V} {k : Hash} (h : k ∉ m.map Prod.fst) : m.find? k = none := by
  induction m with
  | nil => rfl
  | cons e m ih =>
    rw [find?_cons, if_neg (fun he => h (by simp [he])), ih (fun hk => h (List.mem_cons_of_mem _ hk))]

/-- An entry after `insert` is the inserted key's or was there before. -/
theorem mem_insert {m : SortedMap V} {k : Hash} {v : V} {e : Hash × V} (h : e ∈ m.insert k v) :
    e.1 = k ∨ e ∈ m := by
  induction m with
  | nil =>
    rw [insert, List.mem_singleton] at h
    exact .inl (h ▸ rfl)
  | cons e' m ih =>
    unfold insert at h
    split at h
    · rcases List.mem_cons.1 h with rfl | h
      exacts [.inl rfl, .inr h]
    · split at h
      · rcases List.mem_cons.1 h with rfl | h
        exacts [.inl rfl, .inr (.tail _ h)]
      · rcases List.mem_cons.1 h with rfl | h
        · exact .inr (.head _)
        · rcases ih h with h | h
          exacts [.inl h, .inr (.tail _ h)]

end SortedMap

/-- The keys of a `std::map` in increasing order, as the map keeps them. -/
def SortedKeys {V : Type} (m : SortedMap V) : Prop := m.Pairwise fun a b => a.1 < b.1

namespace SortedKeys

variable {V : Type} {m : SortedMap V}

theorem insert (hs : SortedKeys m) (k : Hash) (v : V) : SortedKeys (m.insert k v) := by
  induction m with
  | nil => exact List.pairwise_singleton _ _
  | cons e m ih =>
    obtain ⟨he, hm⟩ := List.pairwise_cons.1 hs
    unfold SortedMap.insert
    split
    · next hlt => exact List.pairwise_cons.2 ⟨fun b hb => by
        rcases List.mem_cons.1 hb with rfl | hb
        · exact hlt
        · exact lt_trans hlt (he b hb), hs⟩
    · split
      · next heq => exact List.pairwise_cons.2 ⟨fun b hb => heq ▸ he b hb, hm⟩
      · rename_i hlt hne
        exact List.pairwise_cons.2 ⟨fun b hb => by
          rcases SortedMap.mem_insert hb with h | h
          · exact h ▸ lt_of_le_of_ne (not_lt.1 hlt) (Ne.symm hne)
          · exact he b h, ih hm⟩

theorem nodup (hs : SortedKeys m) : (m.map Prod.fst).Nodup :=
  List.pairwise_map.2 (hs.imp ne_of_lt)

end SortedKeys

namespace TxDb

variable (io : DbOp → Bool) (db : TxDb)

/-- What a read sees: the open transaction's contents, or the committed ones. -/
def view : DbContents := db.txn.getD db.committed

/-- A write goes into the open transaction, or straight to the store without one. -/
def write (f : DbContents → DbContents) : TxDb :=
  match db.txn with
  | some c => { db with txn := some (f c) }
  | none => { db with committed := f db.committed }

/-- A write that fails leaves the database as it was. -/
def tryWrite (op : DbOp) (f : DbContents → DbContents) : Bool × TxDb :=
  if io op then (false, db) else (true, db.write f)

/-- `CDB::TxnBegin`: fails when a transaction is already open. -/
def TxnBegin : Bool × TxDb :=
  if io .txnBegin || db.txn.isSome then (false, db) else (true, { db with txn := some db.committed })

/-- `CDB::TxnCommit`: the transaction ends whatever the outcome; only a successful commit
changes the committed contents. -/
def TxnCommit : Bool × TxDb :=
  match db.txn with
  | none => (false, db)
  | some c => if io .txnCommit then (false, { db with txn := none })
      else (true, { db with committed := c, txn := none })

/-- `CDB::TxnAbort`. -/
def TxnAbort : TxDb := { db with txn := none }

/-- `CTxDB::ReadTxIndex`. -/
def ReadTxIndex (h : Hash) : Option TxIndex :=
  if io (.readTxIndex h) then none else db.view.txIndex h

/-- `CTxDB::UpdateTxIndex`. -/
def UpdateTxIndex (h : Hash) (ti : TxIndex) : Bool × TxDb :=
  db.tryWrite io (.updateTxIndex h) fun c => { c with txIndex := update c.txIndex h (some ti) }

/-- `CTxDB::EraseTxIndex`. -/
def EraseTxIndex (h : Hash) : Bool × TxDb :=
  db.tryWrite io (.eraseTxIndex h) fun c => { c with txIndex := update c.txIndex h none }

/-- `CTxDB::WriteBlockIndex`. -/
def WriteBlockIndex (r : DiskBlockIndex) : Bool × TxDb :=
  db.tryWrite io (.writeBlockIndex r.node.hash) fun c =>
    { c with blockIndex := update c.blockIndex r.node.hash (some r) }

/-- `CTxDB::WriteHashBestChain`. -/
def WriteHashBestChain (h : Hash) : Bool × TxDb :=
  db.tryWrite io (.writeHashBestChain h) fun c => { c with hashBestChain := h }

end TxDb

/-! ## What a failed write, an abort and a failed commit leave committed -/

namespace TxDb

variable {io : DbOp → Bool} {db : TxDb}

@[simp] theorem write_committed_of_txn {f : DbContents → DbContents} (h : db.txn.isSome) :
    (db.write f).committed = db.committed := by
  unfold write; split <;> simp_all

@[simp] theorem write_txn_isSome {f : DbContents → DbContents} :
    (db.write f).txn.isSome = db.txn.isSome := by
  unfold write; split <;> simp_all

@[simp] theorem write_bnBestInvalidTrust {f : DbContents → DbContents} :
    (db.write f).bnBestInvalidTrust = db.bnBestInvalidTrust := by
  unfold write; split <;> rfl

end TxDb

/-! ## What a read sees after a write -/

namespace TxDb

variable {io : DbOp → Bool} {db : TxDb}

theorem view_write (f : DbContents → DbContents) : (db.write f).view = f db.view := by
  unfold write view; split <;> simp_all

theorem view_WriteBlockIndex (r : DiskBlockIndex) : (db.WriteBlockIndex io r).2.view.txIndex = db.view.txIndex := by
  unfold WriteBlockIndex tryWrite
  split
  · rfl
  · rw [view_write]

section NoFailure

variable (hio : ∀ op, io op = false)
include hio

/-! Without I/O failures every read sees the view and every write goes through. -/

theorem ReadTxIndex_of_ok (h : Hash) : db.ReadTxIndex io h = db.view.txIndex h := by
  rw [ReadTxIndex, hio, if_neg Bool.false_ne_true]

theorem tryWrite_of_ok (op : DbOp) (f : DbContents → DbContents) : db.tryWrite io op f = (true, db.write f) := by
  rw [tryWrite, hio, if_neg Bool.false_ne_true]

end NoFailure

end TxDb

/-! ## The node's state and the environment of a call -/

/-- The globals of `main.cpp` the chain-state core reads and writes. -/
structure ChainState where
  /-- `mapBlockIndex`. -/
  mapBlockIndex : Hash → Option BlockIndex
  /-- `CBlockIndex::pnext`, per node. -/
  pnext : Hash → Option Hash
  pindexGenesisBlock : Option Hash
  pindexBest : Option Hash
  hashBestChain : Hash
  nBestHeight : Int
  nBestChainTrust : Nat
  nBestInvalidTrust : Nat
  txdb : TxDb
  /-- The block files, by `(nFile, nBlockPos)`. -/
  blockFile : Nat × Nat → Option Block
  /-- Where `WriteToDisk` puts the next block. -/
  nNextBlockPos : Nat
  /-- `mempool`, its transactions in arrival order. -/
  mempool : List Transaction
  setStakeSeen : List (OutPoint × Nat)
  /-- `mapOrphanBlocks`: hash to block. -/
  mapOrphanBlocks : List (Hash × Block)
  /-- `mapOrphanBlocksByPrev`, a multimap from `hashPrevBlock`; entries of one key keep
  their insertion order. -/
  mapOrphanBlocksByPrev : List (Hash × Block)
  setStakeSeenOrphan : List (OutPoint × Nat)
  /-- `mapOrphanTransactions`, in key order. -/
  mapOrphanTransactions : SortedMap Transaction
  /-- `mapOrphanTransactionsByPrev`: for a previous transaction's hash, the set of the
  orphans that spend one of its outputs, each set in key order. -/
  mapOrphanTransactionsByPrev : SortedMap (List Hash)

/-- What one call can observe of the world outside the chain-state core: the clock,
initial block download, the disk's failures, and the answers of the modules that are out
of scope (spec §1): signatures, the stake kernel, checkpoints, the masternode list. -/
structure Env where
  /-- `IsInitialBlockDownload()`. -/
  ibd : Bool
  /-- `GetAdjustedTime()`. -/
  adjustedTime : Int
  /-- Which disk operations fail. -/
  ioFail : DbOp → Bool
  /-- `Checkpoints::GetTotalBlocksEstimate()`. -/
  totalBlocksEstimate : Int
  /-- `CTransaction::IsStandard()` (`main.cpp:285`), whose script tests are in
  `script.cpp`, not under `src/`. -/
  isStandard : Transaction → Bool
  /-- `::GetSerializeSize(tx, SER_NETWORK, PROTOCOL_VERSION)`. -/
  txSize : Transaction → Nat
  /-- The free-transaction rate limiter of `AcceptableInputs` (`main.cpp:592`), whose state
  is a static counter and the clock: `false` when it rejects. -/
  freeRelayOk : Transaction → Bool
  /-- `VerifySignature(txPrev, tx, nIn, 0)`. -/
  verifySignature : Transaction → Transaction → Nat → Bool
  /-- `::GetSerializeSize(tx) ≤ MAX_BLOCK_SIZE`, the size test of `CheckTransaction`. -/
  txSizeOk : Transaction → Bool
  /-- The size tests of `CheckBlock`. -/
  blockSizeOk : Block → Bool
  /-- The legacy sigop count of a block is within `MAX_BLOCK_SIGOPS`, and with the
  pay-to-script-hash sigops as well (`CheckBlock`, `CalculateBlockAmounts`). -/
  sigOpsOk : Block → Bool
  /-- `hashMerkleRoot == BuildMerkleTree()`. -/
  merkleRootOk : Block → Bool
  /-- `CheckBlockSignature()`. -/
  blockSignatureOk : Block → Bool
  /-- `CheckProofOfStake(pindexPrev, tx, nBits, hashProof, target)`: the proof hash, or
  `none` when the kernel check fails. -/
  checkProofOfStake : Hash → Transaction → Nat → Option Hash
  /-- The checks of `AcceptBlock` that read other modules: block version, coinstake
  timestamp, finality, hardened and synchronized checkpoints, the coinbase height prefix,
  disk space and the block file write. -/
  acceptChecksOk : Block → Int → Bool
  /-- `ComputeNextStakeModifier` (`kernel.cpp`) succeeds for the new node. -/
  stakeModifierOk : Block → Bool
  /-- `Checkpoints::GetLastSyncCheckpoint()`. -/
  lastSyncCheckpoint : Option Hash
  /-- `Checkpoints::WantedByPendingSyncCheckpoint(hash)`. -/
  wantedBySyncCheckpoint : Hash → Bool
  /-- The masternode-payee checks of `ConnectBlock` (`main.cpp:1706`–`1782`) for a block,
  its height and `postponedBlocks`: `false` when they reject the block. -/
  masternodePayeeOk : Block → Int → Int → Bool
  /-- The masternode checks that open the `dstx` handler (`main.cpp:3905`): `false` when
  they end it. -/
  masternodeTxOk : Transaction → Bool

end NeutronCore
