/-
Disconnecting a block after connecting it: `ConnectBlock` (`main.cpp:1584`) against
`DisconnectBlock` (`main.cpp:1449`) on the tx index.

A plain connect stages its changes in `mapQueuedChanges` and writes them after every
check: each transaction marks the slots its inputs spend with its own position and is
filed under its hash. A disconnect walks the block backwards: each transaction nulls the
slots its inputs spend, reading every entry from the database, and erases its own entry.
The two meet on views of the tx index (`flushView`: the staged entries over the
database): connecting one transaction sets the spent slots (`Respent`), all of which read
as null (`Free`), disconnecting it sets the same slots to the canonical null, and the
transactions of a block cancel from the last one back (`amountsLoop_undo`).

What comes back is the view before with each spent slot set to `DiskTxPos.null`. A slot
counts as unspent when its file number is `nullIndex` (`DiskTxPos.IsNull`), whatever its
other fields. So the round trip is exact on a view whose null slots are all the canonical
one (`reconnect_restores_tx_index`), and a slot that reads as null with other fields comes
back rewritten (`reconnect_rewrites_null_slot`). `ConnectBlock` with `fJustCheck` is no
dry run either: it writes the node's block-index record before it returns
(`justCheck_writes_block_index`).
-/
import NeutronCore.Validity

set_option autoImplicit false

namespace NeutronCore

/-! ## Views of the tx index -/

/-- What a reader sees once staged entries are written over the records `V`. -/
def flushView (q : SortedMap TxIndex) (V : Hash → Option TxIndex) (h : Hash) : Option TxIndex :=
  (q.find? h).or (V h)

theorem flushView_nil (V : Hash → Option TxIndex) : flushView [] V = V := rfl

theorem flushView_insert (q : SortedMap TxIndex) (V : Hash → Option TxIndex) (k : Hash) (ti : TxIndex) :
    flushView (q.insert k ti) V = update (flushView q V) k (some ti) := by
  funext h
  simp only [flushView, SortedMap.find?_insert, update]
  split <;> rfl

/-- Writing the staged entries one by one leaves the view `flushView` describes. -/
theorem flushQueued_view {io : DbOp → Bool} :
    ∀ {q : SortedMap TxIndex} {db db' : TxDb}, (q.map Prod.fst).Nodup → flushQueued io q db = (true, db') →
      db'.view.txIndex = flushView q db.view.txIndex
  | [], _, _, _, h => by cases h; rfl
  | (k, ti) :: q, db, db', hnd, h => by
    unfold flushQueued TxDb.UpdateTxIndex TxDb.tryWrite at h
    cases hio : io (.updateTxIndex k)
    · rw [hio, if_neg Bool.false_ne_true] at h
      rw [flushQueued_view (List.nodup_cons.1 hnd).2 h, TxDb.view_write]
      funext x
      simp only [flushView, SortedMap.find?_cons, update]
      by_cases hx : x = k
      · subst hx
        rw [SortedMap.find?_of_not_mem (List.nodup_cons.1 hnd).1]
        simp
      · simp [hx]
    · rw [hio, if_pos rfl] at h
      cases h

/-! ## Spent slots -/

/-- The slot an outpoint names, in the entry of its previous transaction, set to `x`; the
view is unchanged where that entry or slot does not exist. -/
def setSlot (V : Hash → Option TxIndex) (x : DiskTxPos) (o : OutPoint) : Hash → Option TxIndex :=
  update V o.hash ((V o.hash).map fun ti => { ti with vSpent := ti.vSpent.set o.n x })

/-- `W` is `V` with every slot the inputs `vin` spend set to `x`. -/
def Respent (x : DiskTxPos) (vin : List TxIn) (V W : Hash → Option TxIndex) : Prop :=
  ∀ h, Option.Rel (fun ti ti' => ti'.pos = ti.pos ∧ ti'.vSpent.length = ti.vSpent.length ∧
    ∀ k, ti'.vSpent[k]? =
      if vin.any (·.prevout == ⟨h, k⟩) then ti.vSpent[k]?.map (fun _ => x) else ti.vSpent[k]?)
    (V h) (W h)

/-- `K` is `J` with some of the slots that read as null set to the canonical null. -/
def Restored (J K : Hash → Option TxIndex) : Prop :=
  ∀ h, Option.Rel (fun ti ti' => ti'.pos = ti.pos ∧ ti'.vSpent.length = ti.vSpent.length ∧
    ∀ k : Nat, ti'.vSpent[k]? = ti.vSpent[k]? ∨
      ∃ z : DiskTxPos, ti.vSpent[k]? = some z ∧ z.IsNull = true ∧ ti'.vSpent[k]? = some DiskTxPos.null)
    (J h) (K h)

/-- Every slot the inputs `vin` spend reads as null in `J`. -/
def Free (J : Hash → Option TxIndex) (vin : List TxIn) : Prop :=
  ∀ i ∈ vin, ∀ ti, J i.prevout.hash = some ti → ∀ z, ti.vSpent[i.prevout.n]? = some z → z.IsNull = true

/-! Each relation above is `Option.Rel` entry by entry: these lemmas compose and read
such relations. -/

section Rel

variable {α : Type} {R S T : α → α → Prop}

theorem rel_refl (hR : ∀ a, R a a) : ∀ x : Option α, Option.Rel R x x
  | none => .none
  | some a => .some (hR a)

theorem rel_comp (hRST : ∀ {a b c}, R a b → S b c → T a c) :
    ∀ {x y z : Option α}, Option.Rel R x y → Option.Rel S y z → Option.Rel T x z
  | _, _, _, .none, .none => .none
  | _, _, _, .some r, .some s => .some (hRST r s)

theorem rel_some {a : α} {y : Option α} (h : Option.Rel R (some a) y) : ∃ b, y = some b ∧ R a b := by
  cases h with
  | some r => exact ⟨_, rfl, r⟩

theorem rel_none {y : Option α} (h : Option.Rel R none y) : y = none := by
  cases h
  rfl

end Rel

namespace Respent

variable {x : DiskTxPos} {vin : List TxIn}

theorem nil (V : Hash → Option TxIndex) : Respent x [] V V :=
  fun h => rel_refl (fun _ => ⟨rfl, rfl, fun _ => by simp⟩) (V h)

theorem setSlot (V : Hash → Option TxIndex) (i : TxIn) : Respent x [i] V (setSlot V x i.prevout) := fun h => by
  unfold NeutronCore.setSlot update
  by_cases hh : h = i.prevout.hash
  · subst hh
    rw [if_pos rfl]
    cases V i.prevout.hash
    · exact .none
    · refine .some ⟨rfl, List.length_set .., fun k => ?_⟩
      by_cases hk : i.prevout.n = k
      · subst hk
        simp [List.getElem?_set_self']
        rfl
      · have : (i.prevout == ⟨i.prevout.hash, k⟩) = false :=
          beq_eq_false_iff_ne.2 fun he => hk (congrArg OutPoint.n he)
        simp [this, List.getElem?_set_ne hk]
  · rw [if_neg hh]
    refine rel_refl (fun _ => ⟨rfl, rfl, fun k => ?_⟩) (V h)
    have : (i.prevout == ⟨h, k⟩) = false := beq_eq_false_iff_ne.2 fun he => hh (congrArg OutPoint.hash he).symm
    simp [this]

theorem append {vin' : List TxIn} {U V W : Hash → Option TxIndex} (h₁ : Respent x vin U V)
    (h₂ : Respent x vin' V W) : Respent x (vin ++ vin') U W := fun h =>
  rel_comp (fun r₁ r₂ => ⟨r₂.1.trans r₁.1, r₂.2.1.trans r₁.2.1, fun k => by
    rw [r₂.2.2, r₁.2.2, List.any_append]
    by_cases e₁ : vin.any (·.prevout == ⟨h, k⟩) <;> by_cases e₂ : vin'.any (·.prevout == ⟨h, k⟩) <;>
      simp [e₁, e₂, Option.map_map, Function.comp_def]⟩) (h₁ h) (h₂ h)

/-- Respending keeps every entry, with as many slots. -/
theorem lookup {V W : Hash → Option TxIndex} (hr : Respent x vin V W) {h : Hash} {t : TxIndex}
    (ht : V h = some t) : ∃ t', W h = some t' ∧ t'.vSpent.length = t.vSpent.length := by
  have r := hr h
  rw [ht] at r
  obtain ⟨t', h', r⟩ := rel_some r
  exact ⟨t', h', r.2.1⟩

theorem lookup_none {V W : Hash → Option TxIndex} (hr : Respent x vin V W) {h : Hash} (ht : V h = none) :
    W h = none := by
  have r := hr h
  rw [ht] at r
  exact rel_none r

end Respent

namespace Restored

theorem refl (J : Hash → Option TxIndex) : Restored J J :=
  fun h => rel_refl (fun _ => ⟨rfl, rfl, fun _ => .inl rfl⟩) (J h)

theorem trans {J K L : Hash → Option TxIndex} (h₁ : Restored J K) (h₂ : Restored K L) : Restored J L :=
  fun h => rel_comp (fun r₁ r₂ => ⟨r₂.1.trans r₁.1, r₂.2.1.trans r₁.2.1, fun k => by
    rcases r₂.2.2 k with e₂ | ⟨z, hz, hn, e₂⟩ <;> rcases r₁.2.2 k with e₁ | ⟨z', hz', hn', e₁⟩
    · exact .inl (e₂.trans e₁)
    · exact .inr ⟨z', hz', hn', e₂.trans e₁⟩
    · exact .inr ⟨z, e₁ ▸ hz, hn, e₂⟩
    · exact .inr ⟨z', hz', hn', e₂⟩⟩) (h₁ h) (h₂ h)

theorem lookup {J K : Hash → Option TxIndex} (hr : Restored J K) {h : Hash} {t : TxIndex}
    (ht : J h = some t) : ∃ t', K h = some t' ∧ t'.vSpent.length = t.vSpent.length := by
  have r := hr h
  rw [ht] at r
  obtain ⟨t', h', r⟩ := rel_some r
  exact ⟨t', h', r.2.1⟩

/-- Where every slot that reads as null is the canonical null, nulling slots again changes
nothing. -/
theorem eq_of_canonical {J K : Hash → Option TxIndex} (h : Restored J K)
    (hc : ∀ x ti, J x = some ti → ∀ z ∈ ti.vSpent, z.IsNull = true → z = DiskTxPos.null) : K = J := by
  funext x
  have r := h x
  rcases hJ : J x with _ | ⟨p, l⟩ <;> rw [hJ] at r
  · exact rel_none r
  obtain ⟨⟨p', l'⟩, hK, hp, -, hs⟩ := rel_some r
  dsimp only at hp hs
  rw [hK, hp]
  congr
  refine List.ext_getElem? fun k => ?_
  rcases hs k with e | ⟨z, hz, hn, e⟩
  · exact e
  · rw [e, hz, hc x _ hJ z (List.getElem?_mem hz) hn]

end Restored

/-- **Disconnecting one transaction undoes connecting it, up to null slots.** Connecting
a transaction marks the slots its inputs spend, all of which read as null, and files the
transaction under its hash, which was free; a view `K` that nulled some null slots of the
result, with those slots nulled again and the hash erased, is the view before with some
null slots nulled. -/
theorem restored_step {J J₁ K K₁ : Hash → Option TxIndex} {x : DiskTxPos} {vin : List TxIn} {th : Hash}
    {fresh : TxIndex} (hm : Respent x vin J J₁) (hfree : Free J vin) (hth : J th = none)
    (hK : Restored (update J₁ th (some fresh)) K) (hn : Respent DiskTxPos.null vin K K₁) :
    Restored J (update K₁ th none) := fun h => by
  by_cases hh : h = th
  · subst hh
    rw [hth, update_same]
    exact .none
  rw [update_ne _ _ hh]
  have r₂ := hK h
  rw [update_ne _ _ hh] at r₂
  rcases hJ : J h with _ | t
  · rw [hm.lookup_none hJ] at r₂
    rw [hn.lookup_none (rel_none r₂)]
    exact .none
  -- the entry of `h` before, after the connect, after the restoring, and after the disconnect
  have r₁ := hm h
  rw [hJ] at r₁
  obtain ⟨t₁, h₁, r₁⟩ := rel_some r₁
  rw [h₁] at r₂
  obtain ⟨t₂, h₂, r₂⟩ := rel_some r₂
  have r₃ := hn h
  rw [h₂] at r₃
  obtain ⟨t₃, h₃, r₃⟩ := rel_some r₃
  rw [h₃]
  refine .some ⟨r₃.1.trans (r₂.1.trans r₁.1), r₃.2.1.trans (r₂.2.1.trans r₁.2.1), fun k => ?_⟩
  rw [r₃.2.2 k]
  have e₁ := r₁.2.2 k
  by_cases hk : vin.any (·.prevout == ⟨h, k⟩)
  · obtain ⟨i, hi, he⟩ := List.any_eq_true.1 hk
    have hpo : i.prevout = ⟨h, k⟩ := beq_iff_eq.1 he
    rw [if_pos hk] at e₁ ⊢
    rcases ht : t.vSpent[k]? with _ | z
    · rw [ht] at e₁
      rcases r₂.2.2 k with e₂ | ⟨_, hz, -, -⟩
      · exact .inl (by rw [e₂, e₁]; rfl)
      · rw [e₁] at hz; cases hz
    · have hnull := hfree i hi t (by rw [hpo]; exact hJ) z (by rw [hpo]; exact ht)
      rw [ht] at e₁
      refine .inr ⟨z, rfl, hnull, ?_⟩
      rcases r₂.2.2 k with e₂ | ⟨_, -, -, e₂⟩ <;> rw [e₂]
      · rw [e₁]; rfl
      · rfl
  · rw [if_neg hk] at e₁ ⊢
    rcases r₂.2.2 k with e₂ | ⟨z, hz, hn, e₂⟩
    · exact .inl (e₂.trans e₁)
    · exact .inr ⟨z, e₁ ▸ hz, hn, e₂⟩

/-- A slot that reads as null before another slot is marked still read as null, or is that
slot. -/
theorem Free.of_setSlot {J : Hash → Option TxIndex} {x : DiskTxPos} {i : TxIn} {vin : List TxIn}
    (hF : Free (setSlot J x i.prevout) vin)
    (hi : ∀ t, J i.prevout.hash = some t → ∀ z, t.vSpent[i.prevout.n]? = some z → z.IsNull = true) :
    Free J (i :: vin) := by
  intro i' hi' t ht z hz
  by_cases he : i'.prevout = i.prevout
  · rw [he] at ht hz
    exact hi t ht z hz
  rcases List.mem_cons.1 hi' with rfl | hi'
  · exact absurd rfl he
  refine hF i' hi' (if i'.prevout.hash = i.prevout.hash then { t with vSpent := t.vSpent.set i.prevout.n x }
    else t) ?_ z ?_
  · unfold setSlot update
    split
    · next hh => rw [← hh, ht]; rfl
    · exact ht
  · split
    · next hh =>
      have hn : i.prevout.n ≠ i'.prevout.n := fun hn => he (by
        show (⟨i'.prevout.hash, i'.prevout.n⟩ : OutPoint) = ⟨i.prevout.hash, i.prevout.n⟩
        rw [hh, hn])
      rw [List.getElem?_set_ne hn]
      exact hz
    · exact hz

/-! ## Connecting: what the staged changes add -/

/-- Every entry `FetchInputs` takes for a block is the one the staged changes over the
database show. -/
theorem fetchLoop_agrees (s : ChainState) (io : DbOp → Bool) (q : SortedMap TxIndex) :
    ∀ (vin : List TxIn) (m m' : MapPrevTx), fetchLoop s io q true vin m = some m' →
      (∀ h e, m h = some e → flushView q s.txdb.view.txIndex h = some e.1) →
      ∀ h e, m' h = some e → flushView q s.txdb.view.txIndex h = some e.1
  | [], m, m', hf, hm => by cases hf; exact hm
  | i :: is, m, m', hf, hm => by
    unfold fetchLoop at hf
    dsimp only at hf
    split at hf
    · exact fetchLoop_agrees s io q is m m' hf hm
    have hfound : ∀ ti, (if (true && (q.find? i.prevout.hash).isSome) = true then q.find? i.prevout.hash
        else s.txdb.ReadTxIndex io i.prevout.hash) = some ti →
        flushView q s.txdb.view.txIndex i.prevout.hash = some ti := by
      intro ti hti
      unfold flushView
      rcases hq : q.find? i.prevout.hash with _ | t
      · rw [hq, Bool.true_and, Option.isSome_none, if_neg Bool.false_ne_true] at hti
        unfold TxDb.ReadTxIndex at hti
        rw [ite_eq_iff] at hti
        rcases hti with ⟨-, ⟨⟩⟩ | ⟨-, hti⟩
        exact hti
      · rw [hq] at hti
        simpa using hti
    split at hf
    · cases hf
    · next ti hti =>
      split at hf
      · cases hf
      · refine fetchLoop_agrees s io q is _ m' hf fun h e he => ?_
        unfold update at he
        split at he
        · subst h
          cases he
          exact hfound ti hti
        · exact hm h e he

/-- The spend loop of `ConnectInputs` in a block, when it gets through every input, marks
exactly the slots its inputs spend in the view the staged changes give, and each of them
read as null. -/
theorem connectSpendLoop_respent (env : Env) (tx : Transaction) (pos : DiskTxPos) (fCheckSig : Bool)
    (V : Hash → Option TxIndex) :
    ∀ (vin : List TxIn) (nIn : Nat) (m : MapPrevTx) (pool pool' : SortedMap TxIndex),
      connectSpendLoop env tx pos fCheckSig true vin nIn m pool = (.ok, pool') → SortedKeys pool →
      (∀ h e, m h = some e → flushView pool V h = some e.1) →
      SortedKeys pool' ∧ Respent pos vin (flushView pool V) (flushView pool' V) ∧ Free (flushView pool V) vin
  | [], _, _, pool, pool', h, hs, _ => by
    cases h
    exact ⟨hs, .nil _, fun _ h => nomatch h⟩
  | i :: is, nIn, m, pool, pool', h, hs, hm => by
    dsimp only [connectSpendLoop] at h
    split at h
    · cases h
    next ti prev he =>
    split at h
    · cases h
    split at h
    · cases h
    next hnull _ =>
    rw [if_pos rfl] at h
    have hJ := hm _ _ he
    have hset : flushView (pool.insert i.prevout.hash { ti with vSpent := ti.vSpent.set i.prevout.n pos }) V =
        setSlot (flushView pool V) pos i.prevout := by
      rw [flushView_insert, setSlot, hJ]
      rfl
    obtain ⟨hs', hr, hf⟩ := connectSpendLoop_respent env tx pos fCheckSig V is (nIn + 1) _ _ pool' h
      (hs.insert _ _) fun k e hk => by
        rw [flushView_insert]
        unfold update at hk ⊢
        split at hk
        · cases hk
          rw [if_pos ‹_›]
        · rw [if_neg ‹_›]
          exact hm k e hk
    rw [hset] at hr hf
    refine ⟨hs', (Respent.setSlot _ i).append hr, Free.of_setSlot hf fun t ht z hz => ?_⟩
    rw [hJ] at ht
    cases ht
    simpa [List.getD_eq_getElem?_getD, hz] using hnull

/-! ## Disconnecting -/

/-- The inputs whose slots a transaction marks when it connects and nulls when it
disconnects: none for a coinbase. -/
def spentInputs (tx : Transaction) : List TxIn := if tx.IsCoinBase then [] else tx.vin

/-- Every input's previous entry is in the view, with a slot at its index. -/
def InRange (V : Hash → Option TxIndex) (vin : List TxIn) : Prop :=
  ∀ i ∈ vin, ∃ t, V i.prevout.hash = some t ∧ i.prevout.n < t.vSpent.length

theorem InRange.of_respent {x : DiskTxPos} {vin vin' : List TxIn} {V W : Hash → Option TxIndex}
    (h : InRange V vin') (hr : Respent x vin V W) : InRange W vin' := fun i hi => by
  obtain ⟨t, ht, hn⟩ := h i hi
  obtain ⟨t', ht', hl⟩ := hr.lookup ht
  exact ⟨t', ht', hl ▸ hn⟩

theorem InRange.of_restored {vin : List TxIn} {J K : Hash → Option TxIndex} (h : InRange J vin)
    (hr : Restored J K) : InRange K vin := fun i hi => by
  obtain ⟨t, ht, hn⟩ := h i hi
  obtain ⟨t', ht', hl⟩ := hr.lookup ht
  exact ⟨t', ht', hl ▸ hn⟩

/-- Without I/O failures, the input loop of `DisconnectInputs` gets through inputs whose
slots exist, and nulls exactly those slots. -/
theorem disconnectInputsLoop_respent {io : DbOp → Bool} (hio : ∀ op, io op = false) :
    ∀ (vin : List TxIn) (db : TxDb), InRange db.view.txIndex vin →
      ∃ db', disconnectInputsLoop io vin db = (true, db') ∧
        Respent DiskTxPos.null vin db.view.txIndex db'.view.txIndex
  | [], db, _ => ⟨db, rfl, .nil _⟩
  | i :: is, db, hin => by
    obtain ⟨t, ht, hn⟩ := hin i (List.mem_cons_self _ _)
    let db₁ := db.write fun c =>
      { c with txIndex := update c.txIndex i.prevout.hash (some { t with vSpent := t.vSpent.set i.prevout.n .null }) }
    have hv : db₁.view.txIndex = setSlot db.view.txIndex DiskTxPos.null i.prevout := by
      rw [TxDb.view_write, setSlot, ht]
      rfl
    have hr₁ : Respent DiskTxPos.null [i] db.view.txIndex db₁.view.txIndex := hv ▸ Respent.setSlot _ i
    obtain ⟨db', h', hr⟩ := disconnectInputsLoop_respent hio is db₁
      fun i' hi' => hin.of_respent hr₁ i' (List.mem_cons_of_mem _ hi')
    refine ⟨db', ?_, hr₁.append hr⟩
    rw [disconnectInputsLoop, TxDb.ReadTxIndex_of_ok hio, ht]
    dsimp only
    rw [if_neg (by omega), TxDb.UpdateTxIndex, TxDb.tryWrite_of_ok hio]
    exact h'

/-- Without I/O failures, `DisconnectInputs` gets through a transaction whose spent slots
exist: it nulls them and erases the transaction's own entry. -/
theorem DisconnectInputs_respent {io : DbOp → Bool} (hio : ∀ op, io op = false) (tx : Transaction) (db : TxDb)
    (hin : InRange db.view.txIndex (spentInputs tx)) :
    ∃ K₁ db', Respent DiskTxPos.null (spentInputs tx) db.view.txIndex K₁ ∧
      DisconnectInputs io tx db = (true, db') ∧ db'.view.txIndex = update K₁ tx.hash none := by
  obtain ⟨db₁, h₁, hr⟩ : ∃ db₁, (if tx.IsCoinBase then (true, db) else disconnectInputsLoop io tx.vin db) =
      (true, db₁) ∧ Respent DiskTxPos.null (spentInputs tx) db.view.txIndex db₁.view.txIndex := by
    unfold spentInputs at hin ⊢
    by_cases hcb : tx.IsCoinBase = true
    · rw [if_pos hcb, if_pos hcb]
      exact ⟨db, rfl, .nil _⟩
    · rw [if_neg hcb, if_neg hcb] at *
      exact disconnectInputsLoop_respent hio _ _ hin
  refine ⟨_, _, hr, by rw [DisconnectInputs, h₁], ?_⟩
  rw [TxDb.EraseTxIndex, TxDb.tryWrite_of_ok hio, TxDb.view_write]

/-- Disconnecting a list of transactions after a prefix that went through. -/
theorem disconnectTxs_append {io : DbOp → Bool} :
    ∀ (l₁ l₂ : List Transaction) (db db₁ : TxDb), disconnectTxs io l₁ db = (true, db₁) →
      disconnectTxs io (l₁ ++ l₂) db = disconnectTxs io l₂ db₁
  | [], _, _, _, h => by cases h; rfl
  | tx :: l₁, l₂, db, db₁, h => by
    rw [disconnectTxs] at h
    rw [List.cons_append, disconnectTxs]
    split at h
    · cases h
    · exact disconnectTxs_append l₁ l₂ _ db₁ h

/-! ## Connecting one transaction of a block -/

/-- A transaction that passes `ConnectInputs` in a block and is not a coinbase went through
the spend loop. -/
theorem ConnectInputs_spend {p : Params} {env : Env} {s : ChainState} {tx : Transaction} {inputs : MapPrevTx}
    {q q' : SortedMap TxIndex} {pos : DiskTxPos} {pindex : BlockIndex} {used : Bool} (hcb : tx.IsCoinBase = false)
    (h : ConnectInputs p env s tx inputs q pos pindex true = (true, q', used)) :
    ∃ fCheckSig, connectSpendLoop env tx pos fCheckSig true tx.vin 0 inputs q = (.ok, q') := by
  unfold ConnectInputs at h
  rw [if_neg (by simp [hcb])] at h
  split at h
  · cases h
  · dsimp only at h
    split at h
    · next hl => exact ⟨_, (Prod.mk.inj (Prod.mk.inj h).2).1 ▸ hl⟩
    all_goals cases h

/-- `FetchInputs` in a block finds every input's previous entry where the staged changes
over the database show it, with a slot at the input's index. -/
theorem FetchInputs_inRange {s : ChainState} {io : DbOp → Bool} {q : SortedMap TxIndex} {tx : Transaction}
    {inputs : MapPrevTx} (hcb : tx.IsCoinBase = false) (h : FetchInputs s io q true tx = .ok inputs) :
    (∀ h e, inputs h = some e → flushView q s.txdb.view.txIndex h = some e.1) ∧
      InRange (flushView q s.txdb.view.txIndex) tx.vin := by
  unfold FetchInputs at h
  rw [if_neg (by simp [hcb])] at h
  split at h
  · cases h
  next m hm =>
  split at h
  · next hrange =>
    cases h
    have hag := fetchLoop_agrees s io q tx.vin _ _ hm fun _ _ h => nomatch h
    refine ⟨hag, fun i hi => ?_⟩
    have hi := List.all_eq_true.1 hrange i hi
    split at hi
    · cases hi
    · next ti prev he =>
      exact ⟨ti, hag _ _ he, (of_decide_eq_true hi).2⟩
  · cases h

section Connect

variable (p : Params) (env : Env) (s : ChainState) (pindex : BlockIndex)

/-- One transaction of `CalculateBlockAmounts` in a plain connect: over the view `J` the
staged changes give, it marks the slots its inputs spend, all of which exist and read as
null, and then files itself under its hash. -/
theorem amountsLoop_connects {tx : Transaction} {txs : List Transaction} {nTxPos : Nat}
    {q q' : SortedMap TxIndex} {a a' : Amounts}
    (h : amountsLoop p env s pindex false false true (tx :: txs) nTxPos q a = some (q', a'))
    (hs : SortedKeys q) :
    ∃ pool a₁, SortedKeys pool ∧
      Respent ⟨pindex.nFile, pindex.nBlockPos, nTxPos⟩ (spentInputs tx) (flushView q s.txdb.view.txIndex)
        (flushView pool s.txdb.view.txIndex) ∧
      Free (flushView q s.txdb.view.txIndex) (spentInputs tx) ∧
      InRange (flushView q s.txdb.view.txIndex) (spentInputs tx) ∧
      amountsLoop p env s pindex false false true txs (nTxPos + 1)
        (pool.insert tx.hash (TxIndex.fresh ⟨pindex.nFile, pindex.nBlockPos, nTxPos⟩ tx.vout.length)) a₁ =
          some (q', a') := by
  rw [amountsLoop] at h
  split at h
  · cases h
  dsimp only at h
  split at h
  · next hcb =>
    have he : spentInputs tx = [] := if_pos hcb
    rw [he]
    exact ⟨q, _, hs, .nil _, nofun, nofun, h⟩
  next hcb =>
  have he : spentInputs tx = tx.vin := if_neg hcb
  rw [he]
  split at h
  · cases h
  next inputs hf =>
  obtain ⟨hag, hin⟩ := FetchInputs_inRange (Bool.eq_false_iff.2 hcb) hf
  rw [if_pos rfl] at h
  generalize hci : ConnectInputs p env s tx inputs q _ pindex true = r at h
  obtain ⟨ok, pool, used⟩ := r
  dsimp only at h
  rw [Bool.false_and, Bool.or_false, if_neg Bool.false_ne_true] at h
  obtain ⟨rfl, h⟩ | ⟨-, ⟨⟩⟩ := ite_eq_iff.1 h
  obtain ⟨_, hl⟩ := ConnectInputs_spend (Bool.eq_false_iff.2 hcb) hci
  obtain ⟨hsp, hr, hfree⟩ := connectSpendLoop_respent env tx _ _ s.txdb.view.txIndex _ _ _ _ _ hl hs hag
  exact ⟨pool, _, hsp, hr, hfree, hin, h⟩

/-- **Disconnecting undoes `CalculateBlockAmounts`, up to null slots.** Over the
transactions of a plain connect whose hashes are distinct and free in the view, a view
that is the staged result with some null slots nulled again is taken back by
`disconnectTxs` over the transactions reversed, without I/O failures, to the view before
with some null slots nulled. -/
theorem amountsLoop_undo {io : DbOp → Bool} (hio : ∀ op, io op = false) :
    ∀ (txs : List Transaction) (nTxPos : Nat) (q q' : SortedMap TxIndex) (a a' : Amounts),
      amountsLoop p env s pindex false false true txs nTxPos q a = some (q', a') → SortedKeys q →
      (txs.map Transaction.hash).Nodup → (∀ tx ∈ txs, flushView q s.txdb.view.txIndex tx.hash = none) →
      SortedKeys q' ∧ ∀ db, Restored (flushView q' s.txdb.view.txIndex) db.view.txIndex →
        ∃ db', disconnectTxs io txs.reverse db = (true, db') ∧
          Restored (flushView q s.txdb.view.txIndex) db'.view.txIndex
  | [], _, q, q', a, a', h, hs, _, _ => by
    cases h
    exact ⟨hs, fun db hr => ⟨db, rfl, hr⟩⟩
  | tx :: txs, nTxPos, q, q', a, a', h, hs, hnd, hnew => by
    obtain ⟨pool, a₁, hsp, hr, hfree, hin, h⟩ := amountsLoop_connects p env s pindex h hs
    have hth := hnew tx (List.mem_cons_self _ _)
    obtain ⟨hs', hundo⟩ := amountsLoop_undo hio txs _ _ q' a₁ a' h (hsp.insert _ _) (List.nodup_cons.1 hnd).2
      fun tx' htx' => by
        have hne : tx'.hash ≠ tx.hash := fun he => (List.nodup_cons.1 hnd).1 (he ▸ List.mem_map_of_mem _ htx')
        rw [flushView_insert, update_ne _ _ hne]
        exact hr.lookup_none (hnew tx' (List.mem_cons_of_mem _ htx'))
    refine ⟨hs', fun db hdb => ?_⟩
    obtain ⟨db₁, hd₁, hr₁⟩ := hundo db hdb
    rw [flushView_insert] at hr₁
    have hin₁ : InRange db₁.view.txIndex (spentInputs tx) := by
      refine InRange.of_restored (fun i hi => ?_) hr₁
      obtain ⟨t, ht, hn⟩ := hin.of_respent hr i hi
      have hne : i.prevout.hash ≠ tx.hash := fun he => by
        obtain ⟨t₀, ht₀, -⟩ := hin i hi
        rw [he, hth] at ht₀
        cases ht₀
      exact ⟨t, by rw [update_ne _ _ hne, ht], hn⟩
    obtain ⟨K₁, db₂, hn, hd₂, hv⟩ := DisconnectInputs_respent hio tx db₁ hin₁
    refine ⟨db₂, ?_, hv ▸ restored_step hr hfree hth hr₁ hn⟩
    rw [List.reverse_cons, disconnectTxs_append _ _ _ _ hd₁, disconnectTxs, hd₂]
    rfl

end Connect

/-! ## The round trip -/

/-- A plain `ConnectBlock` that succeeds passed `CheckBlock` and `CalculateBlockAmounts`,
and its writes to the tx index are the staged changes. -/
theorem ConnectBlock_flush {p : Params} {env : Env} {b : Block} {hIndex : Hash} {pb : Int} {s s' : ChainState}
    (hc : ConnectBlock p env b hIndex false false pb s = (true, s')) :
    ∃ pindex q a, CheckBlock p env b true false = true ∧
      CalculateBlockAmounts p env s b pindex false false true = some (q, a) ∧
      ((q.map Prod.fst).Nodup → s'.txdb.view.txIndex = flushView q s.txdb.view.txIndex) := by
  unfold ConnectBlock at hc
  split at hc
  · cases hc
  next pindex _ =>
  obtain ⟨-, ⟨⟩⟩ | ⟨hcheck, hc⟩ := ite_eq_iff.1 hc
  split at hc
  · cases hc
  next q a hq =>
  refine ⟨pindex, q, a, by simpa using hcheck, hq, fun hnd => ?_⟩
  dsimp only at hc
  obtain ⟨-, ⟨⟩⟩ | ⟨-, hc⟩ := ite_eq_iff.1 hc
  obtain ⟨-, ⟨⟩⟩ | ⟨-, hc⟩ := ite_eq_iff.1 hc
  split at hc
  · cases hc
  next db hw =>
  rw [if_neg Bool.false_ne_true] at hc
  split at hc
  · cases hc
  next db' hf =>
  have hv : s'.txdb.view.txIndex = db'.view.txIndex := by
    split at hc
    · cases hc
      rfl
    · rw [← (Prod.mk.inj hc).2]
      exact TxDb.view_WriteBlockIndex ..
  rw [hv, flushQueued_view hnd hf,
    (congrArg (fun r : Bool × TxDb => r.2.view.txIndex) hw).symm.trans (TxDb.view_WriteBlockIndex _)]

/-- Without I/O failures, `DisconnectBlock` succeeds once its transaction loop has, and
leaves the tx index as that loop left it. -/
theorem DisconnectBlock_of_disconnectTxs {env : Env} (hio : ∀ op, env.ioFail op = false) {b : Block} {hIndex : Hash}
    {s : ChainState} {db : TxDb} (h : disconnectTxs env.ioFail b.vtx.reverse s.txdb = (true, db)) :
    (DisconnectBlock env b hIndex s).1 = true ∧ (DisconnectBlock env b hIndex s).2.txdb.view.txIndex = db.view.txIndex := by
  unfold DisconnectBlock
  rw [h]
  dsimp only
  split
  · exact ⟨rfl, rfl⟩
  · exact ⟨by rw [TxDb.WriteBlockIndex, TxDb.tryWrite_of_ok hio], TxDb.view_WriteBlockIndex ..⟩

/-- **Reconnecting restores the tx index, given canonical null slots.** Take a view of
the tx index in which no transaction of the block `b` has an entry and every slot that
reads as null is the canonical null. If a plain `ConnectBlock` of `b` succeeds, a
`DisconnectBlock` of `b` without I/O failures succeeds as well and gives the tx index back
exactly. -/
theorem reconnect_restores_tx_index (p : Params) (env env' : Env) (b : Block) (hIndex : Hash) (pb : Int)
    (s s' : ChainState) (hio : ∀ op, env'.ioFail op = false)
    (hnew : ∀ tx ∈ b.vtx, s.txdb.view.txIndex tx.hash = none)
    (hcanon : ∀ h ti, s.txdb.view.txIndex h = some ti → ∀ z ∈ ti.vSpent, z.IsNull = true → z = DiskTxPos.null)
    (hc : ConnectBlock p env b hIndex false false pb s = (true, s')) :
    (DisconnectBlock env' b hIndex s').1 = true ∧
      (DisconnectBlock env' b hIndex s').2.txdb.view.txIndex = s.txdb.view.txIndex := by
  obtain ⟨pindex, q, a, hcheck, hq, hflush⟩ := ConnectBlock_flush hc
  have hnd : (b.vtx.map Transaction.hash).Nodup := by
    simp only [CheckBlock, Bool.and_eq_true, Bool.not_eq_true'] at hcheck
    exact hasDuplicate_eq_false hcheck.1.1.2
  unfold CalculateBlockAmounts at hq
  obtain ⟨-, ⟨⟩⟩ | ⟨-, hq⟩ := ite_eq_iff.1 hq
  obtain ⟨hs, hundo⟩ := amountsLoop_undo p env s pindex hio b.vtx _ [] q {} a hq List.Pairwise.nil hnd hnew
  obtain ⟨db, hd, hr⟩ := hundo s'.txdb (by rw [hflush hs.nodup]; exact .refl _)
  obtain ⟨h₁, h₂⟩ := DisconnectBlock_of_disconnectTxs hio hd
  exact ⟨h₁, h₂.trans (hr.eq_of_canonical hcanon)⟩

/-- A block on `checkpointBlock` whose second transaction spends output 0 of `fundingTx`. -/
def spendBlock : Block :=
  powBlock testnet 10 9 6079 [coinbase 110 6079 0, ⟨111, 6079, [⟨⟨77, 0⟩, []⟩], [⟨500000, []⟩]⟩]

/-- On `checkpointState`, connecting `spendBlock` and disconnecting it gives the tx index
back. -/
theorem reconnect_restores_tx_index_checkpoint :
    (∀ op, (Env.quiet false 2000000000).ioFail op = false) ∧
      (∀ tx ∈ spendBlock.vtx, (checkpointState spendBlock).txdb.view.txIndex tx.hash = none) ∧
      (∀ h ti, (checkpointState spendBlock).txdb.view.txIndex h = some ti →
        ∀ z ∈ ti.vSpent, z.IsNull = true → z = DiskTxPos.null) ∧
      (DisconnectBlock (Env.quiet false 2000000000) spendBlock 10
          (ConnectBlock testnet (Env.quiet false 2000000000) spendBlock 10 false false 0
            (checkpointState spendBlock)).2).1 = true ∧
      (DisconnectBlock (Env.quiet false 2000000000) spendBlock 10
          (ConnectBlock testnet (Env.quiet false 2000000000) spendBlock 10 false false 0
            (checkpointState spendBlock)).2).2.txdb.view.txIndex =
        (checkpointState spendBlock).txdb.view.txIndex :=
  have hio : ∀ op, (Env.quiet false 2000000000).ioFail op = false := fun _ => rfl
  have hnew : ∀ tx ∈ spendBlock.vtx, (checkpointState spendBlock).txdb.view.txIndex tx.hash = none := by decide
  have hcanon : ∀ h ti, (checkpointState spendBlock).txdb.view.txIndex h = some ti →
      ∀ z ∈ ti.vSpent, z.IsNull = true → z = DiskTxPos.null := fun h ti hti z hz _ => by
    change update (fun _ => none) 77 _ h = _ at hti
    unfold update at hti
    split at hti <;> cases hti
    simpa using hz
  ⟨hio, hnew, hcanon, reconnect_restores_tx_index testnet _ _ spendBlock 10 0 _ _ hio hnew hcanon
    (Prod.ext (by decide) rfl)⟩

/-- `checkpointState spendBlock` with slot 0 of `fundingTx` unspent but not the canonical
null: its file number is `nullIndex`, its positions are 5 and 7. -/
def oddNullState : ChainState :=
  { checkpointState spendBlock with
    txdb := ⟨⟨update (fun _ => none) 77 (some ⟨txPosIn 1 5 1, [⟨nullIndex, 5, 7⟩, .null]⟩), fun _ => none, 9⟩,
      none, 0⟩ }

/-- The state after a plain connect of `spendBlock` on `oddNullState`. -/
def oddNullConnected : ChainState :=
  (ConnectBlock testnet (Env.quiet false 2000000000) spendBlock 10 false false 0 oddNullState).2

/-- **A null slot with other fields does not come back.** On `oddNullState`, none of the
block's transactions has an entry, the connect and the disconnect both succeed, and the slot
`spendBlock` spent comes back as the canonical null, not as it was. -/
theorem reconnect_rewrites_null_slot :
    (∀ tx ∈ spendBlock.vtx, oddNullState.txdb.view.txIndex tx.hash = none) ∧
      (ConnectBlock testnet (Env.quiet false 2000000000) spendBlock 10 false false 0 oddNullState).1 = true ∧
      (DisconnectBlock (Env.quiet false 2000000000) spendBlock 10 oddNullConnected).1 = true ∧
      oddNullState.txdb.view.txIndex 77 = some ⟨txPosIn 1 5 1, [⟨nullIndex, 5, 7⟩, .null]⟩ ∧
      (DisconnectBlock (Env.quiet false 2000000000) spendBlock 10 oddNullConnected).2.txdb.view.txIndex 77 =
        some ⟨txPosIn 1 5 1, [.null, .null]⟩ := by
  decide

/-! ## `fJustCheck` -/

/-- **A checking connect writes the node's record.** On `checkpointState`, where the node of
`spendBlock` has no block-index record yet, `ConnectBlock` with `fJustCheck` succeeds and
leaves one committed. -/
theorem justCheck_writes_block_index :
    (checkpointState spendBlock).txdb.committed.blockIndex 10 = none ∧
      (ConnectBlock testnet (Env.quiet false 2000000000) spendBlock 10 true false 0 (checkpointState spendBlock)).1 =
        true ∧
      ((ConnectBlock testnet (Env.quiet false 2000000000) spendBlock 10 true false 0
        (checkpointState spendBlock)).2.txdb.committed.blockIndex 10).isSome := by
  decide

end NeutronCore
