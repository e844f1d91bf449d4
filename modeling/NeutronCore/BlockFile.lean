/-
`LoadExternalBlockFile` (`main.cpp:3110`): the scan of a block file for records.

A record is the four bytes of `pchMessageStart`, a four-byte size and a block. The scan
searches the file for the magic in 64 KiB windows (`searchStep`, `findMagic`), reads the size
after it, and, when the size is in range and `ProcessNewBlock` takes the block, skips the
record. Its position `nPos` is an `unsigned int`, so every addition to it is taken mod `2^32`,
and `(unsigned int)-1` (`nullIndex`) ends the scan.

The search never skips an occurrence: a miss of the first byte moves `65536 - 4 + 1` on, just
past the last offset whose first byte the window checked, and a first byte without the rest
moves one past it. So in a file shorter than `2^32 - 65536` bytes, where no move of the search
wraps, the search from `start` stops past the first occurrence at or after `start`, or with
`(unsigned int)-1` when none starts in `[start, L - 9]` (`findMagic_spec`).

Skipping a record adds `4 + nSize` to the position past the magic, with `nSize` up to
`MAX_BLOCK_SIZE` whatever the block's serialisation takes. That addition does not wrap when
`L + MAX_BLOCK_SIZE < 2^32`, and then every pass moves the scan forward and the scan ends
(`scanLoop_terminates`). The file bound alone does not give that: a record near the end of a
file of `2^32 - 999999` bytes, whose size field says `1000000`, sends the scan back to the
start of the file, and when the block is read and taken each time the scan never ends
(`LoadExternalBlockFile_wraps`).
-/
import NeutronCore.Basic

set_option autoImplicit false

namespace NeutronCore

/-! ## The magic and the byte search -/

/-- `pchMessageStart` (`main.cpp:3393`): the four bytes that open every record of a block
file, as four fields so that a value has the four bytes `sizeof(pchMessageStart)` counts. -/
structure MessageStart where
  b0 : UInt8
  b1 : UInt8
  b2 : UInt8
  b3 : UInt8
deriving DecidableEq, Repr

/-- The four bytes in order. -/
def MessageStart.bytes (m : MessageStart) : List UInt8 := [m.b0, m.b1, m.b2, m.b3]

/-- The main network's message start (`main.cpp:3393`); `LoadBlockIndex` sets the test
network's (`main.cpp:2897`). -/
def pchMessageStart : MessageStart := ⟨0xb2, 0xd1, 0xf4, 0xa3⟩

/-- The magic occurs at offset `i` of the file. -/
def OccursAt (m : MessageStart) (data : List UInt8) (i : Nat) : Prop := (data.drop i).take 4 = m.bytes

instance (m : MessageStart) (data : List UInt8) (i : Nat) : Decidable (OccursAt m data i) :=
  inferInstanceAs (Decidable (_ = _))

namespace OccursAt

variable {m : MessageStart} {data : List UInt8} {i : Nat}

/-- An occurrence starts with the magic's first byte. -/
theorem getElem? (h : OccursAt m data i) : data[i]? = some m.b0 := by
  have := congrArg List.head? h
  rwa [List.head?_take, if_neg (by decide), List.head?_drop] at this

/-- An occurrence has its four bytes in the file. -/
theorem le_length (h : OccursAt m data i) : i + 4 ≤ data.length := by
  have := congrArg List.length h
  simp only [List.length_take, List.length_drop, MessageStart.bytes, List.length_cons, List.length_nil] at this
  omega

end OccursAt

/-- `memchr(p, c, n)`: the offset of the first byte `c` among the first `n` bytes of `p`. -/
def memchr (c : UInt8) : List UInt8 → Nat → Option Nat
  | [], _ => none
  | _, 0 => none
  | b :: bs, n + 1 => if b = c then some 0 else (memchr c bs n).map (· + 1)

theorem memchr_eq_some {c : UInt8} :
    ∀ {buf : List UInt8} {n k : Nat}, memchr c buf n = some k →
      k < n ∧ buf[k]? = some c ∧ ∀ j < k, buf[j]? ≠ some c
  | [], _, _, h => by simp [memchr] at h
  | _ :: _, 0, _, h => by simp [memchr] at h
  | b :: bs, n + 1, k, h => by
    unfold memchr at h
    split at h
    · next hb =>
      cases h
      exact ⟨by omega, by simp [hb], nofun⟩
    · next hb =>
      obtain ⟨k, hk, rfl⟩ := Option.map_eq_some'.1 h
      obtain ⟨hlt, hget, hbefore⟩ := memchr_eq_some hk
      refine ⟨by omega, by rwa [List.getElem?_cons_succ], fun j hj => ?_⟩
      cases j with
      | zero => simpa using hb
      | succ j => rw [List.getElem?_cons_succ]; exact hbefore j (by omega)

theorem memchr_eq_none {c : UInt8} :
    ∀ {buf : List UInt8} {n : Nat}, memchr c buf n = none → ∀ j < n, buf[j]? ≠ some c
  | [], _, _, _, _ => nofun
  | _ :: _, 0, _, _, hj => absurd hj (Nat.not_lt_zero _)
  | b :: bs, n + 1, h, j, hj => by
    unfold memchr at h
    split at h
    · cases h
    · next hb =>
      cases j with
      | zero => simpa using hb
      | succ j => rw [List.getElem?_cons_succ]; exact memchr_eq_none (Option.map_eq_none'.1 h) j (by omega)

/-! ## The search -/

/-- What one pass of the search's `do` loop ends with: the search stops at `nPos`, or goes
round again from it. -/
inductive SearchStep where
  | stop (nPos : Nat)
  | more (nPos : Nat)
deriving DecidableEq, Repr

/-- One pass of the magic search of `LoadExternalBlockFile` (`main.cpp:3127`): read up to
64 KiB at `nPos`; eight bytes or fewer end the search with `(unsigned int)-1`; otherwise look
for the magic's first byte among the first `nRead+1-4` bytes read. The whole magic there stops
the search past it; its first byte alone moves one past that byte; a miss moves
`sizeof(pchData) - sizeof(pchMessageStart) + 1` on. -/
def searchStep (m : MessageStart) (data : List UInt8) (nPos : Nat) : SearchStep :=
  let pchData := (data.drop nPos).take 65536
  let nRead := pchData.length
  if nRead ≤ 8 then .stop nullIndex
  else match memchr m.b0 pchData (nRead + 1 - 4) with
    | some k =>
      if (pchData.drop k).take 4 = m.bytes then .stop ((nPos + k + 4) % 2 ^ 32)
      else .more ((nPos + k + 1) % 2 ^ 32)
    | none => .more ((nPos + (65536 - 4 + 1)) % 2 ^ 32)

/-- The search's `do` loop (`main.cpp:3126`), with `fRequestShutdown` never set; `none` when
the fuel runs out. -/
def findMagic (m : MessageStart) (data : List UInt8) : Nat → Nat → Option Nat
  | 0, _ => none
  | fuel + 1, nPos =>
    match searchStep m data nPos with
    | .stop nPos => some nPos
    | .more nPos => findMagic m data fuel nPos

/-- Where the search stops does not depend on the fuel it was given. -/
theorem findMagic_unique {m : MessageStart} {data : List UInt8} :
    ∀ {f₁ f₂ nPos r₁ r₂ : Nat}, findMagic m data f₁ nPos = some r₁ → findMagic m data f₂ nPos = some r₂ →
      r₁ = r₂
  | 0, _, _, _, _, h, _ => nomatch h
  | _ + 1, 0, _, _, _, _, h => nomatch h
  | _ + 1, _ + 1, nPos, _, _, h₁, h₂ => by
    unfold findMagic at h₁ h₂
    split at h₁ <;> rename_i heq <;> rw [heq] at h₂
    · exact Option.some.inj (h₁.symm.trans h₂)
    · exact findMagic_unique h₁ h₂

section Window

variable {m : MessageStart} {data : List UInt8} {nPos : Nat}

theorem window_getElem? {j : Nat} (hj : j < 65536) :
    ((data.drop nPos).take 65536)[j]? = data[nPos + j]? := by
  rw [List.getElem?_take_of_lt hj, List.getElem?_drop]

theorem window_take {k : Nat} (hk : k + 4 ≤ 65536) :
    (((data.drop nPos).take 65536).drop k).take 4 = (data.drop (nPos + k)).take 4 := by
  rw [List.drop_take, List.take_take, List.drop_drop, Nat.min_eq_left (by omega)]

/-- No occurrence starts at a byte other than the magic's first. -/
theorem not_occursAt_of_window {j : Nat} (hj : j < 65536)
    (hb : ((data.drop nPos).take 65536)[j]? ≠ some m.b0) : ¬ OccursAt m data (nPos + j) :=
  fun h => hb (by rw [window_getElem? hj]; exact h.getElem?)

/-- **One pass of the search.** In a file shorter than `2^32 - 65536` bytes, a pass stops
with `(unsigned int)-1` when fewer than nine bytes are left; otherwise it stops past an
occurrence with none before it, or moves on to a later offset with no occurrence in between. -/
theorem searchStep_cases (hL : data.length < 2 ^ 32 - 65536) :
    (data.length < nPos + 9 ∧ searchStep m data nPos = .stop nullIndex) ∨
    (nPos + 9 ≤ data.length ∧ ∃ k, searchStep m data nPos = .stop (nPos + k + 4) ∧
      OccursAt m data (nPos + k) ∧ ∀ i, nPos ≤ i → i < nPos + k → ¬ OccursAt m data i) ∨
    (nPos + 9 ≤ data.length ∧ ∃ n', searchStep m data nPos = .more n' ∧ nPos < n' ∧
      ∀ i, nPos ≤ i → i < n' → ¬ OccursAt m data i) := by
  have hlen : ((data.drop nPos).take 65536).length = min 65536 (data.length - nPos) := by simp
  unfold searchStep
  dsimp only
  split
  · exact .inl ⟨by omega, rfl⟩
  have hfit : nPos + 9 ≤ data.length := by omega
  -- an offset below the first byte found, or below the end of the window's search
  have hbefore : ∀ k, (∀ j < k, ((data.drop nPos).take 65536)[j]? ≠ some m.b0) → k < 65536 →
      ∀ i, nPos ≤ i → i < nPos + k → ¬ OccursAt m data i := fun k hk hk' i hi hik => by
    obtain ⟨j, rfl⟩ : ∃ j, i = nPos + j := ⟨i - nPos, by omega⟩
    exact not_occursAt_of_window (by omega) (hk j (by omega))
  split
  · next k hk =>
    obtain ⟨hkn, -, hk₀⟩ := memchr_eq_some hk
    rw [window_take (by omega)]
    split
    · next hocc =>
      rw [Nat.mod_eq_of_lt (by omega)]
      exact .inr (.inl ⟨hfit, k, rfl, hocc, hbefore k hk₀ (by omega)⟩)
    · next hocc =>
      refine .inr (.inr ⟨hfit, _, rfl, by omega, fun i hi hik => ?_⟩)
      rw [Nat.mod_eq_of_lt (by omega)] at hik
      rcases Nat.lt_or_eq_of_le (Nat.le_of_lt_succ hik) with hik | rfl
      · exact hbefore k hk₀ (by omega) i hi hik
      · exact hocc
  · next hk =>
    refine .inr (.inr ⟨hfit, _, rfl, by omega, fun i hi hik => ?_⟩)
    rw [Nat.mod_eq_of_lt (by omega)] at hik
    by_cases hend : i + 3 < data.length
    · -- checked for the first byte
      exact hbefore _ (memchr_eq_none hk) (by omega) i hi (by omega)
    · -- too near the end of the file for four bytes
      exact fun h => hend (by have := h.le_length; omega)

end Window

/-- Modelled from the spec: what a search from `start` that ends with `r` must satisfy. If
`r` is not `(unsigned int)-1`, `r - 4` is the first offset at or after `start` where the
magic occurs; if it is, no occurrence starts in `[start, L - 9]`. -/
def SearchSpec (m : MessageStart) (data : List UInt8) (start r : Nat) : Prop :=
  (r ≠ nullIndex → start + 4 ≤ r ∧ OccursAt m data (r - 4) ∧
    ∀ i, start ≤ i → i < r - 4 → ¬ OccursAt m data i) ∧
  (r = nullIndex → ∀ i, start ≤ i → i + 9 ≤ data.length → ¬ OccursAt m data i)

/-- **The search ends and finds the first occurrence.** In a file shorter than
`2^32 - 65536` bytes, a search from `nPos` with no occurrence in `[start, nPos)` and fuel for
one pass per byte left stops, and where it stops meets `SearchSpec` from `start`. -/
theorem findMagic_spec {m : MessageStart} {data : List UInt8} (hL : data.length < 2 ^ 32 - 65536)
    (start : Nat) :
    ∀ (fuel nPos : Nat), start ≤ nPos → (∀ i, start ≤ i → i < nPos → ¬ OccursAt m data i) →
      data.length - nPos < fuel → ∃ r, findMagic m data fuel nPos = some r ∧ SearchSpec m data start r
  | 0, _, _, _, hf => absurd hf (Nat.not_lt_zero _)
  | fuel + 1, nPos, hs, hinv, hf => by
    unfold findMagic
    rcases @searchStep_cases m data nPos hL with ⟨hend, he⟩ | ⟨hfit, k, he, hocc, hnone⟩ |
      ⟨hfit, n', he, hlt, hnone⟩
    · -- fewer than nine bytes left: nothing more to search
      rw [he]
      exact ⟨_, rfl, fun h => absurd rfl h, fun _ i hi hi9 => hinv i hi (by omega)⟩
    · -- the first occurrence
      rw [he]
      refine ⟨_, rfl, fun _ => ⟨by omega, by rwa [Nat.add_sub_cancel], fun i hi hik => ?_⟩, fun h => ?_⟩
      · rw [Nat.add_sub_cancel] at hik
        exact if h : i < nPos then hinv i hi h else hnone i (by omega) hik
      · have := hocc.le_length
        simp only [nullIndex] at h
        omega
    · -- move on
      rw [he]
      exact findMagic_spec hL start fuel n' (by omega)
        (fun i hi hin => if h : i < nPos then hinv i hi h else hnone i (by omega) hin) (by omega)

/-! ## The scan -/

/-- `blkdat >> nSize`: the four bytes at `nPos`, least significant first; `none` where the
file ends first, where `CAutoFile` throws. -/
def readUInt32 (data : List UInt8) (nPos : Nat) : Option Nat :=
  match (data.drop nPos).take 4 with
  | [b0, b1, b2, b3] => some (b0.toNat + 256 * b1.toNat + 65536 * b2.toNat + 16777216 * b3.toNat)
  | _ => none

theorem readUInt32_le_length {data : List UInt8} {nPos nSize : Nat} (h : readUInt32 data nPos = some nSize) :
    nPos + 4 ≤ data.length := by
  unfold readUInt32 at h
  split at h
  · next heq =>
    have := congrArg List.length heq
    simp only [List.length_take, List.length_drop, List.length_cons, List.length_nil] at this
    omega
  · cases h

/-- The scan loop of `LoadExternalBlockFile` (`main.cpp:3122`), with `fRequestShutdown` never
set, at pass `round` from `nPos` with `nLoaded` blocks loaded. `fDeserialize round` and
`fProcess round` are the outcomes of `blkdat >> block` and `ProcessNewBlock` in that pass;
a failed read throws, and the `catch` ends the scan. `none` when the fuel runs out, which
also bounds each search; otherwise the number of blocks loaded when the scan ends. -/
def scanLoop (MAX_BLOCK_SIZE : Nat) (m : MessageStart) (data : List UInt8) (fDeserialize fProcess : Nat → Bool) :
    Nat → Nat → Nat → Nat → Option Nat
  | 0, _, _, _ => none
  | fuel + 1, round, nPos, nLoaded =>
    if nPos = nullIndex then some nLoaded else
    match findMagic m data (fuel + 1) nPos with
    | none => none
    | some nPos =>
      if nPos = nullIndex then some nLoaded else
      match readUInt32 data nPos with
      | none => some nLoaded
      | some nSize =>
        if 0 < nSize ∧ nSize ≤ MAX_BLOCK_SIZE then
          if fDeserialize round then
            if fProcess round then
              scanLoop MAX_BLOCK_SIZE m data fDeserialize fProcess fuel (round + 1) ((nPos + 4 + nSize) % 2 ^ 32)
                (nLoaded + 1)
            else scanLoop MAX_BLOCK_SIZE m data fDeserialize fProcess fuel (round + 1) nPos nLoaded
          else some nLoaded
        else scanLoop MAX_BLOCK_SIZE m data fDeserialize fProcess fuel (round + 1) nPos nLoaded

/-- `LoadExternalBlockFile(fileIn)` (`main.cpp:3110`): whether a block was loaded. -/
def LoadExternalBlockFile (MAX_BLOCK_SIZE : Nat) (m : MessageStart) (data : List UInt8)
    (fDeserialize fProcess : Nat → Bool) (fuel : Nat) : Option Bool :=
  (scanLoop MAX_BLOCK_SIZE m data fDeserialize fProcess fuel 0 0 0).map (0 < ·)

section Scan

variable {MAX_BLOCK_SIZE : Nat} {m : MessageStart} {data : List UInt8} {fDeserialize fProcess : Nat → Bool}

/-- **The scan ends when skipping a record cannot wrap.** In a file shorter than
`2^32 - 65536` bytes with `L + MAX_BLOCK_SIZE < 2^32`, a scan from `nPos` with fuel above
`L + 1 - nPos` ends, whatever the reads and `ProcessNewBlock` return: each pass that goes on
moves the scan past a magic found at or after `nPos`, and no move wraps. -/
theorem scanLoop_terminates (hL : data.length < 2 ^ 32 - 65536) (hmax : data.length + MAX_BLOCK_SIZE < 2 ^ 32) :
    ∀ (fuel round nPos nLoaded : Nat), data.length + 1 - nPos < fuel →
      ∃ n, scanLoop MAX_BLOCK_SIZE m data fDeserialize fProcess fuel round nPos nLoaded = some n
  | 0, _, _, _, hf => absurd hf (Nat.not_lt_zero _)
  | fuel + 1, round, nPos, nLoaded, hf => by
    unfold scanLoop
    split
    · exact ⟨_, rfl⟩
    obtain ⟨r, hr, hnull, -⟩ := @findMagic_spec m data hL nPos (fuel + 1) nPos le_rfl
      (fun _ h h' => absurd h' (Nat.not_lt.2 h)) (by omega)
    rw [hr]
    dsimp only
    split
    · exact ⟨_, rfl⟩
    · next hne =>
      obtain ⟨hr4, hocc, -⟩ := hnull hne
      have := hocc.le_length
      split
      · exact ⟨_, rfl⟩
      · next nSize hsize =>
        have := readUInt32_le_length hsize
        -- every way on starts again past `nPos`, at most `MAX_BLOCK_SIZE` past the end
        have ih := fun nPos' nLoaded' (h₁ : r ≤ nPos') (h₂ : nPos' ≤ data.length + MAX_BLOCK_SIZE) =>
          scanLoop_terminates hL hmax fuel (round + 1) nPos' nLoaded' (by omega)
        split
        · next hin =>
          split
          · split
            · exact ih _ _ (by rw [Nat.mod_eq_of_lt (by omega)]; omega) (by rw [Nat.mod_eq_of_lt (by omega)]; omega)
            · exact ih _ _ le_rfl (by omega)
          · exact ⟨_, rfl⟩
        · exact ih _ _ le_rfl (by omega)

end Scan

/-- **The search finds the first magic, and the scan ends, when the file and a record fit
below `2^32`.** In a file of length `L < 2^32 - 65536`, the search from any `start` ends, past
the first occurrence at or after `start` or with `(unsigned int)-1` when none starts in
`[start, L - 9]`; and when also `L + MAX_BLOCK_SIZE < 2^32`, `LoadExternalBlockFile` ends for
every outcome of the block reads and of `ProcessNewBlock`. -/
theorem LoadExternalBlockFile_scan (m : MessageStart) (data : List UInt8) (hL : data.length < 2 ^ 32 - 65536) :
    (∀ start, ∃ r, findMagic m data (data.length + 1) start = some r ∧ SearchSpec m data start r) ∧
      ∀ (MAX_BLOCK_SIZE : Nat) (fDeserialize fProcess : Nat → Bool), data.length + MAX_BLOCK_SIZE < 2 ^ 32 →
        ∃ fuel loaded, LoadExternalBlockFile MAX_BLOCK_SIZE m data fDeserialize fProcess fuel = some loaded := by
  refine ⟨fun start => findMagic_spec hL start _ start le_rfl (fun _ h h' => absurd h' (Nat.not_lt.2 h))
    (by omega), fun MAX_BLOCK_SIZE fDeserialize fProcess hmax => ?_⟩
  obtain ⟨n, hn⟩ := @scanLoop_terminates MAX_BLOCK_SIZE m data fDeserialize fProcess hL hmax
    (data.length + 2) 0 0 0 (by omega)
  exact ⟨data.length + 2, _, by rw [LoadExternalBlockFile, hn]; rfl⟩

/-- A file of one record: the magic, a size of one and a one-byte block. -/
def oneRecordFile : List UInt8 := pchMessageStart.bytes ++ [1, 0, 0, 0, 0]

theorem LoadExternalBlockFile_scan_one_record :
    oneRecordFile.length < 2 ^ 32 - 65536 ∧
      ((∀ start, ∃ r, findMagic pchMessageStart oneRecordFile (oneRecordFile.length + 1) start = some r ∧
          SearchSpec pchMessageStart oneRecordFile start r) ∧
        ∀ (MAX_BLOCK_SIZE : Nat) (fDeserialize fProcess : Nat → Bool), oneRecordFile.length + MAX_BLOCK_SIZE < 2 ^ 32 →
          ∃ fuel loaded,
            LoadExternalBlockFile MAX_BLOCK_SIZE pchMessageStart oneRecordFile fDeserialize fProcess fuel = some loaded) :=
  ⟨by decide, LoadExternalBlockFile_scan pchMessageStart oneRecordFile (by decide)⟩

/-! ## A scan that wraps -/

/-- A scan whose search from the start of the file stops past a magic at `r` whose record
is read, in range and taken, and whose skip wraps back to the start, never ends. -/
theorem scanLoop_wraps {MAX_BLOCK_SIZE : Nat} {m : MessageStart} {data : List UInt8} {r nSize : Nat}
    (hfind : ∀ fuel r', findMagic m data fuel 0 = some r' → r' = r) (hr : r ≠ nullIndex)
    (hsize : readUInt32 data r = some nSize) (hin : 0 < nSize ∧ nSize ≤ MAX_BLOCK_SIZE)
    (hwrap : (r + 4 + nSize) % 2 ^ 32 = 0) :
    ∀ fuel round nLoaded, scanLoop MAX_BLOCK_SIZE m data (fun _ => true) (fun _ => true) fuel round 0 nLoaded = none
  | 0, _, _ => rfl
  | fuel + 1, round, nLoaded => by
    unfold scanLoop
    rw [if_neg (by simp [nullIndex])]
    split
    · rfl
    · next r' hr' =>
      obtain rfl := hfind _ _ hr'
      rw [if_neg hr, hsize]
      dsimp only
      rw [if_pos hin, if_pos rfl, if_pos rfl, hwrap]
      exact scanLoop_wraps hfind hr hsize hin hwrap fuel (round + 1) (nLoaded + 1)

/-- The offset of the record in `wrapFile`: `2^32 - 1000008`. -/
def wrapOffset : Nat := 4293967288

/-- A file of `2^32 - 999999` bytes: zeros, then at `wrapOffset` a record of the main
network's magic, a size field of `1000000` (`MAX_BLOCK_SIZE`) and one byte of block. A block's
serialisation need not take the size its field gives, so the file can end there. -/
def wrapFile : List UInt8 := (List.replicate wrapOffset 0 ++ pchMessageStart.bytes) ++ [0x40, 0x42, 0x0f, 0x00, 0]

theorem wrapFile_length : wrapFile.length = wrapOffset + 9 := by
  rw [wrapFile, List.length_append, List.length_append, List.length_replicate]
  rfl

theorem wrapFile_occursAt : OccursAt pchMessageStart wrapFile wrapOffset := by
  rw [OccursAt, wrapFile, List.append_assoc, List.drop_left' (List.length_replicate _ _)]
  rfl

theorem wrapFile_not_occursAt {i : Nat} (hi : i < wrapOffset) : ¬ OccursAt pchMessageStart wrapFile i := by
  intro h
  have := h.getElem?
  rw [wrapFile, List.append_assoc, List.getElem?_append_left (by rwa [List.length_replicate]),
    List.getElem?_replicate, if_pos hi] at this
  exact absurd this (by decide)

/-- **The scan of `wrapFile` never ends.** The file is shorter than `2^32 - 65536` bytes, but
when every block read succeeds and `ProcessNewBlock` takes every block, the scan finds the
record at `wrapOffset`, adds `4 + 1000000` to the position past its magic, wraps to zero and
finds the same record again, for any fuel. -/
theorem LoadExternalBlockFile_wraps :
    wrapFile.length < 2 ^ 32 - 65536 ∧
      ∀ fuel, LoadExternalBlockFile 1000000 pchMessageStart wrapFile (fun _ => true) (fun _ => true) fuel = none := by
  have hL : wrapFile.length < 2 ^ 32 - 65536 := by rw [wrapFile_length, wrapOffset]; omega
  refine ⟨hL, fun fuel => ?_⟩
  -- the search from the start stops past the magic at `wrapOffset`
  obtain ⟨r, hr, hnull, hnone⟩ := @findMagic_spec pchMessageStart wrapFile hL 0 (wrapFile.length + 1) 0 le_rfl
    (fun _ _ h => absurd h (Nat.not_lt_zero _)) (by omega)
  have hne : r ≠ nullIndex := fun h =>
    hnone h wrapOffset (Nat.zero_le _) (by rw [wrapFile_length]) wrapFile_occursAt
  obtain ⟨hr4, hocc, hfirst⟩ := hnull hne
  have hrval : r = wrapOffset + 4 := by
    have h₁ : ¬ r - 4 < wrapOffset := fun h => wrapFile_not_occursAt h hocc
    have h₂ : ¬ wrapOffset < r - 4 := fun h => hfirst _ (Nat.zero_le _) h wrapFile_occursAt
    omega
  subst hrval
  have hsize : readUInt32 wrapFile (wrapOffset + 4) = some 1000000 := by
    rw [readUInt32, wrapFile, List.drop_left' (by rw [List.length_append, List.length_replicate]; rfl)]
    rfl
  rw [LoadExternalBlockFile, scanLoop_wraps (fun _ _ h => findMagic_unique h hr) (by decide)
    hsize (by decide) (by decide) fuel 0 0]
  rfl

end NeutronCore
