/-
The compact encoding of targets (`nBits`) and the two consumers of it that are plain
arithmetic: `CBlockIndex::GetBlockTrust` and `CheckProofOfWork`.

`CBigNum` lives in `bignum.h`, which is not under `src/`. Spec §4.5 and §4.9 say only that
`nBits` is decoded "as compact target" and that a target is "returned as compact nBits";
the two functions below are the compact format those words refer to, the one every
Bitcoin descendant shares: a byte length in the top byte, a sign bit, and a 23-bit
mantissa. A `CBigNum` is signed, so a decoded target is an `Int`.
-/
import NeutronCore.Basic

set_option autoImplicit false

namespace NeutronCore

/-- Modelled from the spec: `CBigNum::SetCompact` is in `bignum.h`, which is not under
`src/` (spec §4.5, "decode nBits as compact target"). -/
def SetCompact (nCompact : Nat) : Int :=
  let nSize := nCompact >>> 24
  let nWord := nCompact &&& 0x007fffff
  let v : Nat := if nSize ≤ 3 then nWord >>> (8 * (3 - nSize)) else nWord <<< (8 * (nSize - 3))
  if nCompact &&& 0x00800000 = 0 then v else -(v : Int)

/-- The bytes of `v`, counted by shifting it out; `fuel` bounds the count. -/
def numBytesAux : Nat → Nat → Nat
  | 0, _ => 0
  | fuel + 1, v => if v = 0 then 0 else numBytesAux fuel (v >>> 8) + 1

/-- `BN_num_bytes`: the length in bytes of a magnitude. A number has fewer bytes than it
has units, so `v` itself is enough fuel. -/
def numBytes (v : Nat) : Nat := numBytesAux v v

/-- Modelled from the spec: `CBigNum::GetCompact` is in `bignum.h`, which is not under
`src/` (spec §4.9, "returned as compact nBits"). The result is an `unsigned int`. -/
def GetCompact (bn : Int) : Nat :=
  let m := bn.natAbs
  let nSize := numBytes m
  let w : Nat := if nSize ≤ 3 then (m <<< (8 * (3 - nSize))) % 2 ^ 32
    else (m >>> (8 * (nSize - 3))) % 2 ^ 32
  let (w, nSize) := if w &&& 0x00800000 = 0 then (w, nSize) else (w >>> 8, nSize + 1)
  (w ||| (nSize <<< 24) % 2 ^ 32 ||| (if bn < 0 then 0x00800000 else 0)) % 2 ^ 32

/-- `CBlockIndex::GetBlockTrust` (`main.cpp:2533`): `2^256 / (target + 1)`, and 0 for a
target that is not positive. -/
def GetBlockTrust (nBits : Nat) : Nat :=
  let bnTarget := SetCompact nBits
  if bnTarget ≤ 0 then 0 else 2 ^ 256 / (bnTarget.toNat + 1)

/-- `CheckProofOfWork` (`main.cpp:1043`): the target is in range and the hash is at most
the target. -/
def CheckProofOfWork (p : Params) (hash : Hash) (nBits : Nat) : Bool :=
  let bnTarget := SetCompact nBits
  if bnTarget ≤ 0 ∨ bnTarget > p.bnProofOfWorkLimit then false
  else decide ((hash : Int) ≤ bnTarget)

/-! ## The round trip on a positive target

Spec §4.9 clamps a new target to `(0, limit]` and returns it "as compact nBits"; what a
reader of `nBits` then sees is `SetCompact (GetCompact x)`. For a positive `x` below
`2^256` that is `x` with all but its top three bytes cleared: positive, and at most `x`
(`SetCompact_GetCompact`). The shifts and masks are read as divisions and remainders. -/

theorem numBytesAux_zero : ∀ fuel, numBytesAux fuel 0 = 0
  | 0 => rfl
  | _ + 1 => rfl

/-- With enough fuel `numBytesAux` finds the length `k` of `v` in bytes: `v < 2^(8k)`, and
for a positive `v` the top byte is not zero, `2^(8k) ≤ 256 v`. -/
theorem numBytesAux_bounds : ∀ (fuel v : Nat), v ≤ fuel →
    v < 2 ^ (8 * numBytesAux fuel v) ∧ (0 < v → 2 ^ (8 * numBytesAux fuel v) ≤ 256 * v)
  | 0, v, h => by simp only [numBytesAux]; omega
  | fuel + 1, v, h => by
    rw [numBytesAux]
    split
    · omega
    · rw [Nat.shiftRight_eq_div_pow]
      obtain ⟨hlt, hle⟩ := numBytesAux_bounds fuel (v / 2 ^ 8) (by omega)
      have e : 2 ^ (8 * (numBytesAux fuel (v / 2 ^ 8) + 1)) =
          2 ^ (8 * numBytesAux fuel (v / 2 ^ 8)) * 256 := by
        rw [Nat.mul_succ, Nat.pow_add]
      rw [e]
      refine ⟨by omega, fun _ => ?_⟩
      rcases Nat.eq_zero_or_pos (v / 2 ^ 8) with h0 | hpos
      · rw [h0, numBytesAux_zero]
        omega
      · have := hle hpos
        omega

theorem numBytes_bounds {m : Nat} (hm : 0 < m) :
    m < 2 ^ (8 * numBytes m) ∧ 2 ^ (8 * numBytes m) ≤ 256 * m :=
  have h := numBytesAux_bounds m m le_rfl
  ⟨h.1, h.2 hm⟩

/-- The sign bit of a compact word, as arithmetic. -/
theorem and_signBit_eq_zero (w : Nat) : w &&& 0x00800000 = 0 ↔ w / 2 ^ 23 % 2 = 0 := by
  rw [show (0x00800000 : Nat) = 2 ^ 23 from rfl, Nat.and_two_pow, Nat.testBit_to_div_mod]
  by_cases h : w / 2 ^ 23 % 2 = 1 <;> simp [h]

/-- A mantissa below `2^23` and a size below `2^8` pack into `size · 2^24 + mantissa`. -/
theorem compact_pack {w n : Nat} (hw : w < 2 ^ 23) (hn : n < 2 ^ 8) :
    (w ||| (n <<< 24) % 2 ^ 32 ||| 0) % 2 ^ 32 = 2 ^ 24 * n + w := by
  have hs : (n <<< 24) % 2 ^ 32 = 2 ^ 24 * n := by
    rw [Nat.shiftLeft_eq, Nat.mul_comm, Nat.mod_eq_of_lt (by omega)]
  rw [hs, Nat.or_zero, Nat.or_comm, ← Nat.mul_add_lt_is_or (by omega), Nat.mod_eq_of_lt (by omega)]

/-- Decoding `size · 2^24 + mantissa`: the mantissa shifted by the size. -/
theorem SetCompact_pack {w n : Nat} (hw : w < 2 ^ 23) :
    SetCompact (2 ^ 24 * n + w) =
      ((if n ≤ 3 then w / 2 ^ (8 * (3 - n)) else w * 2 ^ (8 * (n - 3)) : Nat) : Int) := by
  have hsize : (2 ^ 24 * n + w) >>> 24 = n := by
    rw [Nat.shiftRight_eq_div_pow]; omega
  have hword : (2 ^ 24 * n + w) &&& 0x007fffff = w := by
    rw [show (0x007fffff : Nat) = 2 ^ 23 - 1 from rfl, Nat.and_pow_two_sub_one_eq_mod]; omega
  have hsign : (2 ^ 24 * n + w) &&& 0x00800000 = 0 := by
    rw [and_signBit_eq_zero]; omega
  simp only [SetCompact, hsize, hword, hsign, Nat.shiftRight_eq_div_pow, Nat.shiftLeft_eq, if_true]

/-- The last step of `GetCompact` on a magnitude: a mantissa whose top bit would read as the
sign moves one byte down, into a size one larger. -/
theorem SetCompact_normalize {w₀ n : Nat} (hw : w₀ < 2 ^ 24) (hn : n < 2 ^ 8 - 1) :
    SetCompact (((if w₀ &&& 0x00800000 = 0 then (w₀, n) else (w₀ >>> 8, n + 1)).1 |||
      ((if w₀ &&& 0x00800000 = 0 then (w₀, n) else (w₀ >>> 8, n + 1)).2 <<< 24) % 2 ^ 32 ||| 0) %
        2 ^ 32) =
    if w₀ < 2 ^ 23 then SetCompact (2 ^ 24 * n + w₀) else SetCompact (2 ^ 24 * (n + 1) + w₀ / 2 ^ 8) := by
  by_cases hb : w₀ &&& 0x00800000 = 0
  · have : w₀ < 2 ^ 23 := by rw [and_signBit_eq_zero] at hb; omega
    simp only [hb, if_true, this, @compact_pack w₀ n this (by omega)]
  · have : ¬ w₀ < 2 ^ 23 := by rw [and_signBit_eq_zero] at hb; omega
    simp only [hb, if_false, this, Nat.shiftRight_eq_div_pow,
      @compact_pack (w₀ / 2 ^ 8) (n + 1) (by omega) (by omega)]

/-- **The compact round trip rounds a positive target down, and never to zero.** A
positive magnitude below `2^256` encodes to `nBits` whose decoding is positive and at most
the magnitude. -/
theorem SetCompact_GetCompact {m : Nat} (hm : 0 < m) (hlt : m < 2 ^ 256) :
    0 < SetCompact (GetCompact m) ∧ SetCompact (GetCompact m) ≤ m := by
  obtain ⟨hlt8, hle8⟩ := numBytes_bounds hm
  have hn : numBytes m ≤ 32 := by
    have : 2 ^ (8 * numBytes m) < 2 ^ 264 := by omega
    have := (Nat.pow_lt_pow_iff_right (by decide : 1 < 2)).1 this
    omega
  unfold GetCompact
  simp only [Int.natAbs_ofNat, (Nat.cast_pos.2 hm).not_lt, if_false]
  generalize numBytes m = n at hlt8 hle8 hn
  generalize hw : (if n ≤ 3 then m <<< (8 * (3 - n)) % 2 ^ 32 else m >>> (8 * (n - 3)) % 2 ^ 32) = w₀
  rcases Nat.lt_or_ge 3 n with h3 | h3
  · -- more than three bytes: the top three are kept
    rw [if_neg (by omega), Nat.shiftRight_eq_div_pow] at hw
    have hQ : 0 < 2 ^ (8 * (n - 3)) := Nat.two_pow_pos _
    have hP : 2 ^ (8 * n) = 2 ^ (8 * (n - 3)) * 2 ^ 24 := by rw [← Nat.pow_add]; congr 1; omega
    have hhi : m / 2 ^ (8 * (n - 3)) < 2 ^ 24 :=
      (Nat.div_lt_iff_lt_mul hQ).2 (by rw [Nat.mul_comm, ← hP]; exact hlt8)
    have hlo : 2 ^ 16 ≤ m / 2 ^ (8 * (n - 3)) := (Nat.le_div_iff_mul_le hQ).2 (by omega)
    rw [Nat.mod_eq_of_lt (by omega)] at hw
    subst hw
    rw [SetCompact_normalize hhi (by omega)]
    split
    · rw [SetCompact_pack ‹_›, if_neg (by omega), Nat.cast_pos, Nat.cast_le]
      exact ⟨Nat.mul_pos (by omega) hQ, Nat.div_mul_le_self _ _⟩
    · have e : 2 ^ (8 * (n + 1 - 3)) = 2 ^ 8 * 2 ^ (8 * (n - 3)) := by
        rw [← Nat.pow_add]; congr 1; omega
      rw [SetCompact_pack (by omega), if_neg (by omega), Nat.cast_pos, Nat.cast_le, e, ← Nat.mul_assoc]
      exact ⟨Nat.mul_pos (by omega) hQ,
        le_trans (Nat.mul_le_mul_right _ (Nat.div_mul_le_self _ _)) (Nat.div_mul_le_self _ _)⟩
  · -- one to three bytes: the magnitude is shifted up into the mantissa, and back exactly
    rw [if_pos h3, Nat.shiftLeft_eq] at hw
    obtain rfl | rfl | rfl : n = 1 ∨ n = 2 ∨ n = 3 := by
      rcases Nat.eq_zero_or_pos n with rfl | _ <;> omega
    all_goals
      simp only [Nat.reduceSub, Nat.reduceMul, Nat.reducePow, Nat.mul_one] at hw hlt8
      subst hw
      rw [SetCompact_normalize (by omega) (by decide)]
      split <;> rw [SetCompact_pack (by omega)] <;>
        simp only [Nat.reduceLeDiff, Nat.reduceAdd, Nat.reduceSub, Nat.reduceMul, Nat.reducePow, ↓reduceIte,
          Nat.cast_pos, Nat.cast_le] <;> omega

end NeutronCore
