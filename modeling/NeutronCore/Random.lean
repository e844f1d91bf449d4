/-
The fast random generators of `random.h`: `insecure_rand` (`random.h:41`) and
`FastRandomContext::rand32` (`random.h:56`). Both are George Marsaglia's multiply-with-carry
generator on two 32-bit halves, and both perform the same update.

Each half steps by `x ↦ a · (x mod 2¹⁶) + ⌊x / 2¹⁶⌋`, with `a = 36969` for `Rz` and
`a = 18000` for `Rw`. The sum stays below `2³²`, so the `uint32_t` arithmetic never wraps,
and a step is read on the two 16-bit limbs of the half (`mwcStep_limbs`). A half at `0` or at
`a · 2¹⁶ - 1` (`0x9068FFFF`, `0x464FFFFF`) is fixed. The step is not one-to-one. `Rz` reaches
a fixed point only from a fixed point (`mwcStep_Rz_mem`). `Rw` reaches `0x464FFFFF` in one
step from two more seeds, `0x8C9FFFFE` (`rand32_Rw_collapses`) and `0xD2EFFFFD`. Those four
values of `Rw` are closed under the step, and so is the rest (`mwcStep_Rw_mem`).

So a seed outside the two fixed points of `Rz` and those four values of `Rw` keeps both
halves away from their fixed points forever (`rand32_avoids_fixed_points`). The seed
`Rw = 0x8C9FFFFE`, which is no fixed point, makes `Rw` constant after one draw
(`rand32_Rw_collapses`).
-/
import NeutronCore.Basic

set_option autoImplicit false

namespace NeutronCore

/-! ## The generators -/

/-- One multiply-with-carry step of a half of the state, as both generators write it
(`random.h:45`, `random.h:57`): the low 16 bits times the multiplier, plus the high 16 bits,
on `uint32_t`. -/
def mwcStep (a x : BitVec 32) : BitVec 32 := a * (x &&& 65535#32) + (x >>> 16)

/-- One draw from the halves `Rz` and `Rw` (`random.h:45`–`47`, `random.h:57`–`59`): the
draw `(Rw << 16) + Rz` and the two new halves. -/
def mwcDraw (Rz Rw : BitVec 32) : BitVec 32 × BitVec 32 × BitVec 32 :=
  let Rz := mwcStep 36969#32 Rz
  let Rw := mwcStep 18000#32 Rw
  ((Rw <<< 16) + Rz, Rz, Rw)

/-- `FastRandomContext`: the two halves of its state. -/
structure FastRandomContext where
  Rz : BitVec 32
  Rw : BitVec 32
deriving DecidableEq, Repr

/-- `FastRandomContext::rand32()` (`random.h:56`). -/
def FastRandomContext.rand32 (ctx : FastRandomContext) : BitVec 32 × FastRandomContext :=
  let (r, Rz, Rw) := mwcDraw ctx.Rz ctx.Rw
  (r, ⟨Rz, Rw⟩)

/-- The globals `insecure_rand_Rz` and `insecure_rand_Rw`. -/
structure InsecureRandState where
  insecure_rand_Rz : BitVec 32
  insecure_rand_Rw : BitVec 32
deriving DecidableEq, Repr

/-- `insecure_rand()` (`random.h:41`), on its two globals. -/
def insecure_rand (g : InsecureRandState) : BitVec 32 × InsecureRandState :=
  let (r, Rz, Rw) := mwcDraw g.insecure_rand_Rz g.insecure_rand_Rw
  (r, ⟨Rz, Rw⟩)

/-- The fixed points of the `Rz` step. -/
def RzFixed : List (BitVec 32) := [0#32, 0x9068FFFF#32]

/-- The fixed points of the `Rw` step. -/
def RwFixed : List (BitVec 32) := [0#32, 0x464FFFFF#32]

/-- The values of `Rw` that are or step to a fixed point. -/
def RwCollapse : List (BitVec 32) := [0#32, 0x464FFFFF#32, 0x8C9FFFFE#32, 0xD2EFFFFD#32]

/-! ## One step on the limbs -/

/-- **A step on the limbs.** For a multiplier below `2¹⁶`, the step of a half with limbs
`hi`, `lo` is `a · lo + hi`, with no wrap. -/
theorem mwcStep_limbs (a x : BitVec 32) (ha : a.toNat < 2 ^ 16) :
    ∃ lo hi, lo < 2 ^ 16 ∧ hi < 2 ^ 16 ∧ x.toNat = 2 ^ 16 * hi + lo ∧
      (mwcStep a x).toNat = a.toNat * lo + hi := by
  have hx := x.isLt
  have hprod : a.toNat * (x.toNat % 2 ^ 16) ≤ (2 ^ 16 - 1) * (2 ^ 16 - 1) :=
    Nat.mul_le_mul (by omega) (by omega)
  refine ⟨_, _, Nat.mod_lt _ (by decide), by omega, (Nat.div_add_mod _ _).symm, ?_⟩
  rw [mwcStep, BitVec.toNat_add, BitVec.toNat_mul, BitVec.toNat_and, BitVec.toNat_ushiftRight,
    Nat.shiftRight_eq_div_pow, BitVec.toNat_ofNat, show 65535 % 2 ^ 32 = 2 ^ 16 - 1 from rfl,
    Nat.and_pow_two_sub_one_eq_mod, Nat.mod_eq_of_lt (by omega), Nat.mod_eq_of_lt (by omega)]

/-- `Rz` steps to a fixed point only from a fixed point. -/
theorem mwcStep_Rz_mem (x : BitVec 32) : mwcStep 36969#32 x ∈ RzFixed ↔ x ∈ RzFixed := by
  obtain ⟨lo, hi, hlo, hhi, hx, hs⟩ := mwcStep_limbs 36969#32 x (by decide)
  simp only [RzFixed, List.mem_cons, List.mem_nil_iff, or_false, BitVec.toNat_eq, hs, hx,
    BitVec.toNat_ofNat, Nat.reducePow, Nat.reduceMod]
  omega

/-- The collapsing values of `Rw` are closed under the step, and so is the rest: the two
that are no fixed point have no predecessor. -/
theorem mwcStep_Rw_mem (x : BitVec 32) : mwcStep 18000#32 x ∈ RwCollapse ↔ x ∈ RwCollapse := by
  obtain ⟨lo, hi, hlo, hhi, hx, hs⟩ := mwcStep_limbs 18000#32 x (by decide)
  simp only [RwCollapse, List.mem_cons, List.mem_nil_iff, or_false, BitVec.toNat_eq, hs, hx,
    BitVec.toNat_ofNat, Nat.reducePow, Nat.reduceMod]
  omega

/-! ## Runs

Both generators step their halves by `mwcStep`; what follows is said once for any state
with two halves that step so. -/

section Runs

variable {σ : Type} (f : σ → σ) (rz rw : σ → BitVec 32)
  (hz : ∀ s, rz (f s) = mwcStep 36969#32 (rz s)) (hw : ∀ s, rw (f s) = mwcStep 18000#32 (rw s))

include hz hw in
/-- Halves outside `RzFixed` and `RwCollapse` stay outside them, draw after draw. -/
theorem halves_avoid (s : σ) (h₁ : rz s ∉ RzFixed) (h₂ : rw s ∉ RwCollapse) :
    ∀ n, rz (f^[n] s) ∉ RzFixed ∧ rw (f^[n] s) ∉ RwCollapse
  | 0 => ⟨h₁, h₂⟩
  | n + 1 => by
    obtain ⟨ih₁, ih₂⟩ := halves_avoid s h₁ h₂ n
    rw [Function.iterate_succ_apply', hz, hw, mwcStep_Rz_mem, mwcStep_Rw_mem]
    exact ⟨ih₁, ih₂⟩

include hw in
/-- A half `Rw` that steps to `0x464FFFFF` stays there. -/
theorem Rw_stays (s : σ) (h : mwcStep 18000#32 (rw s) = 0x464FFFFF#32) :
    ∀ n, rw (f^[n + 1] s) = 0x464FFFFF#32
  | 0 => (hw s).trans h
  | n + 1 => by
    rw [Function.iterate_succ_apply', hw, Rw_stays s h n]
    decide

end Runs

/-- **Neither half reaches a fixed point from a seed outside the collapsing values.** For
`FastRandomContext::rand32` and for `insecure_rand`: when `Rz` is none of its two fixed
points and `Rw` none of its two fixed points and none of `0x8C9FFFFE` and `0xD2EFFFFD`,
no number of draws brings `Rz` or `Rw` to a fixed point of its step. -/
theorem rand32_avoids_fixed_points :
    (∀ ctx : FastRandomContext, ctx.Rz ∉ RzFixed → ctx.Rw ∉ RwCollapse → ∀ n,
      ((fun c : FastRandomContext => c.rand32.2)^[n] ctx).Rz ∉ RzFixed ∧
        ((fun c : FastRandomContext => c.rand32.2)^[n] ctx).Rw ∉ RwFixed) ∧
    ∀ g : InsecureRandState, g.insecure_rand_Rz ∉ RzFixed → g.insecure_rand_Rw ∉ RwCollapse → ∀ n,
      ((fun g => (insecure_rand g).2)^[n] g).insecure_rand_Rz ∉ RzFixed ∧
        ((fun g => (insecure_rand g).2)^[n] g).insecure_rand_Rw ∉ RwFixed := by
  have hsub : RwFixed ⊆ RwCollapse := by decide
  refine ⟨fun ctx h₁ h₂ n => ?_, fun g h₁ h₂ n => ?_⟩
  · obtain ⟨hz, hw⟩ := halves_avoid (fun c : FastRandomContext => c.rand32.2) FastRandomContext.Rz
      FastRandomContext.Rw (fun _ => rfl) (fun _ => rfl) ctx h₁ h₂ n
    exact ⟨hz, fun h => hw (hsub h)⟩
  · obtain ⟨hz, hw⟩ := halves_avoid (fun g => (insecure_rand g).2) InsecureRandState.insecure_rand_Rz
      InsecureRandState.insecure_rand_Rw (fun _ => rfl) (fun _ => rfl) g h₁ h₂ n
    exact ⟨hz, fun h => hw (hsub h)⟩

/-- The deterministic seed `Rz = Rw = 11` collapses neither half. -/
theorem rand32_avoids_fixed_points_seed_eleven :
    (11#32 ∉ RzFixed ∧ 11#32 ∉ RwCollapse) ∧ ∀ n,
      ((fun c : FastRandomContext => c.rand32.2)^[n] ⟨11#32, 11#32⟩).Rz ∉ RzFixed ∧
        ((fun c : FastRandomContext => c.rand32.2)^[n] ⟨11#32, 11#32⟩).Rw ∉ RwFixed :=
  have h : 11#32 ∉ RzFixed ∧ 11#32 ∉ RwCollapse := by decide
  ⟨h, rand32_avoids_fixed_points.1 ⟨11#32, 11#32⟩ h.1 h.2⟩

/-- **A seed off the fixed points that collapses.** `Rw = 0x8C9FFFFE` is no fixed point of
its step, yet after one draw of either generator `Rw` is `0x464FFFFF` and stays there. -/
theorem rand32_Rw_collapses :
    0x8C9FFFFE#32 ∉ RwFixed ∧
      (∀ n, ((fun c : FastRandomContext => c.rand32.2)^[n + 1] ⟨1#32, 0x8C9FFFFE#32⟩).Rw = 0x464FFFFF#32) ∧
      ∀ n, ((fun g => (insecure_rand g).2)^[n + 1] ⟨1#32, 0x8C9FFFFE#32⟩).insecure_rand_Rw = 0x464FFFFF#32 :=
  have h : mwcStep 18000#32 0x8C9FFFFE#32 = 0x464FFFFF#32 := by decide
  ⟨by decide, Rw_stays (fun c : FastRandomContext => c.rand32.2) FastRandomContext.Rw (fun _ => rfl) _ h,
    Rw_stays (fun g => (insecure_rand g).2) InsecureRandState.insecure_rand_Rw (fun _ => rfl) _ h⟩

end NeutronCore
