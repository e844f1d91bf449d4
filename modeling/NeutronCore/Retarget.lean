/-
The targets the retarget rule hands out, and the two places that read them back: the
trust of a node (`GetBlockTrust`, `main.cpp:2533`), the range test of `CheckProofOfWork`
(`main.cpp:1043`), and the minimum-work guard of `ProcessNewBlock` (`main.cpp:2589`).

`GetNextTargetRequired` (`main.cpp:1005`) clamps the retargeted value to `(0, limit]`
before it encodes it (`main.cpp:1036`), and the compact round trip only clears low bytes
(`SetCompact_GetCompact`); so every target it hands out decodes into `(0, limit]`, and a
block `AcceptBlock` indexes has a trust of at least one (`target_in_range`).

The clamp treats a value that rounds down to zero as out of range and replaces it by the
limit. From the smallest target, 1, the rule gives 0 for blocks that come at once and so
the easiest target, while blocks a full spacing apart keep the target at 1
(`retarget_faster_easier`).

The guard of `ProcessNewBlock` bounds how far a target may have eased since the last
synchronized checkpoint: twice the checkpoint's, and twice again per started day
(`ComputeMaxBits`, `main.cpp:962`). One retarget after a three-hour gap eases by
`(14 · 79 + 2 · 10800) / (16 · 79)`, almost eighteen times, so a block whose bits are
exactly those the retarget rule requires is refused when it arrives off the tip
(`stall_sibling_rejected`).
-/
import NeutronCore.Runs

set_option autoImplicit false

namespace NeutronCore

/-! ## Every target is in range -/

/-- `GetNextTargetRequired` encodes a value of `(0, limit]`: the limit itself, or a
retargeted value the clamp let through. -/
theorem GetNextTargetRequired_eq_GetCompact (p : Params) (s : ChainState) (pindexLast : BlockIndex)
    (fProofOfStake : Bool)
    (hlim : 0 < (if fProofOfStake then p.GetPOSLimit pindexLast.nHeight else p.bnProofOfWorkLimit)) :
    ∃ x : Nat, 0 < x ∧
      x ≤ (if fProofOfStake then p.GetPOSLimit pindexLast.nHeight else p.bnProofOfWorkLimit) ∧
      GetNextTargetRequired p s pindexLast fProofOfStake = GetCompact x := by
  generalize hL : (if fProofOfStake then p.GetPOSLimit pindexLast.nHeight else p.bnProofOfWorkLimit) = L
    at hlim ⊢
  have hcast : (if fProofOfStake then (p.GetPOSLimit pindexLast.nHeight : Int)
      else p.bnProofOfWorkLimit) = L := by
    rw [← hL]; split <;> rfl
  have limit : ∃ x : Nat, 0 < x ∧ x ≤ L ∧ GetCompact L = GetCompact x := ⟨L, hlim, le_rfl, rfl⟩
  have clamped : ∀ bnNew : Int, ¬(bnNew ≤ 0 ∨ (L : Int) < bnNew) →
      ∃ x : Nat, 0 < x ∧ x ≤ L ∧ GetCompact bnNew = GetCompact x := fun bnNew h =>
    ⟨bnNew.toNat, by omega, by omega, by rw [Int.toNat_of_nonneg (by omega)]⟩
  unfold GetNextTargetRequired
  simp only [hcast]
  split
  · exact limit
  · split_ifs
    all_goals first | exact limit | exact clamped _ ‹_›

/-- A target in `(0, 2^256)` has a trust of at least one. -/
theorem one_le_GetBlockTrust {nBits : Nat} (h0 : 0 < SetCompact nBits) (h1 : SetCompact nBits < 2 ^ 256) :
    1 ≤ GetBlockTrust nBits := by
  unfold GetBlockTrust
  rw [if_neg (by omega)]
  exact (Nat.one_le_div_iff (by omega)).2 (by omega)

/-- A target in `(0, bnProofOfWorkLimit]` passes the range test of `CheckProofOfWork`,
which then compares the hash with it. -/
theorem CheckProofOfWork_of_range {p : Params} {nBits : Nat} (h0 : 0 < SetCompact nBits)
    (h1 : SetCompact nBits ≤ p.bnProofOfWorkLimit) (hash : Hash) :
    CheckProofOfWork p hash nBits = decide ((hash : Int) ≤ SetCompact nBits) := by
  unfold CheckProofOfWork
  rw [if_neg (by omega)]

/-- A block `AcceptBlock` indexes carries the bits the retarget rule requires on its
parent. -/
theorem AcceptBlock_indexes_nBits (p : Params) (env : Env) (b : Block) (s : ChainState)
    (hnew : s.mapBlockIndex b.hash = none)
    (hidx : ((AcceptBlock p env b s).2.mapBlockIndex b.hash).isSome) :
    ∃ prev, s.mapBlockIndex b.hashPrevBlock = some prev ∧
      b.nBits = GetNextTargetRequired p s prev b.IsProofOfStake := by
  cases hp : s.mapBlockIndex b.hashPrevBlock with
  | none => simp [AcceptBlock, hnew, hp] at hidx
  | some prev =>
    refine ⟨prev, rfl, ?_⟩
    by_contra hne
    simp [AcceptBlock, hnew, hp, hne] at hidx

/-- The target `GetNextTargetRequired` requires decodes to a positive value at most the
limit of its kind, for limits in `(0, 2^256)`. -/
theorem GetNextTargetRequired_range (p : Params)
    (hwork : 0 < p.bnProofOfWorkLimit ∧ p.bnProofOfWorkLimit < 2 ^ 256)
    (hstake : ∀ h, 0 < p.GetPOSLimit h ∧ p.GetPOSLimit h < 2 ^ 256)
    (s : ChainState) (pindexLast : BlockIndex) (fProofOfStake : Bool) :
    0 < SetCompact (GetNextTargetRequired p s pindexLast fProofOfStake) ∧
      SetCompact (GetNextTargetRequired p s pindexLast fProofOfStake) ≤
        (if fProofOfStake then p.GetPOSLimit pindexLast.nHeight else p.bnProofOfWorkLimit : Nat) := by
  have hlim : 0 < (if fProofOfStake then p.GetPOSLimit pindexLast.nHeight else p.bnProofOfWorkLimit) ∧
      (if fProofOfStake then p.GetPOSLimit pindexLast.nHeight else p.bnProofOfWorkLimit) < 2 ^ 256 := by
    split
    exacts [hstake _, hwork]
  obtain ⟨x, hx, hxL, e⟩ := GetNextTargetRequired_eq_GetCompact p s pindexLast fProofOfStake hlim.1
  obtain ⟨h0, h1⟩ := SetCompact_GetCompact hx (by omega)
  rw [e]
  exact ⟨h0, h1.trans (Nat.cast_le.2 hxL)⟩

/-- **Every required target decodes into `(0, limit]`, and every indexed block has
trust.** For limits in `(0, 2^256)`, whatever the index and the node, and whatever bits
and times the earlier nodes carry, the target `GetNextTargetRequired` requires decodes to a
positive value at most the limit of its kind. So a block `AcceptBlock` adds to the index
has a trust of at least one, and a proof-of-work block's bits pass the range test of
`CheckProofOfWork`. -/
theorem target_in_range (p : Params)
    (hwork : 0 < p.bnProofOfWorkLimit ∧ p.bnProofOfWorkLimit < 2 ^ 256)
    (hstake : ∀ h, 0 < p.GetPOSLimit h ∧ p.GetPOSLimit h < 2 ^ 256) :
    (∀ (s : ChainState) (pindexLast : BlockIndex) (fProofOfStake : Bool),
      0 < SetCompact (GetNextTargetRequired p s pindexLast fProofOfStake) ∧
        SetCompact (GetNextTargetRequired p s pindexLast fProofOfStake) ≤
          (if fProofOfStake then p.GetPOSLimit pindexLast.nHeight else p.bnProofOfWorkLimit : Nat)) ∧
    ∀ (env : Env) (b : Block) (s : ChainState), s.mapBlockIndex b.hash = none →
      ((AcceptBlock p env b s).2.mapBlockIndex b.hash).isSome →
      1 ≤ GetBlockTrust b.nBits ∧
        (b.IsProofOfWork = true → ∀ hash, CheckProofOfWork p hash b.nBits = decide ((hash : Int) ≤ SetCompact b.nBits)) := by
  have range := GetNextTargetRequired_range p hwork hstake
  refine ⟨range, fun env b s hnew hidx => ?_⟩
  obtain ⟨prev, -, hbits⟩ := AcceptBlock_indexes_nBits p env b s hnew hidx
  obtain ⟨h0, h1⟩ := range s prev b.IsProofOfStake
  rw [← hbits] at h0 h1
  have hlt : SetCompact b.nBits < 2 ^ 256 := by
    refine lt_of_le_of_lt h1 ?_
    split
    · exact_mod_cast (hstake _).2
    · exact_mod_cast hwork.2
  refine ⟨one_le_GetBlockTrust h0 hlt, fun hpow => CheckProofOfWork_of_range h0 ?_⟩
  have hs : b.IsProofOfStake = false := by simpa [Block.IsProofOfWork] using hpow
  simpa [hs] using h1

theorem target_in_range_testnet :
    (0 < testnet.bnProofOfWorkLimit ∧ testnet.bnProofOfWorkLimit < 2 ^ 256) ∧
      (∀ h, 0 < testnet.GetPOSLimit h ∧ testnet.GetPOSLimit h < 2 ^ 256) ∧
      ∀ (env : Env) (b : Block) (s : ChainState), s.mapBlockIndex b.hash = none →
        ((AcceptBlock testnet env b s).2.mapBlockIndex b.hash).isSome → 1 ≤ GetBlockTrust b.nBits :=
  have hwork : 0 < testnet.bnProofOfWorkLimit ∧ testnet.bnProofOfWorkLimit < 2 ^ 256 := by
    norm_num [testnet]
  have hstake : ∀ h, 0 < testnet.GetPOSLimit h ∧ testnet.GetPOSLimit h < 2 ^ 256 := fun _ => by
    norm_num [testnet]
  ⟨hwork, hstake, fun env b s hnew hidx => ((target_in_range testnet hwork hstake).2 env b s hnew hidx).1⟩

/-! ## Hand-built chains -/

/-- A proof-of-work node of the hand-built chains below, stored at `(1, 0)`. -/
def workNode (hash : Hash) (pprev : Option Hash) (nHeight : Int) (nTime nBits : Nat) : BlockIndex :=
  ⟨hash, pprev, nHeight, 1, 0, 0, nBits, nTime, false, OutPoint.null, 0, 0, 0⟩

/-- The index of a hand-built chain: each node under its hash. -/
def indexOf (ns : List BlockIndex) (h : Hash) : Option BlockIndex := ns.find? (·.hash == h)

/-! ## Faster blocks, an easier target -/

/-- The last node of a three-node proof-of-work chain, at time `t`, carrying the smallest
positive target. -/
def tinyTargetTip (t : Nat) : BlockIndex := workNode 3 (some 2) 2 t (GetCompact 1)

/-- The genesis node at time 1000, its child 79 seconds later, and `tinyTargetTip t`. The
histories for two values of `t` differ only in the time of their last node, which is also
the last node of its kind; the spacing the retarget rule reads is `t - 1079`. -/
def tinyTargetState (t : Nat) : ChainState :=
  { ChainState.empty with
    mapBlockIndex := indexOf [workNode 1 none 0 1000 (GetCompact testnet.bnProofOfWorkLimit),
      workNode 2 (some 1) 1 1079 (GetCompact testnet.bnProofOfWorkLimit), tinyTargetTip t] }

example : SetCompact (GetCompact 1) = 1 := by decide

/-- **A faster block gets an easier target.** From the target 1, a spacing of 0 gives the
proof-of-work limit, and a spacing of 79 seconds keeps the target at 1. -/
theorem retarget_faster_easier :
    SetCompact (tinyTargetTip 1079).nBits = 1 ∧
      SetCompact (GetNextTargetRequired testnet (tinyTargetState 1079) (tinyTargetTip 1079) false) =
        SetCompact (GetCompact testnet.bnProofOfWorkLimit) ∧
      SetCompact (GetNextTargetRequired testnet (tinyTargetState 1158) (tinyTargetTip 1158) false) = 1 ∧
      1 < SetCompact (GetCompact testnet.bnProofOfWorkLimit) := by
  decide

/-! ## The minimum-work guard after a stall -/

/-- The checkpoint's child: three hours after the checkpoint, with the target `2^200`. -/
def stallParent : BlockIndex := workNode 3 (some 2) 2 (1079 + 3 * 3600) (GetCompact (2 ^ 200))

/-- A chain past a three-hour stall: the genesis node, the synchronized checkpoint (node 2)
79 seconds later, `stallParent`, and the tip, its child 79 seconds after it. Every node
carries the target `2^200`. -/
def stallState : ChainState :=
  { ChainState.empty with
    mapBlockIndex := indexOf [workNode 1 none 0 1000 (GetCompact (2 ^ 200)),
      workNode 2 (some 1) 1 1079 (GetCompact (2 ^ 200)), stallParent,
      workNode 4 (some 3) 3 (1079 + 3 * 3600 + 79) (GetCompact (2 ^ 200))]
    pindexBest := some 4
    hashBestChain := 4
    nBestHeight := 3 }

/-- The environment of the arrival: node 2 is the last synchronized checkpoint. -/
def stallEnv : Env := { Env.quiet false 2000000000 with lastSyncCheckpoint := some 2 }

/-- A sibling of the tip, with the bits the retarget rule requires on its parent. -/
def stallSibling : Block :=
  ⟨5, 3, 1079 + 3 * 3600 + 79, GetNextTargetRequired testnet stallState stallParent false,
    [coinbase 105 (1079 + 3 * 3600 + 79) 0], 0⟩

set_option maxRecDepth 4000 in
/-- **The guard refuses a block with the required bits.** `stallSibling`'s parent is
indexed and its bits are those `AcceptBlock` requires there; the block passes
`CheckBlock`, and the minimum-work guard of `ProcessNewBlock` refuses it. -/
theorem stall_sibling_rejected :
    stallState.mapBlockIndex stallSibling.hashPrevBlock = some stallParent ∧
      stallSibling.nBits = GetNextTargetRequired testnet stallState stallParent false ∧
      CheckBlock testnet stallEnv stallSibling true true = true ∧
      tooLittleWork testnet stallEnv stallSibling stallState = true ∧
      (ProcessNewBlock testnet stallEnv stallSibling stallState).1 = false := by
  decide

end NeutronCore
