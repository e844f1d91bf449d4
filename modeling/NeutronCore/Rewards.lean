/-
The proof-of-stake subsidy from height 13500 on, and the two payments `ConnectBlock`
requires out of a block's reward (`main.cpp:1675`).

`GetProofOfStakeReward` (`main.cpp:929`) starts each window of `g_RewardHalvingPeriod`
blocks at `40 * COIN >> halvings` and takes off a share that grows linearly to just under
half by the window's end. So the reward never rises with the height: inside a window the
share taken off only grows (`decay_antitone`), and the start of the next window, at most half
the last one's start, is below every value of the last window (`half_le_decay`,
`halvedSubsidy_lt_le_half`). The intermediate `nSubsidy * (nHeight % g_RewardHalvingPeriod)`
is at most `40 * COIN * 999999` (`reward_nonincreasing_exact`). The reward itself is the
`int64_t` sum `nSubsidy + nFees` (`GetProofOfStakeRewardInt64`): while the fees leave room for
`40 * COIN` below `2⁶³` it is the exact sum, and so never rises (`stake_reward_nonincreasing`);
for fees closer to the top it wraps, and the reward one height lower comes out negative
(`stake_reward_wraps`).

`GetDeveloperPayment` (`main.cpp:4540`) multiplies the reward by `DEVELOPER_PAYMENT_V2`
before it divides by `COIN`, in `int64_t`. The model of `Connect.lean` computes on
unbounded integers; `GetDeveloperPaymentInt64` and `GetMasternodePaymentInt64` compute as
the machine does, each product wrapped to 64 bits and each quotient truncated toward zero.
The two agree while the products fit (`payments_split`). The product fits for every reward
in `MoneyRange` only when `MAX_MONEY * DEVELOPER_PAYMENT_V2 < 2⁶³`, which the `testnet`
constants miss: a reward of a large-fee block wraps, and the developer payment comes out
negative (`developer_payment_overflows`).
-/
import NeutronCore.Connect

set_option autoImplicit false

namespace NeutronCore

/-! ## The stake subsidy -/

/-- The subsidy a halving window of `GetProofOfStakeReward` starts with, after `halvings`
halvings (`main.cpp:952`): `40 * COIN >> halvings`, and nothing from 64 halvings on. -/
def halvedSubsidy (p : Params) (halvings : Int) : Int :=
  if 64 ≤ halvings then 0 else 40 * p.COIN / 2 ^ halvings.toNat

/-- From height 13500 on, the reward is the window's subsidy less its share for the
height's place in the window, plus the fees. -/
theorem GetProofOfStakeReward_of_le (p : Params) (nCoinAge : Nat) (nFees : Int) {nHeight : Int}
    (h : 13500 ≤ nHeight) :
    GetProofOfStakeReward p nCoinAge nFees nHeight =
      halvedSubsidy p (nHeight / g_RewardHalvingPeriod) -
        halvedSubsidy p (nHeight / g_RewardHalvingPeriod) * (nHeight % g_RewardHalvingPeriod) /
          (2 * g_RewardHalvingPeriod) + nFees := by
  simp only [GetProofOfStakeReward, halvedSubsidy]
  rw [if_neg (by omega), if_neg (by omega), if_neg (by omega), if_neg (by omega), if_neg (by omega),
    if_neg (by omega)]

section Subsidy

variable (p : Params) (hCOIN : 0 ≤ p.COIN)
include hCOIN

theorem halvedSubsidy_nonneg (k : Int) : 0 ≤ halvedSubsidy p k := by
  unfold halvedSubsidy
  split
  · exact le_rfl
  · exact Int.ediv_nonneg (by omega) (by positivity)

theorem halvedSubsidy_le (k : Int) : halvedSubsidy p k ≤ 40 * p.COIN := by
  unfold halvedSubsidy
  split
  · omega
  · exact Int.ediv_le_self _ (by omega)

/-- One more halving at most halves the subsidy. -/
theorem halvedSubsidy_succ_le (k : Nat) : halvedSubsidy p (k + 1) ≤ halvedSubsidy p k / 2 := by
  have h0 := halvedSubsidy_nonneg p hCOIN k
  by_cases h64 : 64 ≤ (k : Int) + 1
  · rw [halvedSubsidy, if_pos h64]
    exact Int.ediv_nonneg h0 (by decide)
  rw [halvedSubsidy, if_neg h64, halvedSubsidy, if_neg (by omega), Int.le_ediv_iff_mul_le (by decide),
    Int.le_ediv_iff_mul_le (by positivity), show ((k : Int) + 1).toNat = k + 1 by omega]
  calc 40 * p.COIN / 2 ^ (k + 1) * 2 * 2 ^ (k : Int).toNat
      = 40 * p.COIN / 2 ^ (k + 1) * 2 ^ (k + 1) := by rw [Int.toNat_natCast, pow_succ]; ring
    _ ≤ 40 * p.COIN := Int.ediv_mul_le _ (by positivity)

/-- Later windows start no higher. -/
theorem halvedSubsidy_antitone {k k' : Nat} (h : k ≤ k') : halvedSubsidy p k' ≤ halvedSubsidy p k := by
  induction k', h using Nat.le_induction with
  | base => exact le_rfl
  | succ k' _ ih =>
    have := halvedSubsidy_succ_le p hCOIN k'
    have := halvedSubsidy_nonneg p hCOIN k'
    push_cast
    omega

/-- A later window starts at most at half an earlier one's start. -/
theorem halvedSubsidy_lt_le_half {k k' : Nat} (h : k < k') :
    halvedSubsidy p k' ≤ halvedSubsidy p k / 2 := by
  have := halvedSubsidy_antitone p hCOIN h
  have := halvedSubsidy_succ_le p hCOIN k
  push_cast at *
  omega

end Subsidy

/-- A height from zero on lies in a window of natural-number index. -/
theorem exists_window_index {n : Int} (hn : 0 ≤ n) : ∃ k : Nat, n / g_RewardHalvingPeriod = k :=
  ⟨_, (Int.toNat_of_nonneg (Int.ediv_nonneg hn (by decide))).symm⟩

/-! ### Inside a window -/

section Window

variable {s : Int} (hs : 0 ≤ s)
include hs

/-- The further into a window, the more is taken off. -/
theorem decay_antitone {r₁ r₂ : Int} (h : r₁ ≤ r₂) :
    s - s * r₂ / (2 * g_RewardHalvingPeriod) ≤ s - s * r₁ / (2 * g_RewardHalvingPeriod) := by
  have := Int.ediv_le_ediv (by decide : (0 : Int) < 2 * g_RewardHalvingPeriod)
    (Int.mul_le_mul_of_nonneg_left h hs)
  omega

/-- Nothing more than the subsidy is left. -/
theorem decay_le {r : Int} (hr : 0 ≤ r) : s - s * r / (2 * g_RewardHalvingPeriod) ≤ s := by
  have := Int.ediv_nonneg (Int.mul_nonneg hs hr) (by decide : (0 : Int) ≤ 2 * g_RewardHalvingPeriod)
  omega

/-- Less than half is taken off anywhere in a window. -/
theorem half_le_decay {r : Int} (hr : 0 ≤ r) (hlt : r < g_RewardHalvingPeriod) :
    s / 2 ≤ s - s * r / (2 * g_RewardHalvingPeriod) := by
  have hle : s * r ≤ s * 999999 := Int.mul_le_mul_of_nonneg_left (by unfold g_RewardHalvingPeriod at hlt; omega) hs
  have := Int.mul_nonneg hs hr
  unfold g_RewardHalvingPeriod
  omega

end Window

/-- The stake reward on unbounded integers never rises, never drops below the fees, and its
intermediate product fits in `int64_t`. From height 13500 on, for every coin age and fee, the
reward at a height is at most the reward at any lower height, across the boundaries of halving
windows too, and at least the fees. The product `nSubsidy * (nHeight % g_RewardHalvingPeriod)` is nonnegative
and below `2⁶³`, for any `COIN` with `40 * COIN * 999999 < 2⁶³`. -/
theorem reward_nonincreasing_exact (p : Params) (hCOIN : 0 ≤ p.COIN)
    (hwide : 40 * p.COIN * (g_RewardHalvingPeriod - 1) < 2 ^ 63) :
    (∀ (nCoinAge : Nat) (nFees h₁ h₂ : Int), 13500 ≤ h₁ → h₁ ≤ h₂ →
      GetProofOfStakeReward p nCoinAge nFees h₂ ≤ GetProofOfStakeReward p nCoinAge nFees h₁ ∧
        nFees ≤ GetProofOfStakeReward p nCoinAge nFees h₁) ∧
    ∀ nHeight : Int, 13500 ≤ nHeight →
      0 ≤ halvedSubsidy p (nHeight / g_RewardHalvingPeriod) * (nHeight % g_RewardHalvingPeriod) ∧
        halvedSubsidy p (nHeight / g_RewardHalvingPeriod) * (nHeight % g_RewardHalvingPeriod) < 2 ^ 63 := by
  have hg : (0 : Int) < g_RewardHalvingPeriod := by decide
  refine ⟨fun nCoinAge nFees h₁ h₂ h13 h12 => ?_, fun nHeight h13 => ?_⟩
  · rw [GetProofOfStakeReward_of_le p nCoinAge nFees h13,
      GetProofOfStakeReward_of_le p nCoinAge nFees (h13.trans h12)]
    -- the windows of the two heights, and the places in them
    obtain ⟨k₁, hk₁⟩ := exists_window_index (by omega : (0 : Int) ≤ h₁)
    obtain ⟨k₂, hk₂⟩ := exists_window_index (by omega : (0 : Int) ≤ h₂)
    have hr₁ := Int.emod_nonneg h₁ hg.ne'
    have hr₂ := Int.emod_nonneg h₂ hg.ne'
    have hs₁ := halvedSubsidy_nonneg p hCOIN k₁
    have hs₂ := halvedSubsidy_nonneg p hCOIN k₂
    have hhalf := half_le_decay hs₁ hr₁ (Int.emod_lt_of_pos h₁ hg)
    rw [hk₁, hk₂]
    refine ⟨?_, by omega⟩
    rcases Nat.lt_or_ge k₁ k₂ with hlt | hge
    · -- a later window: below its own start, which is at most half of the earlier one's
      have := decay_le hs₂ hr₂
      have := halvedSubsidy_lt_le_half p hCOIN hlt
      omega
    · -- the same window, further in
      have hq := Int.ediv_le_ediv hg h12
      obtain rfl : k₁ = k₂ := by omega
      have hr : h₁ % g_RewardHalvingPeriod ≤ h₂ % g_RewardHalvingPeriod := by
        unfold g_RewardHalvingPeriod at *
        omega
      have := decay_antitone hs₁ hr
      omega
  · have hs := halvedSubsidy_nonneg p hCOIN (nHeight / g_RewardHalvingPeriod)
    have hle := halvedSubsidy_le p hCOIN (nHeight / g_RewardHalvingPeriod)
    have hr := Int.emod_nonneg nHeight hg.ne'
    have hr' := Int.emod_lt_of_pos nHeight hg
    refine ⟨Int.mul_nonneg hs hr, lt_of_le_of_lt ?_ hwide⟩
    exact Int.mul_le_mul hle (by omega) hr (by omega)

/-! ## The payments out of a reward -/

/-- An `int64_t` result: the value modulo `2⁶⁴`, read in two's complement. -/
def toInt64 (x : Int) : Int := (x + 2 ^ 63) % 2 ^ 64 - 2 ^ 63

/-- `GetDeveloperPayment` (`main.cpp:4540`) on `int64_t`: the product wraps, and the
quotient is truncated toward zero. -/
def GetDeveloperPaymentInt64 (p : Params) (nBlockValue : Int) : Int :=
  (toInt64 (nBlockValue * p.DEVELOPER_PAYMENT_V2)).tdiv p.COIN

/-- `GetMasternodePayment` (`main.cpp:4554`) on `int64_t`. -/
def GetMasternodePaymentInt64 (p : Params) (_nHeight : Int) (blockValue : Int) : Int :=
  (toInt64 (toInt64 (blockValue - GetDeveloperPaymentInt64 p blockValue) * 66)).tdiv 100

/-- A value that fits is its own `int64_t`. -/
theorem toInt64_of_lt {x : Int} (h0 : 0 ≤ x) (h : x < 2 ^ 63) : toInt64 x = x := by
  unfold toInt64
  rw [Int.emod_eq_of_lt (by omega) (by omega)]
  omega

/-- A value in the range of `int64_t` is its own `int64_t`. -/
theorem toInt64_of_mem {x : Int} (h0 : -2 ^ 63 ≤ x) (h : x < 2 ^ 63) : toInt64 x = x := by
  unfold toInt64
  rw [Int.emod_eq_of_lt (by omega) (by omega)]
  omega

/-! ## The reward in `int64_t` -/

/-- `GetProofOfStakeReward` (`main.cpp:931`) as the machine returns it: the subsidy and the
product behind it fit (`reward_nonincreasing_exact`), and the `int64_t` sum
`nSubsidy + nFees` wraps. -/
def GetProofOfStakeRewardInt64 (p : Params) (nCoinAge : Nat) (nFees nHeight : Int) : Int :=
  toInt64 (GetProofOfStakeReward p nCoinAge nFees nHeight)

/-- From height 13500 on, the reward lies between the fees and the fees plus `40 * COIN`. -/
theorem GetProofOfStakeReward_mem (p : Params) (hCOIN : 0 ≤ p.COIN) (nCoinAge : Nat) (nFees : Int)
    {nHeight : Int} (h : 13500 ≤ nHeight) :
    nFees ≤ GetProofOfStakeReward p nCoinAge nFees nHeight ∧
      GetProofOfStakeReward p nCoinAge nFees nHeight ≤ nFees + 40 * p.COIN := by
  have hg : (0 : Int) < g_RewardHalvingPeriod := by decide
  have hs := halvedSubsidy_nonneg p hCOIN (nHeight / g_RewardHalvingPeriod)
  have hle := halvedSubsidy_le p hCOIN (nHeight / g_RewardHalvingPeriod)
  have hr := Int.emod_nonneg nHeight hg.ne'
  have hhalf := half_le_decay hs hr (Int.emod_lt_of_pos nHeight hg)
  have hdecay := decay_le hs hr
  rw [GetProofOfStakeReward_of_le p nCoinAge nFees h]
  omega

/-- **The stake reward never rises and never drops below the fees, for fees that leave room in
`int64_t`.** From height 13500 on, for every coin age and every fee `f` with
`f + 40 * COIN < 2⁶³`, the reward `GetProofOfStakeReward` returns at a height is at most the
one it returns at any lower height, across the boundaries of halving windows too, and at least
`f`. The product `nSubsidy * (nHeight % g_RewardHalvingPeriod)` is nonnegative and below
`2⁶³`, for any `COIN` with `40 * COIN * 999999 < 2⁶³`. -/
theorem stake_reward_nonincreasing (p : Params) (hCOIN : 0 ≤ p.COIN)
    (hwide : 40 * p.COIN * (g_RewardHalvingPeriod - 1) < 2 ^ 63) :
    (∀ (nCoinAge : Nat) (nFees h₁ h₂ : Int), 13500 ≤ h₁ → h₁ ≤ h₂ → -2 ^ 63 ≤ nFees →
      nFees + 40 * p.COIN < 2 ^ 63 →
      GetProofOfStakeRewardInt64 p nCoinAge nFees h₂ ≤ GetProofOfStakeRewardInt64 p nCoinAge nFees h₁ ∧
        nFees ≤ GetProofOfStakeRewardInt64 p nCoinAge nFees h₁) ∧
    ∀ nHeight : Int, 13500 ≤ nHeight →
      0 ≤ halvedSubsidy p (nHeight / g_RewardHalvingPeriod) * (nHeight % g_RewardHalvingPeriod) ∧
        halvedSubsidy p (nHeight / g_RewardHalvingPeriod) * (nHeight % g_RewardHalvingPeriod) < 2 ^ 63 := by
  obtain ⟨hmono, hprod⟩ := reward_nonincreasing_exact p hCOIN hwide
  refine ⟨fun nCoinAge nFees h₁ h₂ h13 h12 hlo hhi => ?_, hprod⟩
  -- with such fees the sum fits, and the machine's reward is the exact one
  have fits : ∀ {h}, 13500 ≤ h →
      GetProofOfStakeRewardInt64 p nCoinAge nFees h = GetProofOfStakeReward p nCoinAge nFees h := fun hh =>
    have hm := GetProofOfStakeReward_mem p hCOIN nCoinAge nFees hh
    toInt64_of_mem (by omega) (by omega)
  rw [fits h13, fits (h13.trans h12)]
  exact hmono nCoinAge nFees h₁ h₂ h13 h12

/-- On `testnet`, the reward at the first height of the second window is at most the
reward at the last height of the first. -/
theorem stake_reward_nonincreasing_testnet :
    (0 ≤ testnet.COIN ∧ 40 * testnet.COIN * (g_RewardHalvingPeriod - 1) < 2 ^ 63) ∧
      GetProofOfStakeRewardInt64 testnet 0 0 1000000 ≤ GetProofOfStakeRewardInt64 testnet 0 0 999999 :=
  have h : 0 ≤ testnet.COIN ∧ 40 * testnet.COIN * (g_RewardHalvingPeriod - 1) < 2 ^ 63 := by decide
  ⟨h, ((stake_reward_nonincreasing testnet h.1 h.2).1 0 0 999999 1000000 (by decide) (by decide) (by decide)
    (by decide)).1⟩

/-- **For fees near the top of `int64_t` the reward wraps and rises.** On `testnet` the
reward at height 13501 with fees `2⁶³ - 1 - 39729980` is `2⁶³ - 1`, the largest `int64_t`.
At height 13500 the subsidy is 20 larger, the sum passes `2⁶³`, and the reward
`GetProofOfStakeReward` returns is negative: below the reward one height up, and below the
fees. -/
theorem stake_reward_wraps :
    GetProofOfStakeReward testnet 0 (2 ^ 63 - 1 - 39729980) 13501 = 2 ^ 63 - 1 ∧
      GetProofOfStakeRewardInt64 testnet 0 (2 ^ 63 - 1 - 39729980) 13501 = 2 ^ 63 - 1 ∧
      GetProofOfStakeRewardInt64 testnet 0 (2 ^ 63 - 1 - 39729980) 13500 < 0 := by
  decide

/-- **The payments split a reward as the spec says, while the products fit.** For a `COIN`
above zero and a developer share of at most one `COIN`, on every nonnegative reward `v`: the
developer payment `⌊v · DEVELOPER_PAYMENT_V2 / COIN⌋` and the masternode payment, `66%` of
the rest rounded down, are nonnegative and together at most `v`, so the stake's share
`v - mn - dev` is nonnegative. While `v · DEVELOPER_PAYMENT_V2` and `v · 66` stay below
`2⁶³`, the `int64_t` computations give exactly these values. -/
theorem payments_split (p : Params) (hC : 0 < p.COIN) (hD : 0 ≤ p.DEVELOPER_PAYMENT_V2)
    (hDC : p.DEVELOPER_PAYMENT_V2 ≤ p.COIN) (nHeight v : Int) (hv : 0 ≤ v) :
    0 ≤ GetDeveloperPayment p v ∧ 0 ≤ GetMasternodePayment p nHeight v ∧
      GetDeveloperPayment p v + GetMasternodePayment p nHeight v ≤ v ∧
      (v * p.DEVELOPER_PAYMENT_V2 < 2 ^ 63 → v * 66 < 2 ^ 63 →
        GetDeveloperPaymentInt64 p v = GetDeveloperPayment p v ∧
          GetMasternodePaymentInt64 p nHeight v = GetMasternodePayment p nHeight v) := by
  have hprod : 0 ≤ v * p.DEVELOPER_PAYMENT_V2 := Int.mul_nonneg hv hD
  have hdev₀ : 0 ≤ GetDeveloperPayment p v := Int.ediv_nonneg hprod hC.le
  -- the developer's share is at most the whole reward
  have hdev : GetDeveloperPayment p v ≤ v :=
    calc v * p.DEVELOPER_PAYMENT_V2 / p.COIN
        ≤ v * p.COIN / p.COIN := Int.ediv_le_ediv hC (Int.mul_le_mul_of_nonneg_left hDC hv)
      _ = v := Int.mul_ediv_cancel v hC.ne'
  have hmn : GetMasternodePayment p nHeight v = (v - GetDeveloperPayment p v) * 66 / 100 := rfl
  refine ⟨hdev₀, by omega, by omega, fun h₁ h₂ => ?_⟩
  have hdev64 : GetDeveloperPaymentInt64 p v = GetDeveloperPayment p v := by
    rw [GetDeveloperPaymentInt64, toInt64_of_lt hprod h₁, Int.tdiv_eq_ediv hprod hC.le]
    rfl
  refine ⟨hdev64, ?_⟩
  rw [GetMasternodePaymentInt64, hdev64, @toInt64_of_lt (v - GetDeveloperPayment p v) (by omega) (by omega),
    toInt64_of_lt (by omega) (by omega), Int.tdiv_eq_ediv (by omega) (by decide)]
  rfl

/-- On `testnet`, a block value of one coin splits into shares that fit, with no product
near `2⁶³`. -/
theorem payments_split_one_coin :
    (0 < testnet.COIN ∧ 0 ≤ testnet.DEVELOPER_PAYMENT_V2 ∧ testnet.DEVELOPER_PAYMENT_V2 ≤ testnet.COIN ∧
        (0 : Int) ≤ 1000000) ∧
      0 ≤ GetDeveloperPayment testnet 1000000 ∧ 0 ≤ GetMasternodePayment testnet 20000 1000000 ∧
      GetDeveloperPayment testnet 1000000 + GetMasternodePayment testnet 20000 1000000 ≤ 1000000 ∧
      (1000000 * testnet.DEVELOPER_PAYMENT_V2 < 2 ^ 63 ∧ (1000000 : Int) * 66 < 2 ^ 63) ∧
      GetDeveloperPaymentInt64 testnet 1000000 = GetDeveloperPayment testnet 1000000 ∧
        GetMasternodePaymentInt64 testnet 20000 1000000 = GetMasternodePayment testnet 20000 1000000 :=
  have h := payments_split testnet (by decide) (by decide) (by decide) 20000 1000000 (by decide)
  ⟨⟨by decide, by decide, by decide, by decide⟩, h.1, h.2.1, h.2.2.1, ⟨by decide, by decide⟩,
    h.2.2.2 (by decide) (by decide)⟩

/-- **The developer payment overflows on a large-fee block.** On `testnet`, at height
20000, a coinstake whose fees, `184467401137096`, lie in `MoneyRange` is owed the reward
`v = 184467440737096`, also in `MoneyRange`. The product `v · DEVELOPER_PAYMENT_V2` reaches
`2⁶³`, so the `int64_t` product wraps, and the developer payment comes out negative where its
rounded-down share is positive. -/
theorem developer_payment_overflows :
    testnet.MoneyRange 184467401137096 = true ∧
      GetProofOfStakeReward testnet 0 184467401137096 20000 = 184467440737096 ∧
      testnet.MoneyRange 184467440737096 = true ∧
      2 ^ 63 ≤ 184467440737096 * testnet.DEVELOPER_PAYMENT_V2 ∧
      GetDeveloperPaymentInt64 testnet 184467440737096 < 0 ∧
      0 < GetDeveloperPayment testnet 184467440737096 := by
  decide

end NeutronCore
