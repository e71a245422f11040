import BeauClick.Money.Amount
import Mathlib.Algebra.Order.Field.Power
import Mathlib.Tactic.Linarith
import Mathlib.Tactic.NormNum
import Mathlib.Tactic.Positivity

/-!
# What the two roundings of a percentage do

`percentOf` rounds a product and a quotient to doubles before it rounds to an integer.

* `toDouble_error` — a double is within `2⁻⁵³` of the number, relatively.
* `percentOf_eq` — a percentage is the exact quotient rounded down, and one more where its double
  is at or above the half.
-/

namespace BeauClick.Money

/-! ## One rounding -/

theorem zpow_binaryExponent_le {q : ℚ} (hq : q ≠ 0) : (2 : ℚ) ^ binaryExponent q ≤ |q| := by
  unfold binaryExponent
  dsimp only
  split_ifs with hle
  · exact hle
  · have hnum : (2 : ℚ) ^ (Nat.log2 q.num.natAbs : ℤ) ≤ q.num.natAbs := by
      exact_mod_cast Nat.log2_self_le (Int.natAbs_ne_zero.2 (Rat.num_ne_zero.2 hq))
    have hden : (q.den : ℚ) ≤ 2 ^ ((Nat.log2 q.den : ℤ) + 1) := by
      have hlt := (Nat.lt_log2_self (n := q.den)).le
      exact_mod_cast hlt
    have hpos : (0 : ℚ) < q.den := by exact_mod_cast q.den_pos
    have habs : |q| = q.num.natAbs / q.den := by
      rw [Nat.cast_natAbs, Int.cast_abs]
      conv_lhs => rw [← Rat.num_div_den q]
      rw [abs_div, abs_of_pos hpos]
    rw [habs, le_div_iff₀ hpos]
    calc (2 : ℚ) ^ ((Nat.log2 q.num.natAbs : ℤ) - Nat.log2 q.den - 1) * q.den
        ≤ 2 ^ ((Nat.log2 q.num.natAbs : ℤ) - Nat.log2 q.den - 1) *
            2 ^ ((Nat.log2 q.den : ℤ) + 1) := mul_le_mul_of_nonneg_left hden (by positivity)
      _ = 2 ^ (Nat.log2 q.num.natAbs : ℤ) := by
          rw [← zpow_add₀ two_ne_zero]
          congr 1
          ring
      _ ≤ q.num.natAbs := hnum

theorem roundHalfEven_error (q : ℚ) : |roundHalfEven q - q| ≤ 1 / 2 := by
  have hlow := Int.floor_le q
  have hhigh := Int.lt_floor_add_one q
  unfold roundHalfEven
  split_ifs <;> push_cast <;> rw [abs_le] <;> constructor <;> linarith

theorem roundHalfEven_nonneg {q : ℚ} (hq : 0 ≤ q) : 0 ≤ roundHalfEven q := by
  have hfloor := Int.floor_nonneg.2 hq
  unfold roundHalfEven
  split_ifs <;> omega

theorem toDouble_error (q : ℚ) : |toDouble q - q| ≤ |q| / 2 ^ 53 := by
  unfold toDouble
  split_ifs with hq
  · simp [hq]
  · have hulp : (0 : ℚ) < 2 ^ (binaryExponent q - 52) := by positivity
    have herror := roundHalfEven_error (q / 2 ^ (binaryExponent q - 52))
    have hscale : (roundHalfEven (q / 2 ^ (binaryExponent q - 52)) : ℚ) *
        2 ^ (binaryExponent q - 52) - q =
          (roundHalfEven (q / 2 ^ (binaryExponent q - 52)) - q / 2 ^ (binaryExponent q - 52)) *
            2 ^ (binaryExponent q - 52) := by
      rw [sub_mul, div_mul_cancel₀ _ hulp.ne']
    rw [hscale, abs_mul, abs_of_pos hulp]
    calc |roundHalfEven (q / 2 ^ (binaryExponent q - 52)) - q / 2 ^ (binaryExponent q - 52)| *
          2 ^ (binaryExponent q - 52)
        ≤ 1 / 2 * 2 ^ (binaryExponent q - 52) := mul_le_mul_of_nonneg_right herror hulp.le
      _ = 2 ^ binaryExponent q / 2 ^ 53 := by
          rw [zpow_sub₀ two_ne_zero]
          ring
      _ ≤ |q| / 2 ^ 53 := div_le_div_of_nonneg_right (zpow_binaryExponent_le hq) (by positivity)

theorem toDouble_nonneg {q : ℚ} (hq : 0 ≤ q) : 0 ≤ toDouble q := by
  unfold toDouble
  split_ifs
  · exact le_rfl
  have hnonneg := roundHalfEven_nonneg (div_nonneg hq
    (zpow_nonneg (by norm_num : (0 : ℚ) ≤ 2) (binaryExponent q - 52)))
  exact mul_nonneg (by exact_mod_cast hnonneg) (by positivity)

/-! ## A percentage -/

/-- The percentage, as a double. -/
def percentage (base rateBasisPoints : ℤ) : ℚ :=
  toDouble (toDouble (base * rateBasisPoints) / basisPointsDenominator)

/-- The exact quotient, rounded down. -/
abbrev roundedDown (base rateBasisPoints : ℤ) : ℤ := base * rateBasisPoints / basisPointsDenominator

/-- The percentage is at or above the half. -/
def RoundsUp (base rateBasisPoints : ℤ) : Prop :=
  (roundedDown base rateBasisPoints : ℚ) + 1 / 2 ≤ percentage base rateBasisPoints
  deriving Decidable

/-- The quotient rounded down, and one more where the percentage rounds up. -/
def rounded (base rateBasisPoints : ℤ) : ℤ :=
  roundedDown base rateBasisPoints + if RoundsUp base rateBasisPoints then 1 else 0

section Percentage

variable {base rate : ℤ}

theorem roundedDown_nonneg (hbase : 0 ≤ base) (hrate : 0 ≤ rate) : 0 ≤ roundedDown base rate :=
  Int.ediv_nonneg (mul_nonneg hbase hrate) (by decide)

theorem roundedDown_sub {amount : ℤ} (hamt : 0 ≤ amount) (hrate : 0 ≤ rate)
    (hrates : rate ≤ basisPointsDenominator) : roundedDown (base - amount) rate ≤
      roundedDown base rate ∧ roundedDown base rate ≤ roundedDown (base - amount) rate + amount := by
  have hden : 0 < basisPointsDenominator := by decide
  have hprod := mul_le_mul_of_nonneg_left hrates hamt
  constructor
  · exact Int.ediv_le_ediv hden (mul_le_mul_of_nonneg_right (sub_le_self _ hamt) hrate)
  · rw [← Int.add_mul_ediv_right _ _ hden.ne']
    refine Int.ediv_le_ediv hden ?_
    rw [sub_mul]
    omega

theorem rounded_sub_iff {other : ℤ} :
    rounded other rate - rounded base rate = -(roundedDown base rate - roundedDown other rate) ↔
      (RoundsUp other rate ↔ RoundsUp base rate) := by
  unfold rounded
  by_cases hother : RoundsUp other rate
  · by_cases hbase : RoundsUp base rate
    · rw [if_pos hother, if_pos hbase]
      exact iff_of_true (by omega) (iff_of_true hother hbase)
    · rw [if_pos hother, if_neg hbase]
      exact iff_of_false (by omega) fun hiff => hbase (hiff.1 hother)
  · by_cases hbase : RoundsUp base rate
    · rw [if_neg hother, if_pos hbase]
      exact iff_of_false (by omega) fun hiff => hother (hiff.2 hbase)
    · rw [if_neg hother, if_neg hbase]
      exact iff_of_true (by omega) (iff_of_false hother hbase)

theorem assertAmount_ofInt {n : ℤ} (hn : 0 ≤ n) (hmax : n ≤ maxAmountToman) :
    assertAmount (.ofInt n) = .ok n := by
  have hmin : minAmountToman ≤ n := le_trans (by decide) hn
  simp [assertAmount, JsNumber.ofInt, not_lt.2 hmax, not_lt.2 hmin]

section

variable (hrates : rate ≤ basisPointsDenominator)
include hrates

theorem percentage_error (hbase : 0 ≤ base) (hmax : base ≤ maxAmountToman) (hrate : 0 ≤ rate) :
    |percentage base rate - base * rate / basisPointsDenominator| < 1 / 4 := by
  have hproduct : (0 : ℚ) ≤ base * rate ∧ (base * rate : ℚ) ≤ 10 ^ 17 := by
    have hle : base * rate ≤ maxAmountToman * basisPointsDenominator :=
      mul_le_mul hmax hrates hrate (by decide)
    refine ⟨by exact_mod_cast mul_nonneg hbase hrate, ?_⟩
    calc (base * rate : ℚ) ≤ (maxAmountToman * basisPointsDenominator : ℤ) := by exact_mod_cast hle
      _ = 10 ^ 17 := by norm_num [maxAmountToman, basisPointsDenominator]
  have hfirst := toDouble_error (base * rate)
  have hsecond := toDouble_error (toDouble (base * rate) / basisPointsDenominator)
  have hpos := div_nonneg (toDouble_nonneg hproduct.1)
    (by norm_num [basisPointsDenominator] : (0 : ℚ) ≤ basisPointsDenominator)
  rw [abs_of_nonneg hproduct.1, abs_le] at hfirst
  rw [abs_of_nonneg hpos, abs_le] at hsecond
  unfold percentage
  norm_num [basisPointsDenominator] at hfirst hsecond ⊢
  rw [abs_lt]
  constructor <;> linarith

theorem percentOf_eq (hbase : 0 ≤ base) (hmax : base ≤ maxAmountToman) (hrate : 0 ≤ rate) :
    percentOf base rate = .ok (rounded base rate) ∧
      0 ≤ rounded base rate ∧ rounded base rate ≤ base := by
  have herror := abs_lt.1 (percentage_error hrates hbase hmax hrate)
  have hden : (0 : ℚ) < basisPointsDenominator := by norm_num [basisPointsDenominator]
  -- the exact quotient lies between the floor and the next integer
  have hfloor : ((base * rate / basisPointsDenominator : ℤ) : ℚ) ≤
      base * rate / basisPointsDenominator := by
    rw [le_div_iff₀ hden]
    exact_mod_cast Int.ediv_mul_le (base * rate) (by decide : basisPointsDenominator ≠ 0)
  have hnext : (base * rate / basisPointsDenominator : ℚ) <
      (base * rate / basisPointsDenominator : ℤ) + 1 := by
    rw [div_lt_iff₀ hden]
    exact_mod_cast Int.lt_ediv_add_one_mul_self (base * rate) (by decide : 0 < basisPointsDenominator)
  have hround : roundHalf (percentage base rate) = rounded base rate := by
    have hproduct : (0 : ℚ) ≤ base * rate := by exact_mod_cast mul_nonneg hbase hrate
    have hpos : 0 ≤ percentage base rate :=
      toDouble_nonneg (div_nonneg (toDouble_nonneg hproduct) hden.le)
    rw [roundHalf, if_neg (not_lt.2 hpos), mathRound, rounded, Int.floor_eq_iff]
    split_ifs with hup
    · have := hup
      unfold RoundsUp at this
      push_cast
      constructor <;> linarith
    · have := not_le.1 hup
      push_cast
      constructor <;> linarith
  have hlow := roundedDown_nonneg hbase hrate
  have hhigh : rounded base rate ≤ base := by
    have hle : base * rate / basisPointsDenominator ≤ base :=
      Int.ediv_le_of_le_mul (by decide) (mul_le_mul_of_nonneg_left hrates hbase)
    unfold rounded
    split_ifs with hup
    · -- a quotient that is all of the base is an integer, which is not rounded up
      refine Int.add_one_le_iff.2 (lt_of_le_of_ne hle ?_)
      intro heq
      unfold RoundsUp at hup
      rw [heq] at hup
      have hexact : (base * rate / basisPointsDenominator : ℚ) ≤ base := by
        rw [div_le_iff₀ hden]
        exact_mod_cast mul_le_mul_of_nonneg_left hrates hbase
      linarith
    · rwa [add_zero]
  have hnonneg : 0 ≤ rounded base rate := by
    unfold rounded
    split_ifs <;> omega
  refine ⟨?_, hnonneg, hhigh⟩
  rw [percentOf, assertAmount_ofInt hbase hmax, assertRateBasisPoints,
    if_neg (not_or.2 ⟨not_lt.2 hrate, not_lt.2 hrates⟩)]
  rw [show toDouble (toDouble (base * rate) / basisPointsDenominator) = percentage base rate from rfl,
    hround]
  exact assertAmount_ofInt hnonneg (hhigh.trans hmax)

theorem splitExact_eq (hbase : 0 ≤ base) (hmax : base ≤ maxAmountToman) (hrate : 0 ≤ rate) :
    splitExact base rate = .ok ⟨rounded base rate, base - rounded base rate⟩ := by
  obtain ⟨hpct, _, hle⟩ := percentOf_eq hrates hbase hmax hrate
  rw [splitExact, hpct]
  dsimp only
  rw [assertAmount_ofInt (sub_nonneg.2 hle) (by omega)]

end

end Percentage

end BeauClick.Money
