import BeauClick.Money.Rounding

/-!
# Where money arithmetic is exact

`addAmounts`, `percentOf` and `splitExact` (`libs/money/src/money.ts`) on doubles.

* `exactness_iff` — they are exact exactly while sums and products stay safe integers.
-/

namespace BeauClick.Money

def maxSafeInteger : ℤ := 2 ^ 53 - 1

/-- What `assertAmount` lets through. -/
def Amount := {n : ℤ // |n| ≤ maxAmountToman}

/-- What `assertRateBasisPoints` lets through. -/
def Rate := {r : ℤ // 0 ≤ r ∧ r ≤ basisPointsDenominator}

/-- The total of the loop of `addAmounts`: each sum is rounded to a double. -/
def runningTotal (values : List Amount) : ℚ :=
  values.foldl (fun total v => toDouble (total + v.1)) 0

/-- The sum, checked like every amount. -/
def addAmounts (values : List Amount) : Except MoneyError ℤ :=
  assertAmount (.finite (runningTotal values))

/-! ## Safe integers -/

theorem toDouble_eq_self {z e : ℤ} (hz : |z| ≤ maxSafeInteger) :
    toDouble (z * 2 ^ e) = z * 2 ^ e := by
  have htwo : (0 : ℚ) < 2 ^ e := by positivity
  unfold toDouble
  split_ifs with h
  · exact h.symm
  · have hle : (2 : ℚ) ^ binaryExponent (z * 2 ^ e) < 2 ^ (53 + e) := by
      refine (zpow_binaryExponent_le h).trans_lt ?_
      rw [abs_mul, abs_of_pos htwo, zpow_add₀ two_ne_zero]
      refine mul_lt_mul_of_pos_right ?_ htwo
      have : |z| < 2 ^ 53 := Int.lt_of_le_sub_one hz
      exact_mod_cast this
    have hexp := (zpow_lt_zpow_iff_right₀ (by norm_num : (1 : ℚ) < 2)).1 hle
    -- so many bits are left after the unit in the last place
    obtain ⟨n, hn⟩ := Int.eq_ofNat_of_zero_le
      (by omega : 0 ≤ e - (binaryExponent (z * 2 ^ e) - 52))
    have hquot : (z * 2 ^ e : ℚ) / 2 ^ (binaryExponent (z * 2 ^ e) - 52) = (z * 2 ^ n : ℤ) := by
      rw [mul_div_assoc, ← zpow_sub₀ two_ne_zero, hn]
      push_cast
      rfl
    dsimp only
    have hround : roundHalfEven ((z * 2 ^ n : ℤ) : ℚ) = z * 2 ^ n := by
      rw [roundHalfEven, Int.floor_intCast]
      simp
    rw [hquot, hround, ← hquot, div_mul_cancel₀ _ (by positivity)]

theorem toDouble_int {z : ℤ} (hz : |z| ≤ maxSafeInteger) : toDouble z = z := by
  simpa using @toDouble_eq_self z 0 hz

theorem double_safe (z : ℤ) : |toDouble z| ≤ maxSafeInteger ↔ |z| ≤ maxSafeInteger := by
  constructor
  · intro h
    by_contra hz
    unfold maxSafeInteger at h hz
    have hlow := abs_sub_abs_le_abs_sub (z : ℚ) (toDouble z)
    rw [abs_sub_comm] at hlow
    have herror := hlow.trans (toDouble_error z)
    rcases eq_or_lt_of_le (Int.add_one_le_of_lt (not_le.1 hz)) with heq | hlt
    · -- the next integer has one bit
      have hpow : toDouble z = z := by
        have hone := @toDouble_eq_self 1 53 (by decide)
        have hneg := @toDouble_eq_self (-1) 53 (by decide)
        norm_num at hone hneg
        rcases abs_eq (by norm_num) |>.1 heq.symm with rfl | rfl <;> norm_num [hone, hneg]
      rw [hpow] at h
      exact hz (by exact_mod_cast h)
    · have hbig : (2 ^ 53 + 1 : ℚ) ≤ |(z : ℚ)| := by exact_mod_cast hlt
      push_cast at h
      linarith
  · intro hz
    rw [toDouble_int hz]
    exact_mod_cast hz

/-! ## Percentages -/

/-- The percentage of the rational product, halves away from zero. -/
def exactPart (base rate : ℤ) : ℤ := roundHalf (base * rate / basisPointsDenominator)

theorem mathRound_eq {n : ℤ} {d : ℚ} (h : |d - n / 10000| < 1 / 10000) (hn : n % 10000 ≠ 5000) :
    mathRound d = mathRound (n / 10000) := by
  obtain ⟨k, hk⟩ : ∃ k, k = (n + 5000) / 10000 := ⟨_, rfl⟩
  have hlow : (10000 * k + 1 : ℚ) ≤ n + 5000 := by exact_mod_cast (by omega)
  have hhigh : (n + 5000 + 1 : ℚ) ≤ 10000 * k + 10000 := by exact_mod_cast (by omega)
  rw [abs_lt] at h
  trans k
  · rw [mathRound, Int.floor_eq_iff]
    constructor <;> linarith
  · rw [mathRound, eq_comm, Int.floor_eq_iff]
    constructor <;> linarith

theorem roundHalf_toDouble {n : ℤ} (hn : |n| ≤ maxSafeInteger) :
    roundHalf (toDouble (n / 10000)) = roundHalf (n / 10000) := by
  by_cases hhalf : n % 5000 = 0
  · -- a half is a double
    obtain ⟨z, rfl⟩ := Int.dvd_of_emod_eq_zero hhalf
    have hz := @toDouble_eq_self z (-1) (by rw [abs_le] at *; omega)
    rw [show (((5000 * z : ℤ) : ℚ) / 10000) = z * 2 ^ (-1 : ℤ) by push_cast; norm_num; ring, hz]
  · have hsafe : (|n| : ℚ) ≤ 2 ^ 53 - 1 := by exact_mod_cast hn
    have herror := toDouble_error (n / 10000)
    have hclose : |toDouble (n / 10000) - n / 10000| < 1 / 10000 := by
      rw [abs_div] at herror
      linarith
    unfold roundHalf
    by_cases hneg : (n / 10000 : ℚ) < 0
    · rw [abs_of_neg hneg, abs_le] at herror
      rw [if_pos (by linarith), if_pos hneg, ← neg_div, ← Int.cast_neg, neg_inj]
      refine mathRound_eq ?_ (by omega)
      rw [abs_sub_comm] at hclose
      rwa [Int.cast_neg, neg_div, sub_neg_eq_add, neg_add_eq_sub]
    · rw [if_neg (not_lt.2 (toDouble_nonneg (not_lt.1 hneg))), if_neg hneg]
      exact mathRound_eq hclose (by omega)

theorem exactPart_neg (base rate : ℤ) : exactPart (-base) rate = -exactPart base rate := by
  unfold exactPart roundHalf
  rcases lt_trichotomy (base * rate / basisPointsDenominator : ℚ) 0 with h | h | h
  · simp [neg_div, h, h.le]
  · norm_num [neg_div, h, mathRound]
  · simp [neg_div, h, not_lt.2 h.le]

theorem assertAmount_of_abs {n : ℤ} (h : |n| ≤ maxAmountToman) :
    assertAmount (.ofInt n) = .ok n := by
  obtain ⟨hmin, hmax⟩ := abs_le.1 h
  simp [assertAmount, JsNumber.ofInt, not_lt.2 hmax, not_lt.2 (show minAmountToman ≤ n from hmin)]

variable (base : Amount) (rate : Rate)

theorem percentOf_eq_assert (h : |base.1 * rate.1| ≤ maxSafeInteger) :
    percentOf base.1 rate.1 = assertAmount (.ofInt (exactPart base.1 rate.1)) := by
  have hproduct := toDouble_int h
  have hround := roundHalf_toDouble h
  push_cast at hproduct hround
  rw [percentOf, assertAmount_of_abs base.2, assertRateBasisPoints, if_neg (by have := rate.2; omega)]
  simp only [hproduct, exactPart]
  norm_num [basisPointsDenominator, hround]

theorem exactPart_bounds (hbase : 0 ≤ base.1) (h : |base.1 * rate.1| ≤ maxSafeInteger) :
    0 ≤ exactPart base.1 rate.1 ∧ exactPart base.1 rate.1 ≤ base.1 := by
  obtain ⟨heq, hbounds⟩ := percentOf_eq rate.2.2 hbase ((le_abs_self _).trans base.2) rate.2.1
  rw [percentOf_eq_assert base rate h] at heq
  rwa [assertAmount_ofInt_eq heq] at hbounds

theorem split_exact (h : |base.1 * rate.1| ≤ maxSafeInteger) :
    percentOf base.1 rate.1 = .ok (exactPart base.1 rate.1) ∧ splitExact base.1 rate.1 =
      .ok ⟨exactPart base.1 rate.1, base.1 - exactPart base.1 rate.1⟩ := by
  have hbetween : |exactPart base.1 rate.1| ≤ |base.1| ∧
      |base.1 - exactPart base.1 rate.1| ≤ |base.1| := by
    rcases le_total 0 base.1 with hbase | hbase
    · have hbounds := exactPart_bounds base rate hbase h
      grind
    · have hbounds := exactPart_bounds ⟨-base.1, by rw [abs_neg]; exact base.2⟩ rate (by simpa)
        (by rwa [neg_mul, abs_neg])
      rw [exactPart_neg] at hbounds
      grind
  have hpct : percentOf base.1 rate.1 = .ok (exactPart base.1 rate.1) := by
    rw [percentOf_eq_assert base rate h, assertAmount_of_abs (hbetween.1.trans base.2)]
  refine ⟨hpct, ?_⟩
  rw [splitExact, hpct]
  dsimp only
  rw [assertAmount_of_abs (hbetween.2.trans base.2)]

/-! ## Sums -/

/-- The exact sum. -/
def exactSum (values : List Amount) : ℤ := (values.map (·.1)).sum

variable {values : List Amount}

theorem runningTotal_concat (v : Amount) :
    runningTotal (values ++ [v]) = toDouble (runningTotal values + v.1) := by
  simp [runningTotal]

theorem exactSum_concat (v : Amount) : exactSum (values ++ [v]) = exactSum values + v.1 := by
  simp [exactSum]

theorem runningTotal_eq (h : ∀ p, p <+: values → |exactSum p| ≤ maxSafeInteger) :
    runningTotal values = exactSum values := by
  induction values using List.reverseRecOn with
  | nil => rfl
  | append_singleton values v ih =>
    rw [runningTotal_concat, ih fun p hp => h p (hp.trans (List.prefix_append ..)),
      ← Int.cast_add, ← exactSum_concat, toDouble_int (h _ (List.prefix_refl _))]

theorem totals_iff : (∀ p, p <+: values → |runningTotal p| ≤ maxSafeInteger) ↔
    ∀ p, p <+: values → |exactSum p| ≤ maxSafeInteger := by
  constructor
  · intro h
    induction values using List.reverseRecOn with
    | nil => simp [exactSum, maxSafeInteger]
    | append_singleton values v ih =>
      have ih := ih fun p hp => h p (hp.trans (List.prefix_append ..))
      intro p hp
      rcases List.prefix_concat_iff.1 hp with rfl | hp
      · have hlast := h _ (List.prefix_refl _)
        rwa [runningTotal_concat, runningTotal_eq ih, ← Int.cast_add, ← exactSum_concat,
          double_safe] at hlast
      · exact ih p hp
  · intro h p hp
    rw [runningTotal_eq fun q hq => h q (hq.trans hp)]
    exact_mod_cast h p hp

/-- Sums, percentages and splits are exact, on safe integers all along. -/
structure Exact (values : List Amount) (base : Amount) (rate : Rate) : Prop where
  totals : ∀ p, p <+: values → |runningTotal p| ≤ maxSafeInteger
  sum : addAmounts values = assertAmount (.ofInt (exactSum values))
  product : |toDouble (base.1 * rate.1 : ℤ)| ≤ maxSafeInteger
  percent : percentOf base.1 rate.1 = .ok (exactPart base.1 rate.1)
  split : splitExact base.1 rate.1 =
    .ok ⟨exactPart base.1 rate.1, base.1 - exactPart base.1 rate.1⟩
  negated : splitExact (-base.1) rate.1 =
    .ok ⟨-exactPart base.1 rate.1, -(base.1 - exactPart base.1 rate.1)⟩

/-- **When money is exact**: exactly while every partial sum and the product are safe integers. -/
theorem exactness_iff : Exact values base rate ↔
    (∀ p, p <+: values → |exactSum p| ≤ maxSafeInteger) ∧
      |base.1 * rate.1| ≤ maxSafeInteger := by
  constructor
  · exact fun h => ⟨totals_iff.1 h.totals, (double_safe _).1 h.product⟩
  · rintro ⟨hsums, hproduct⟩
    obtain ⟨hpct, hsplit⟩ := split_exact base rate hproduct
    refine ⟨totals_iff.2 hsums, ?_, (double_safe _).2 hproduct, hpct, hsplit, ?_⟩
    · rw [addAmounts, runningTotal_eq hsums]
      rfl
    · have hneg := (split_exact ⟨-base.1, by rw [abs_neg]; exact base.2⟩ rate
        (by rwa [neg_mul, abs_neg])).2
      rw [exactPart_neg] at hneg
      rw [hneg, neg_sub, neg_sub_neg]

/-- A percentage that is one too many. -/
theorem exact_fails : ¬∀ values base rate, Exact values base rate := by
  intro h
  have hpct := (h [] ⟨9805154111997, by decide⟩ ⟨9001, by decide⟩).percent
  exact absurd hpct (by decide +kernel)

end BeauClick.Money
