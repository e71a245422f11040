import Mathlib.Data.Rat.Floor

/-!
# The money representation

`libs/money/src/money.ts`: amounts are integer Toman within `±10¹³`, rates are
basis points.  Every amount enters the domain through `assertAmount`, which
throws on anything else, so the model takes a JavaScript number in and gives an
integer out.
-/

namespace BeauClick.Money

def maxAmountToman : ℤ := 10000000000000

def minAmountToman : ℤ := -maxAmountToman

def basisPointsDenominator : ℤ := 10000

/-- A JavaScript number: a finite one has a rational value, and `NaN` and the
two infinities are told apart by nothing below. -/
inductive JsNumber where
  | notFinite
  | finite (value : ℚ)
  deriving DecidableEq

/-- An integer as a JavaScript number. -/
def JsNumber.ofInt (n : ℤ) : JsNumber := .finite n

/-- `MoneyError`, by the check that threw it. -/
inductive MoneyError where
  | notFinite
  | notInteger
  | outOfRange
  | negative
  | rateOutOfRange
  deriving DecidableEq

/-- An integer within the bounds, or an error. -/
def assertAmount : JsNumber → Except MoneyError ℤ
  | .notFinite => .error .notFinite
  | .finite value =>
    if value.den ≠ 1 then .error .notInteger
    else if value.num > maxAmountToman ∨ value.num < minAmountToman then .error .outOfRange
    else .ok value.num

def assertNonNegativeAmount (value : JsNumber) : Except MoneyError ℤ :=
  match assertAmount value with
  | .error err => .error err
  | .ok n => if n < 0 then .error .negative else .ok n

theorem assertNonNegativeAmount_nonneg {value : JsNumber} {n : ℤ}
    (h : assertNonNegativeAmount value = .ok n) : 0 ≤ n := by
  unfold assertNonNegativeAmount at h
  split at h
  · cases h
  split at h
  · cases h
  rename_i hneg
  cases h
  exact not_lt.1 hneg

theorem assertNonNegativeAmount_ofInt {n : ℤ} (h0 : 0 ≤ n) (hmax : n ≤ maxAmountToman) :
    assertNonNegativeAmount (.ofInt n) = .ok n := by
  have hmin : minAmountToman ≤ n := le_trans (by decide) h0
  simp [assertNonNegativeAmount, assertAmount, JsNumber.ofInt, not_lt.2 hmax, not_lt.2 hmin,
    not_lt.2 h0]

theorem assertAmount_ofInt_eq {n m : ℤ} (h : assertAmount (.ofInt n) = .ok m) : m = n := by
  simp only [assertAmount, JsNumber.ofInt] at h
  split at h
  · cases h
  split at h
  · cases h
  injection h with h
  rw [← h]
  exact Rat.num_intCast n

theorem assertNonNegativeAmount_ofInt_eq {n m : ℤ}
    (h : assertNonNegativeAmount (.ofInt n) = .ok m) :
    m = n := by
  unfold assertNonNegativeAmount at h
  split at h
  · cases h
  rename_i k hk
  split at h
  · cases h
  injection h with h
  rw [← h]
  exact assertAmount_ofInt_eq hk

/-! ## Double-precision arithmetic -/

/-- The exponent of the power of two at or below `|q|`. -/
def binaryExponent (q : ℚ) : ℤ :=
  let guess : ℤ := (Nat.log2 q.num.natAbs : ℤ) - Nat.log2 q.den
  if (2 : ℚ) ^ guess ≤ |q| then guess else guess - 1

/-- The nearest integer, the even one of two. -/
def roundHalfEven (q : ℚ) : ℤ :=
  if q - ⌊q⌋ < 1 / 2 then ⌊q⌋
  else if 1 / 2 < q - ⌊q⌋ then ⌊q⌋ + 1
  else if ⌊q⌋ % 2 = 0 then ⌊q⌋ else ⌊q⌋ + 1

/-- The double nearest to `q`, for the magnitudes that amounts and rates have: no
overflow and no subnormal number. -/
def toDouble (q : ℚ) : ℚ :=
  if q = 0 then 0
  else
    let ulp : ℚ := 2 ^ (binaryExponent q - 52)
    roundHalfEven (q / ulp) * ulp

/-- `Math.round`: halves go up. -/
def mathRound (q : ℚ) : ℤ := ⌊q + 1 / 2⌋

/-- `roundHalf`: halves go away from zero. -/
def roundHalf (q : ℚ) : ℤ := if q < 0 then -mathRound (-q) else mathRound q

/-- `assertRateBasisPoints`, for the integers a rate column holds. -/
def assertRateBasisPoints (rate : ℤ) : Except MoneyError ℤ :=
  if rate < 0 ∨ basisPointsDenominator < rate then .error .rateOutOfRange else .ok rate

/-- `percentOf`.  The product and the quotient are each rounded to a double. -/
def percentOf (base rateBasisPoints : ℤ) : Except MoneyError ℤ :=
  match assertAmount (.ofInt base), assertRateBasisPoints rateBasisPoints with
  | .error err, _ => .error err
  | .ok _, .error err => .error err
  | .ok _, .ok _ =>
    assertAmount (.ofInt (roundHalf
      (toDouble (toDouble (base * rateBasisPoints) / basisPointsDenominator))))

/-- The two parts of a sum. -/
structure ExactSplit where
  part : ℤ
  remainder : ℤ

/-- The share by rate and the rest, which sum to the total. -/
def splitExact (total rateBasisPoints : ℤ) : Except MoneyError ExactSplit :=
  match percentOf total rateBasisPoints with
  | .error err => .error err
  | .ok part =>
    match assertAmount (.ofInt (total - part)) with
    | .error err => .error err
    | .ok remainder => .ok ⟨part, remainder⟩

theorem splitExact_sum {total rate : ℤ} {s : ExactSplit} (h : splitExact total rate = .ok s) :
    s.part + s.remainder = total := by
  unfold splitExact at h
  split at h
  · cases h
  rename_i part _
  split at h
  · cases h
  rename_i remainder hrem
  injection h with h
  rw [← h, assertAmount_ofInt_eq hrem]
  show part + (total - part) = total
  omega

theorem splitExact_zero {rate : ℤ} {s : ExactSplit} (h : splitExact 0 rate = .ok s) :
    s = ⟨0, 0⟩ := by
  have hround : roundHalf (toDouble (toDouble (0 * rate) / basisPointsDenominator)) = 0 := by
    have hzero : roundHalf 0 = 0 := by decide +kernel
    simpa only [toDouble, zero_mul, if_true, zero_div] using hzero
  have hpart : ∀ p, percentOf 0 rate = .ok p → p = 0 := by
    intro p hp
    unfold percentOf at hp
    split at hp
    · cases hp
    · cases hp
    have heq := assertAmount_ofInt_eq hp
    rw [heq]
    simpa using hround
  have hsum := splitExact_sum h
  unfold splitExact at h
  split at h
  · cases h
  rename_i part hp
  split at h
  · cases h
  cases h
  have hzero := hpart part hp
  simp only [ExactSplit.mk.injEq]
  dsimp only at hsum
  omega

example : percentOf 51 1500 = .ok 8 := by decide +kernel

end BeauClick.Money
