import BeauClick.Lib.Fields
import Mathlib.Data.Int.Notation
import Mathlib.Tactic.Ring

/-!
# Dates as text

An instant, in milliseconds from 1970, as `YYYY-MM-DDTHH:mm:ss.sssZ` of the Gregorian calendar.
The years that are counted with begin in March, so that the day of a leap year is their last.

* `IsoDate.toISOString`, `IsoDate.parse` — the text of an instant, and the instant of a text.
* `number_dayOf` — the calendar gives a number of days back.
* `parse_toISOString` — the instant is read back, where its year has four digits.
-/

namespace IsoDate

/-! ## The calendar -/

/-- A day of the calendar. -/
structure Day where
  year : ℤ
  month : ℤ
  day : ℤ

/-- The days from 1970-01-01 to a day. -/
def Day.number (d : Day) : ℤ :=
  let y := if d.month ≤ 2 then d.year - 1 else d.year
  let m := if d.month ≤ 2 then d.month + 9 else d.month - 3
  365 * y + y / 4 - y / 100 + y / 400 + (153 * m + 2) / 5 + d.day - 719469

/-- The year from March on, and the days of it that are past: the era of 400 years, the century,
the four years and the year are found one after the other. -/
def marchYear (number : ℤ) : ℤ × ℤ :=
  let n := number + 719468
  let inEra := n % 146097
  let century := min 3 (inEra / 36524)
  let inCentury := inEra - 36524 * century
  let inFour := inCentury % 1461
  let y := min 3 (inFour / 365)
  (400 * (n / 146097) + 100 * century + 4 * (inCentury / 1461) + y, inFour - 365 * y)

/-- The day that has `inYear` days of its year, from March on, behind it. -/
def dayIn (year inYear : ℤ) : Day :=
  let m := (5 * inYear + 2) / 153
  { year := if m < 10 then year else year + 1
    month := if m < 10 then m + 3 else m - 9
    day := inYear - (153 * m + 2) / 5 + 1 }

/-- The day that is so many days from 1970-01-01. -/
def dayOf (number : ℤ) : Day := dayIn (marchYear number).1 (marchYear number).2

/-- The days of the years before one, by its era, century, four years and place among them. -/
theorem years_days (era : ℤ) {century four y : ℤ} (hcentury : 0 ≤ century ∧ century ≤ 3)
    (hfour : 0 ≤ four ∧ four ≤ 24) (hy : 0 ≤ y ∧ y ≤ 3) :
    let year := 400 * era + 100 * century + 4 * four + y
    365 * year + year / 4 - year / 100 + year / 400 =
      146097 * era + 36524 * century + 1461 * four + 365 * y := by
  have hleap : (400 * era + 100 * century + 4 * four + y) / 4 = 100 * era + 25 * century + four := by
    omega
  have hhundred : (400 * era + 100 * century + 4 * four + y) / 100 = 4 * era + century := by omega
  have hera : (400 * era + 100 * century + 4 * four + y) / 400 = era := by omega
  dsimp only
  rw [hleap, hhundred, hera]
  ring

theorem marchYear_spec (number : ℤ) : (0 ≤ (marchYear number).2 ∧ (marchYear number).2 ≤ 365) ∧
    365 * (marchYear number).1 + (marchYear number).1 / 4 - (marchYear number).1 / 100 +
      (marchYear number).1 / 400 + (marchYear number).2 = number + 719468 := by
  unfold marchYear
  dsimp only
  generalize hera : (number + 719468) / 146097 = era
  generalize hinEra : (number + 719468) % 146097 = inEra
  generalize hcentury : min 3 (inEra / 36524) = century
  generalize hinCentury : inEra - 36524 * century = inCentury
  generalize hfour : inCentury / 1461 = four
  generalize hinFour : inCentury % 1461 = inFour
  generalize hy : min 3 (inFour / 365) = y
  have hcenturies : 0 ≤ century ∧ century ≤ 3 := by omega
  have hfours : 0 ≤ four ∧ four ≤ 24 := by omega
  have hys : 0 ≤ y ∧ y ≤ 3 := by omega
  have hyears := years_days era hcenturies hfours hys
  omega

theorem dayIn_bounds {inYear : ℤ} (h : 0 ≤ inYear ∧ inYear ≤ 365) (year : ℤ) :
    (1 ≤ (dayIn year inYear).month ∧ (dayIn year inYear).month ≤ 12) ∧
      1 ≤ (dayIn year inYear).day ∧ (dayIn year inYear).day ≤ 31 := by
  unfold dayIn
  dsimp only
  omega

theorem number_dayIn {inYear : ℤ} (h : 0 ≤ inYear ∧ inYear ≤ 365) (year : ℤ) :
    (dayIn year inYear).number =
      365 * year + year / 4 - year / 100 + year / 400 + inYear - 719468 := by
  unfold dayIn Day.number
  generalize hm : (5 * inYear + 2) / 153 = m
  by_cases hlate : m < 10
  · -- from March to December
    have hmonth : ¬m + 3 ≤ 2 := by omega
    simp only [hlate, hmonth, if_true, if_false, add_sub_cancel_right]
    omega
  · have hmonth : m - 9 ≤ 2 := by omega
    simp only [hlate, hmonth, if_true, if_false, add_sub_cancel_right, sub_add_cancel]
    omega

theorem number_dayOf (number : ℤ) : (dayOf number).number = number := by
  obtain ⟨hinYear, _⟩ := marchYear_spec number
  rw [dayOf, number_dayIn hinYear]
  omega

/-! ## The text -/

/-- `YYYY-MM-DDTHH:mm:ss.sssZ`. -/
def columns : List Fields.Column :=
  [⟨4, ['-']⟩, ⟨2, ['-']⟩, ⟨2, ['T']⟩, ⟨2, [':']⟩, ⟨2, [':']⟩, ⟨2, ['.']⟩, ⟨3, ['Z']⟩]

/-- The year of an instant. -/
def year (ms : ℤ) : ℤ := (dayOf (ms / 86400000)).year

/-- The numbers of an instant's text. -/
def numbers (ms : ℤ) : List ℕ :=
  let d := dayOf (ms / 86400000)
  let t := (ms % 86400000).toNat
  [d.year.toNat, d.month.toNat, d.day.toNat, t / 3600000, t / 60000 % 60, t / 1000 % 60, t % 1000]

/-- `toISOString`, of a year of four digits. -/
def toISOString (ms : ℤ) : List Char := Fields.write 10 (columns.zip (numbers ms))

/-- The instant of a text that `toISOString` can write. -/
def parse (cs : List Char) : Option ℤ :=
  match Fields.read 10 columns cs with
  | some [y, m, d, h, i, s, f] =>
    if (1 ≤ m ∧ m ≤ 12) ∧ (1 ≤ d ∧ d ≤ 31) ∧ h < 24 ∧ i < 60 ∧ s < 60 then
      some (Day.number ⟨y, m, d⟩ * 86400000 + (h * 3600000 + i * 60000 + s * 1000 + f : ℕ))
    else none
  | _ => none

variable {ms : ℤ}

/-- What is written is read back. -/
theorem parse_toISOString (hyear : 0 ≤ year ms ∧ year ms < 10000) :
    parse (toISOString ms) = some ms := by
  obtain ⟨hmonth, hday⟩ := dayIn_bounds (marchYear_spec (ms / 86400000)).1 _
  rw [← dayOf] at hmonth hday
  have hnumber := number_dayOf (ms / 86400000)
  unfold year at hyear
  have hread : Fields.read 10 columns (toISOString ms) = some (numbers ms) := by
    refine Fields.read_write (by decide) (columns.zip (numbers ms)) ?_
    simp only [columns, numbers, List.zip_cons_cons, List.zip_nil_right, List.forall_mem_cons,
      List.not_mem_nil, IsEmpty.forall_iff, implies_true, and_true]
    omega
  unfold parse
  rw [hread]
  dsimp only [numbers]
  generalize dayOf (ms / 86400000) = day at hyear hmonth hday hnumber ⊢
  rw [if_pos (by omega)]
  have hback : Day.mk day.year.toNat day.month.toNat day.day.toNat = day := by
    obtain ⟨_, _, _⟩ := day
    dsimp only at hyear hmonth hday
    simp only [Day.mk.injEq]
    omega
  rw [hback]
  refine congrArg some ?_
  omega

theorem forall_mem_toISOString {P : Char → Prop} (hdigit : ∀ d < 16, P (Nat.digitChar d))
    (hsep : ∀ c ∈ ['-', 'T', ':', '.', 'Z'], P c) : ∀ c ∈ toISOString ms, P c := by
  refine Fields.forall_mem_write (by decide) (by decide) hdigit ?_
  simpa [columns, numbers] using hsep

theorem length_toISOString : (toISOString ms).length = 24 := Fields.length_write _

end IsoDate
