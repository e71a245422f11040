import BeauClick.Commerce.Order

/-!
# The month that a referrer's cap is counted in

`packages/persian-utils/src/jalali.ts` and `tehranCalendarMonth` of
`services/referral/src/referral-clock.ts`.
-/

namespace BeauClick.Referral

/-! ## The calendar -/

/-- `BREAKS`: where the sub-cycles of 33 years begin. -/
def breaks : List ℤ :=
  [-61, 9, 38, 199, 426, 686, 756, 818, 1111, 1181, 1210, 1635, 2060, 2097, 2192, 2262, 2324, 2394,
    2456, 3178]

/-- What `jalCal` answers. -/
structure JalCal where
  leap : ℤ
  gy : ℤ
  march : ℤ

/-- The loop of `jalCal` over the breaks after the first one: `leapJ`, `jp` and `jump`. -/
def jalCalLoop (jy : ℤ) : List ℤ → ℤ → ℤ → ℤ → ℤ × ℤ × ℤ
  | [], leapJ, jp, jump => (leapJ, jp, jump)
  | jm :: rest, leapJ, jp, _ =>
    if jy < jm then (leapJ, jp, jm - jp)
    else
      jalCalLoop jy rest (leapJ + (jm - jp).tdiv 33 * 8 + ((jm - jp).tmod 33).tdiv 4) jm (jm - jp)

/-- The place of a Jalali year in its leap cycle, and the day in March it starts on. -/
def jalCal (jy : ℤ) : JalCal :=
  let (leapJ₀, jp, jump) := jalCalLoop jy breaks.tail (-14) (-61) 0
  let gy := jy + 621
  let n := jy - jp
  let leapJ₁ := leapJ₀ + n.tdiv 33 * 8 + (n.tmod 33 + 3).tdiv 4
  let leapJ := if jump.tmod 33 = 4 ∧ jump - n = 4 then leapJ₁ + 1 else leapJ₁
  let leapG := gy.tdiv 4 - ((gy.tdiv 100 + 1) * 3).tdiv 4 - 150
  let m := if jump - n < 6 then n - jump + (jump + 4).tdiv 33 * 33 else n
  let leap := ((m + 1).tmod 33 - 1).tmod 4
  { leap := if leap = -1 then 4 else leap
    gy := gy
    march := 20 + leapJ - leapG }

/-- `g2d`: the day number of a Gregorian date. -/
def g2d (gy gm gd : ℤ) : ℤ :=
  let d := ((gy + (gm - 8).tdiv 6 + 100100) * 1461).tdiv 4 + (153 * (gm + 9).tmod 12 + 2).tdiv 5 +
    gd - 34840408
  d - ((gy + 100100 + (gm - 8).tdiv 6).tdiv 100 * 3).tdiv 4 + 752

/-- `d2g(…).gy`: the Gregorian year of a day number. -/
def d2gYear (jdn : ℤ) : ℤ :=
  let j := 4 * jdn + 139361631 + ((4 * jdn + 183187720).tdiv 146097 * 3).tdiv 4 * 4 - 3908
  let i := (j.tmod 1461).tdiv 4 * 5 + 308
  let gm := (i.tdiv 153).tmod 12 + 1
  j.tdiv 1461 - 100100 + (8 - gm).tdiv 6

/-- A date of the Jalali calendar. -/
structure JalaliDate where
  jy : ℤ
  jm : ℤ
  jd : ℤ
  deriving DecidableEq

/-- `d2j`: the Jalali date of a day number. -/
def d2j (jdn : ℤ) : JalaliDate :=
  let gy := d2gYear jdn
  let jy := gy - 621
  let r := jalCal jy
  let k := jdn - g2d gy 3 r.march
  if 0 ≤ k then
    if k ≤ 185 then ⟨jy, 1 + k.tdiv 31, k.tmod 31 + 1⟩
    else ⟨jy, 7 + (k - 186).tdiv 30, (k - 186).tmod 30 + 1⟩
  else
    let k := k + 179 + if r.leap = 1 then 1 else 0
    ⟨jy - 1, 7 + k.tdiv 30, k.tmod 30 + 1⟩

def toJalali (gy gm gd : ℤ) : JalaliDate := d2j (g2d gy gm gd)

example : toJalali 1979 2 11 = ⟨1357, 11, 22⟩ := by decide

/-! ## The month of an instant -/

/-- The fields of `ZonedWallClock` that are read. -/
structure ZonedWallClock where
  year : ℤ
  month : ℤ
  day : ℤ

/-- A key `YYYY-MM`, of the shape of `REFERRAL_PERIOD_KEY_PATTERN` and of
`ck_referrer_counters_period_format`. -/
structure Period where
  jy : ℤ
  jm : ℤ
  format : 1000 ≤ jy ∧ jy ≤ 9999 ∧ 1 ≤ jm ∧ jm ≤ 12
  deriving DecidableEq

/-- `tehranCalendarMonth`: nothing where it throws.  `wallClockIn` reads the clock in
`Asia/Tehran`. -/
def tehranCalendarMonth (wallClockIn : Instant → ZonedWallClock) (instant : Instant) :
    Option Period :=
  let wall := wallClockIn instant
  let date := toJalali wall.year wall.month wall.day
  if h : 1000 ≤ date.jy ∧ date.jy ≤ 9999 ∧ 1 ≤ date.jm ∧ date.jm ≤ 12 then
    some ⟨date.jy, date.jm, h⟩
  else none

end BeauClick.Referral
