import Mathlib.Tactic.IntervalCases
import Pelagos.CommandLine.Volumes
import Pelagos.Library.Calendar

/-!
# The clock on the kernel command line

The seconds since the epoch become a date and a time.  The date is computed in years that start in
March, so that the leap day comes last, and in eras of 400 years.
-/

namespace Pelagos.CommandLine

open Calendar

/-- The result of an operation on `i64` numbers, undefined above the largest one and below `low`. -/
def i64 (low value : Int) : Option Int :=
  if low ≤ value ∧ value ≤ 9223372036854775807 then some value else none

/-- The era of a day. -/
def eraOfDay (low z : Int) : Option Int := do
  let shifted ← if 0 ≤ z then pure z else i64 low (z - 146096)
  i64 low (shifted.tdiv 146097)

/-- The year of the era, `yoe`, of a day of the era. -/
def yearOfEra (low doe : Int) : Option Int := do
  let years ← i64 low (doe - (← i64 low (doe.tdiv 1460)))
  let years ← i64 low (years + (← i64 low (doe.tdiv 36524)))
  let years ← i64 low (years - (← i64 low (doe.tdiv 146096)))
  i64 low (years.tdiv 365)

/-- The day of the year, `doy`. -/
def dayOfYear (low doe yoe : Int) : Option Int := do
  let before ← i64 low ((← i64 low (365 * yoe)) + (← i64 low (yoe.tdiv 4)))
  let before ← i64 low (before - (← i64 low (yoe.tdiv 100)))
  i64 low (doe - before)

/-- The month and the day of the month. -/
def monthAndDay (low doy : Int) : Option (Int × Int) := do
  let mp ← i64 low ((← i64 low ((← i64 low (5 * doy)) + 2)).tdiv 153)
  let before ← i64 low ((← i64 low ((← i64 low (153 * mp)) + 2)).tdiv 5)
  let d ← i64 low ((← i64 low (doy - before)) + 1)
  let m ← if mp < 10 then i64 low (mp + 3) else i64 low (mp - 9)
  return (m, d)

/-- January and February belong to the next year. -/
def yearOfMonth (low y m : Int) : Option Int := if m ≤ 2 then i64 low (y + 1) else pure y

/-- The `i64` number with the bits of a `u64` number. -/
def asI64 (value : UInt64) : Int :=
  if value.toNat < 2 ^ 63 then value.toNat else value.toNat - 2 ^ 64

/-- The year, the month and the day of a number of days since the epoch. -/
def civilFromDays (low : Int) (daysSinceEpoch : UInt64) : Option (UInt64 × UInt64 × UInt64) := do
  let z ← i64 low (asI64 daysSinceEpoch + 719468)
  let era ← eraOfDay low z
  let doe ← i64 low (z - (← i64 low (era * 146097)))
  let yoe ← yearOfEra low doe
  let y ← i64 low (yoe + (← i64 low (era * 400)))
  let doy ← dayOfYear low doe yoe
  let (m, d) ← monthAndDay low doy
  let y ← yearOfMonth low y m
  return (UInt64.ofInt y, UInt64.ofInt m, UInt64.ofInt d)

/-- The numbers that are formatted. -/
structure ClockFields where
  year : UInt64
  month : UInt64
  day : UInt64
  hours : UInt64
  mins : UInt64
  secs : UInt64
  deriving DecidableEq

/-- The clock at a number of seconds since the epoch. -/
def clockFields (low : Int) (now : UInt64) : Option ClockFields := do
  let secs := now % 60
  let mins := (now / 60) % 60
  let hours := (now / 3600) % 24
  let (year, month, day) ← civilFromDays low (now / 86400)
  return { year, month, day, hours, mins, secs }

theorem i64_of_nonneg {low value : Int} (low_le : low ≤ 0) (nonneg : 0 ≤ value)
    (small : value ≤ 9223372036854775807) : i64 low value = some value :=
  if_pos ⟨Int.le_trans low_le nonneg, small⟩

theorem yearOfEra_eq {low : Int} (low_le : low ≤ 0) {doe : Nat} (small : doe < 146097) :
    yearOfEra low doe =
      some (((doe - doe / 1460 + doe / 36524 - doe / 146096) / 365 : Nat) : Int) := by
  have doe_nonneg : 0 ≤ (doe : Int) := Int.natCast_nonneg doe
  simp (disch := omega) only [yearOfEra, Int.tdiv_eq_ediv_of_nonneg, i64_of_nonneg low_le,
    Option.bind_eq_bind, Option.bind_some]
  congr 1
  omega

theorem dayOfYear_eq {low : Int} (low_le : low ≤ 0) {doe yoe doy : Nat} (small : doe < 146097)
    (doe_eq : 365 * yoe + yoe / 4 - yoe / 100 + doy = doe) :
    dayOfYear low doe yoe = some (doy : Int) := by
  have yoe_nonneg : 0 ≤ (yoe : Int) := Int.natCast_nonneg yoe
  simp (disch := omega) only [dayOfYear, Int.tdiv_eq_ediv_of_nonneg, i64_of_nonneg low_le,
    Option.bind_eq_bind, Option.bind_some]
  congr 1
  omega

/-- The month and the day of the month as whole numbers. -/
theorem monthAndDay_eq {low : Int} (low_le : low ≤ 0) {doy mp before : Nat} (doy_le : doy ≤ 365)
    (mp_eq : (5 * doy + 2) / 153 = mp) (before_eq : (153 * mp + 2) / 5 = before) :
    monthAndDay low doy = some (((if mp < 10 then mp + 3 else mp - 9 : Nat) : Int),
      ((doy - before + 1 : Nat) : Int)) := by
  have mp_le : mp ≤ 14 := by omega
  have before_le : before ≤ doy := by omega
  have mp_int : i64 low ((5 * (doy : Int) + 2).tdiv 153) = some (mp : Int) := by
    rw [Int.tdiv_eq_ediv_of_nonneg (by omega), i64_of_nonneg low_le (by omega) (by omega)]
    congr 1
    omega
  have before_int : i64 low ((153 * (mp : Int) + 2).tdiv 5) = some (before : Int) := by
    rw [Int.tdiv_eq_ediv_of_nonneg (by omega), i64_of_nonneg low_le (by omega) (by omega)]
    congr 1
    omega
  have day_int : i64 low ((doy : Int) - before + 1) = some ((doy - before + 1 : Nat) : Int) := by
    rw [i64_of_nonneg low_le (by omega) (by omega)]
    congr 1
    omega
  have times_five : i64 low (5 * (doy : Int)) = some (5 * (doy : Int)) :=
    i64_of_nonneg low_le (by omega) (by omega)
  have plus_two : i64 low (5 * (doy : Int) + 2) = some (5 * (doy : Int) + 2) :=
    i64_of_nonneg low_le (by omega) (by omega)
  have times_mp : i64 low (153 * (mp : Int)) = some (153 * (mp : Int)) :=
    i64_of_nonneg low_le (by omega) (by omega)
  have mp_plus_two : i64 low (153 * (mp : Int) + 2) = some (153 * (mp : Int) + 2) :=
    i64_of_nonneg low_le (by omega) (by omega)
  have minus_before : i64 low ((doy : Int) - before) = some ((doy : Int) - before) :=
    i64_of_nonneg low_le (by omega) (by omega)
  simp only [monthAndDay, times_five, plus_two, mp_int, times_mp, mp_plus_two, before_int,
    minus_before, day_int, Option.bind_eq_bind, Option.bind_some, Option.pure_def]
  rcases Nat.lt_or_ge mp 10 with spring | winter
  · have spring_int : (mp : Int) < 10 := by omega
    rw [if_pos spring, if_pos spring_int, i64_of_nonneg low_le (by omega) (by omega)]
    rfl
  · have winter_int : ¬ (mp : Int) < 10 := by omega
    have month_int : (mp : Int) - 9 = (mp - 9 : Nat) := by omega
    rw [if_neg (Nat.not_lt.mpr winter), if_neg winter_int, month_int,
      i64_of_nonneg low_le (by omega) (by omega)]
    rfl

/-- `YYYY-MM-DDTHH:MM:SS`. -/
def ClockFields.text (fields : ClockFields) : String :=
  padded 4 fields.year.toNat ++ "-" ++ padded 2 fields.month.toNat ++ "-" ++
    padded 2 fields.day.toNat ++ "T" ++ padded 2 fields.hours.toNat ++ ":" ++
    padded 2 fields.mins.toNat ++ ":" ++ padded 2 fields.secs.toNat

/-! ## Days of an era -/

/-- A day of an era: its century, the four-year cycle of the century, the year of the cycle and the
day of that year.  Only leap years have a day 365. -/
structure EraDay where
  century : Nat
  cycle : Nat
  year : Nat
  day : Nat
  century_le : century ≤ 3
  cycle_le : cycle ≤ 24
  year_le : year ≤ 3
  day_le : day ≤ 365
  leap_day : day = 365 → year = 3 ∧ (cycle = 24 → century = 3)

namespace EraDay

/-- The number of the day in its era. -/
def doe (eraDay : EraDay) : Nat :=
  36524 * eraDay.century + 1461 * eraDay.cycle + 365 * eraDay.year + eraDay.day

/-- The number of the year in its era. -/
def yoe (eraDay : EraDay) : Nat := 100 * eraDay.century + 4 * eraDay.cycle + eraDay.year

theorem exists_doe {number : Nat} (small : number < 146097) :
    ∃ eraDay : EraDay, eraDay.doe = number := by
  refine ⟨{
    century := min 3 (number / 36524)
    cycle := (number - 36524 * min 3 (number / 36524)) / 1461
    year := min 3 ((number - 36524 * min 3 (number / 36524)) % 1461 / 365)
    day := (number - 36524 * min 3 (number / 36524)) % 1461 -
      365 * min 3 ((number - 36524 * min 3 (number / 36524)) % 1461 / 365)
    century_le := by omega
    cycle_le := by omega
    year_le := by omega
    day_le := by omega
    leap_day := by omega }, ?_⟩
  simp only [doe]
  omega

/-- The formula for the year of the era: the divisions correct for the leap days before the day. -/
theorem yoe_eq (eraDay : EraDay) :
    (eraDay.doe - eraDay.doe / 1460 + eraDay.doe / 36524 - eraDay.doe / 146096) / 365 =
      eraDay.yoe := by
  have century_le := eraDay.century_le
  have cycle_le := eraDay.cycle_le
  have year_le := eraDay.year_le
  have day_le := eraDay.day_le
  have leap_day := eraDay.leap_day
  have cycles : eraDay.doe / 1460 = 25 * eraDay.century + eraDay.cycle +
      (24 * eraDay.century + eraDay.cycle + 365 * eraDay.year + eraDay.day) / 1460 := by
    simp only [doe]
    omega
  rcases Nat.lt_or_ge eraDay.doe 146096 with before | last
  · have centuries : eraDay.doe / 36524 = eraDay.century := by
      simp only [doe] at before ⊢
      omega
    have eras : eraDay.doe / 146096 = 0 := Nat.div_eq_of_lt before
    rw [cycles, centuries, eras]
    simp only [doe, yoe]
    omega
  · have last_day : eraDay.doe = 146096 ∧ eraDay.yoe = 399 := by
      simp only [doe, yoe] at last ⊢
      omega
    rw [last_day.1, last_day.2]

/-- The days of the era before a year. -/
theorem doe_eq (eraDay : EraDay) :
    365 * eraDay.yoe + eraDay.yoe / 4 - eraDay.yoe / 100 + eraDay.day = eraDay.doe := by
  have century_le := eraDay.century_le
  have cycle_le := eraDay.cycle_le
  have year_le := eraDay.year_le
  simp only [doe, yoe]
  omega

theorem doe_lt (eraDay : EraDay) : eraDay.doe < 146097 := by
  have century_le := eraDay.century_le
  have cycle_le := eraDay.cycle_le
  have year_le := eraDay.year_le
  have day_le := eraDay.day_le
  have leap_day := eraDay.leap_day
  simp only [doe]
  omega

theorem yoe_lt (eraDay : EraDay) : eraDay.yoe < 400 := by
  have century_le := eraDay.century_le
  have cycle_le := eraDay.cycle_le
  have year_le := eraDay.year_le
  simp only [yoe]
  omega

/-- The year after a year with a day 365 is a leap year. -/
theorem isLeap_of_leap_day (eraDay : EraDay) (era : Int) (last : eraDay.day = 365) :
    IsLeap (eraDay.yoe + 400 * era + 1) := by
  have century_le := eraDay.century_le
  have cycle_le := eraDay.cycle_le
  obtain ⟨year_eq, centuries⟩ := eraDay.leap_day last
  simp only [IsLeap, yoe]
  omega

/-- The days of an era are numbered from the first of March of its first year. -/
theorem daysBeforeYear_march (eraDay : EraDay) (era : Int) :
    daysBeforeYear (eraDay.yoe + 400 * era + 1) - 306 + eraDay.day =
      146097 * era + eraDay.doe - 719468 := by
  have century_le := eraDay.century_le
  have cycle_le := eraDay.cycle_le
  have year_le := eraDay.year_le
  simp only [daysBeforeYear, yoe, doe]
  omega

end EraDay

/-! ## Years that start in March -/

/-- From March to December. -/
theorem daysInMonth_march (year : Int) {mp : Nat} (mp_lt : mp < 10) :
    (153 * mp + 2) / 5 + daysInMonth year (mp + 3) = (153 * (mp + 1) + 2) / 5 := by
  interval_cases mp <;> rfl

theorem daysBeforeMonth_march (year : Int) {mp : Nat} (mp_le : mp ≤ 10) :
    daysBeforeMonth year (mp + 3) = daysBeforeMonth year 3 + (153 * mp + 2) / 5 := by
  induction mp with
  | zero => rfl
  | succ mp ih =>
      have length := daysInMonth_march year mp_le
      rw [Nat.add_right_comm, daysBeforeMonth, ih (Nat.le_of_succ_le mp_le), ← length,
        Nat.add_assoc]

/-- The first of March is 306 days before the next year. -/
theorem daysBeforeYear_of_march (year : Int) :
    daysBeforeYear year + daysBeforeMonth year 3 = daysBeforeYear (year + 1) - 306 := by
  have whole := daysBeforeMonth_year year
  have december : daysBeforeMonth year 12 = daysBeforeMonth year 3 + 275 :=
    daysBeforeMonth_march year (by decide : 9 ≤ 10)
  have length : daysInMonth year 12 = 31 := rfl
  rw [daysBeforeYear_succ, ← whole]
  omega

/-- A day of a year that starts in March. -/
theorem exists_date (year : Int) {doy : Nat} (doy_le : doy ≤ 365)
    (leap_day : doy = 365 → IsLeap (year + 1)) :
    ∃ date : Date,
      (∀ low ≤ 0, monthAndDay low doy = some ((date.month : Int), (date.day : Int))) ∧
      date.year = (if date.month ≤ 2 then year + 1 else year) ∧
      date.dayNumber = daysBeforeYear (year + 1) - 306 + doy := by
  have march := daysBeforeYear_of_march year
  obtain ⟨mp, mp_eq⟩ : ∃ mp, (5 * doy + 2) / 153 = mp := ⟨_, rfl⟩
  have computed (low : Int) (low_le : low ≤ 0) := monthAndDay_eq low_le doy_le mp_eq rfl
  rcases Nat.lt_or_ge mp 10 with spring | winter
  · have length := daysInMonth_march year spring
    have before := daysBeforeMonth_march year (Nat.le_of_lt spring)
    refine ⟨{
      year, month := mp + 3, day := doy - (153 * mp + 2) / 5 + 1
      month_pos := by omega
      month_le := by omega
      day_pos := by omega
      day_le := by omega }, ?_, ?_, ?_⟩
    · intro low low_le
      rw [computed low low_le, if_pos spring]
    · rw [if_neg (by simp)]
    · simp only [Date.dayNumber]
      omega
  · have cases : mp = 10 ∨ mp = 11 := by omega
    rcases cases with rfl | rfl
    · refine ⟨{
        year := year + 1, month := 1, day := doy - 306 + 1
        month_pos := by decide
        month_le := by decide
        day_pos := by omega
        day_le := by simp only [daysInMonth]; omega }, computed, rfl, ?_⟩
      simp only [Date.dayNumber, daysBeforeMonth]
      omega
    · refine ⟨{
        year := year + 1, month := 2, day := doy - 337 + 1
        month_pos := by decide
        month_le := by decide
        day_pos := by omega
        day_le := by
          simp only [daysInMonth]
          split
          case isTrue => omega
          case isFalse common =>
            have early : doy ≠ 365 := fun last => common (leap_day last)
            omega }, computed, rfl, ?_⟩
      have january : daysBeforeMonth (year + 1) 2 = 31 := rfl
      simp only [Date.dayNumber, january]
      omega

/-! ## The clock -/

theorem asI64_of_lt {value : UInt64} (small : value.toNat < 2 ^ 63) :
    asI64 value = value.toNat := if_pos small

/-- The date of a day of an era. -/
theorem civilFromDays_eq {low : Int} (low_le : low ≤ 0) {days : UInt64}
    (small : days.toNat < 2 ^ 48) {era month day : Nat} {eraDay : EraDay}
    (days_eq : days.toNat + 719468 = era * 146097 + eraDay.doe)
    (month_day : monthAndDay low eraDay.day = some ((month : Int), (day : Int))) :
    civilFromDays low days =
      some (UInt64.ofInt (if month ≤ 2 then eraDay.yoe + 400 * era + 1 else eraDay.yoe + 400 * era),
        UInt64.ofInt month, UInt64.ofInt day) := by
  have doe_lt := eraDay.doe_lt
  have yoe_lt := eraDay.yoe_lt
  have z_eq : i64 low (asI64 days + 719468) = some ((days.toNat : Int) + 719468) := by
    rw [asI64_of_lt (by omega), i64_of_nonneg low_le (by omega) (by omega)]
  have z_nonneg : 0 ≤ (days.toNat : Int) + 719468 := by omega
  have era_eq : eraOfDay low ((days.toNat : Int) + 719468) = some (era : Int) := by
    simp only [eraOfDay, if_pos z_nonneg, Option.pure_def, Option.bind_eq_bind, Option.bind_some]
    rw [Int.tdiv_eq_ediv_of_nonneg z_nonneg, i64_of_nonneg low_le (by omega) (by omega)]
    congr 1
    omega
  have doe_eq : i64 low ((days.toNat : Int) + 719468 - era * 146097) =
      some (eraDay.doe : Int) := by
    rw [i64_of_nonneg low_le (by omega) (by omega)]
    congr 1
    omega
  have year_eq : i64 low ((eraDay.yoe : Int) + era * 400) =
      some ((eraDay.yoe : Int) + 400 * era) := by
    rw [i64_of_nonneg low_le (by omega) (by omega), Int.mul_comm]
  have era_days : i64 low ((era : Int) * 146097) = some ((era : Int) * 146097) :=
    i64_of_nonneg low_le (by omega) (by omega)
  have era_years : i64 low ((era : Int) * 400) = some ((era : Int) * 400) :=
    i64_of_nonneg low_le (by omega) (by omega)
  have yoe_eq : yearOfEra low eraDay.doe = some (eraDay.yoe : Int) := by
    rw [yearOfEra_eq low_le doe_lt, eraDay.yoe_eq]
  have doy_eq : dayOfYear low eraDay.doe eraDay.yoe = some (eraDay.day : Int) :=
    dayOfYear_eq low_le doe_lt eraDay.doe_eq
  have year_of_month : yearOfMonth low ((eraDay.yoe : Int) + 400 * era) month =
      some (if month ≤ 2 then (eraDay.yoe : Int) + 400 * era + 1
        else (eraDay.yoe : Int) + 400 * era) := by
    rcases Nat.lt_or_ge 2 month with later | early
    · rw [yearOfMonth, if_neg (by omega), if_neg (by omega)]
      rfl
    · rw [yearOfMonth, if_pos (by omega), if_pos (by omega),
        i64_of_nonneg low_le (by omega) (by omega)]
  simp only [civilFromDays, Option.bind_eq_bind, Option.pure_def, Option.bind_eq_some_iff]
  exact ⟨_, z_eq, _, era_eq, _, era_days, _, doe_eq, _, yoe_eq, _, era_years, _, year_eq, _, doy_eq,
    _, month_day, _, year_of_month, rfl⟩

theorem toNat_ofInt {value : Nat} (small : value < 2 ^ 64) :
    (UInt64.ofInt value).toNat = value := by
  rw [UInt64.ofInt, UInt64.toNat_ofNat']
  omega

theorem toNat_timeOfDay (now : UInt64) :
    (now / 3600 % 24).toNat = now.toNat / 3600 % 24 ∧ (now / 60 % 60).toNat = now.toNat / 60 % 60 ∧
      (now % 60).toNat = now.toNat % 60 := by
  refine ⟨?_, ?_, UInt64.toNat_mod now 60⟩
  · rw [UInt64.toNat_mod, UInt64.toNat_div]
    rfl
  · rw [UInt64.toNat_mod, UInt64.toNat_div]
    rfl

/-- The era and the day of the era of a number of days. -/
theorem exists_eraDay (days : Nat) :
    ∃ (era : Nat) (eraDay : EraDay), days + 719468 = era * 146097 + eraDay.doe := by
  obtain ⟨eraDay, doe_eq⟩ := EraDay.exists_doe (Nat.mod_lt (days + 719468) (by decide : 0 < 146097))
  refine ⟨(days + 719468) / 146097, eraDay, ?_⟩
  rw [doe_eq, Nat.div_add_mod']

/-- The date is that of the day with the given number. -/
theorem exists_civil {days : UInt64} (small : days.toNat < 2 ^ 48) :
    ∃ (date : Date) (year month day : UInt64),
      (∀ low ≤ 0, civilFromDays low days = some (year, month, day)) ∧
      date.dayNumber = days.toNat ∧ (year.toNat : Int) = date.year ∧ month.toNat = date.month ∧
      day.toNat = date.day := by
  obtain ⟨era, eraDay, days_eq⟩ := exists_eraDay days.toNat
  have yoe_lt := eraDay.yoe_lt
  have march := eraDay.daysBeforeYear_march era
  obtain ⟨date, month_day, year_eq, number_eq⟩ :=
    exists_date (eraDay.yoe + 400 * era) eraDay.day_le (eraDay.isLeap_of_leap_day era)
  have month_le := date.month_le
  have day_le : date.day ≤ 31 := Nat.le_trans date.day_le (daysInMonth_le date.year date.month)
  obtain ⟨year, year_nat⟩ : ∃ year : Nat, date.year = year :=
    Int.eq_ofNat_of_zero_le (by rw [year_eq]; split <;> omega)
  refine ⟨date, UInt64.ofInt year, UInt64.ofInt date.month, UInt64.ofInt date.day, ?_, ?_, ?_, ?_,
    ?_⟩
  · intro low low_le
    rw [civilFromDays_eq low_le small days_eq (month_day low low_le), ← year_nat, year_eq]
  · omega
  · rw [toNat_ofInt, year_nat]
    have year_int : (year : Int) < 2 ^ 60 := by
      rw [← year_nat, year_eq]
      split <;> omega
    omega
  · exact toNat_ofInt (by omega)
  · exact toNat_ofInt (by omega)

/-- The text on the command line is that of the fields. -/
theorem text_clockFields (now : UInt64) :
    (clockFields (-2 ^ 63) now).map ClockFields.text = some (clockUtc now.toNat) := by
  have now_lt := now.toNat_lt
  have days_eq : (now / 86400).toNat = now.toNat / 86400 := UInt64.toNat_div now 86400
  obtain ⟨era, eraDay, z_eq⟩ := exists_eraDay (now / 86400).toNat
  have doe_lt := eraDay.doe_lt
  have yoe_lt := eraDay.yoe_lt
  have day_le := eraDay.day_le
  have low_le : -2 ^ 63 ≤ (0 : Int) := by decide
  have month_day := monthAndDay_eq low_le day_le rfl rfl
  rw [days_eq] at z_eq
  have era_eq : (now.toNat / 86400 + 719468) / 146097 = era := by omega
  have doe_eq : now.toNat / 86400 + 719468 - era * 146097 = eraDay.doe := by omega
  have doy_eq : eraDay.doe - (365 * eraDay.yoe + eraDay.yoe / 4 - eraDay.yoe / 100) =
      eraDay.day := by
    have sum := eraDay.doe_eq
    omega
  have civil := civilFromDays_eq low_le (by omega) (days_eq ▸ z_eq) month_day
  simp only [clockUtc, era_eq, doe_eq, eraDay.yoe_eq, doy_eq]
  generalize month_eq : (if (5 * eraDay.day + 2) / 153 < 10 then (5 * eraDay.day + 2) / 153 + 3
    else (5 * eraDay.day + 2) / 153 - 9) = month at civil ⊢
  generalize day_eq : eraDay.day - (153 * ((5 * eraDay.day + 2) / 153) + 2) / 5 + 1 = day at civil ⊢
  have month_nat : (UInt64.ofInt month).toNat = month :=
    toNat_ofInt (by split at month_eq <;> omega)
  have day_nat : (UInt64.ofInt day).toNat = day := toNat_ofInt (by omega)
  have year_nat : (UInt64.ofInt (if month ≤ 2 then (eraDay.yoe : Int) + 400 * era + 1
      else (eraDay.yoe : Int) + 400 * era)).toNat =
      if month ≤ 2 then eraDay.yoe + era * 400 + 1 else eraDay.yoe + era * 400 := by
    rw [Nat.mul_comm era 400]
    split
    · exact toNat_ofInt (by omega : eraDay.yoe + 400 * era + 1 < 2 ^ 64)
    · exact toNat_ofInt (by omega : eraDay.yoe + 400 * era < 2 ^ 64)
  obtain ⟨hours_nat, mins_nat, secs_nat⟩ := toNat_timeOfDay now
  simp only [clockFields, civil, Option.bind_eq_bind, Option.bind_some, Option.pure_def,
    Option.map_some, ClockFields.text, month_nat, day_nat, year_nat, hours_nat, mins_nat, secs_nat]

/-- The fields are those of a time. -/
def ClockFields.Shows (fields : ClockFields) (time : DateTime) : Prop :=
  (fields.year.toNat : Int) = time.date.year ∧ fields.month.toNat = time.date.month ∧
    fields.day.toNat = time.date.day ∧ fields.hours.toNat = time.hour ∧
    fields.mins.toNat = time.minute ∧ fields.secs.toNat = time.second

/-- For every number of seconds the clock shows the only time at that distance from the epoch; no
operation overflows, and none would have a negative result.  The text on the command line is that of
the fields. -/
theorem boot_clock_exact (now : UInt64) :
    ∃ (fields : ClockFields) (time : DateTime),
      (∀ low ≤ 0, clockFields low now = some fields) ∧ fields.text = clockUtc now.toNat ∧
      fields.Shows time ∧ time.seconds = now.toNat ∧
      time.date = Date.next^[now.toNat / 86400] Date.epoch ∧
      ∀ other : DateTime, other.seconds = now.toNat → other = time := by
  have now_lt := now.toNat_lt
  have days_eq : (now / 86400).toNat = now.toNat / 86400 := UInt64.toNat_div now 86400
  have days_lt : (now / 86400).toNat < 2 ^ 48 := by omega
  obtain ⟨date, year, month, day, computed, number_eq, year_eq, month_eq, day_eq⟩ :=
    exists_civil days_lt
  let time : DateTime :=
    { date, hour := now.toNat / 3600 % 24, minute := now.toNat / 60 % 60, second := now.toNat % 60,
      hour_lt := Nat.mod_lt _ (by decide), minute_lt := Nat.mod_lt _ (by decide),
      second_lt := Nat.mod_lt _ (by decide) }
  have seconds_eq : time.seconds = now.toNat := by
    simp only [DateTime.seconds, time, number_eq]
    omega
  have date_eq : date = Date.next^[now.toNat / 86400] Date.epoch := by
    apply Date.dayNumber_injective
    rw [number_eq, Date.dayNumber_iterate, days_eq]
  have clock_eq (low : Int) (low_le : low ≤ 0) : clockFields low now = some {
      year, month, day,
      hours := (now / 3600) % 24, mins := (now / 60) % 60, secs := now % 60 } := by
    rw [clockFields, computed low low_le]
    rfl
  refine ⟨_, time, clock_eq, ?_, ?_, seconds_eq, date_eq, ?_⟩
  · have text_eq := text_clockFields now
    rw [clock_eq (-2 ^ 63) (by decide), Option.map_some] at text_eq
    exact Option.some.inj text_eq
  · exact ⟨year_eq, month_eq, day_eq, toNat_timeOfDay now⟩
  · intro other other_eq
    exact DateTime.seconds_injective (other_eq.trans seconds_eq.symm)

end Pelagos.CommandLine
