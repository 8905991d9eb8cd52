import Mathlib.Data.Int.Init
import Mathlib.Data.Int.Order.Basic
import Mathlib.Data.Nat.Init
import Mathlib.Logic.Function.Iterate

/-!
# The proleptic Gregorian calendar

A date is valid by construction, and the day after a date is a date.  Days are numbered from
1970-01-01 in both directions.  The next day has the next number, and no two dates share a number,
so a date is determined by its distance from that day, and a time of a date by its distance in
seconds.
-/

namespace Calendar

/-- Every fourth year is a leap year, but of the years that end a century only every fourth. -/
def IsLeap (year : Int) : Prop := 4 ∣ year ∧ (100 ∣ year → 400 ∣ year)

instance : DecidablePred IsLeap := fun _ => inferInstanceAs (Decidable (_ ∧ _))

def daysInMonth (year : Int) (month : Nat) : Nat :=
  match month with
  | 2 => if IsLeap year then 29 else 28
  | 4 => 30
  | 6 => 30
  | 9 => 30
  | 11 => 30
  | _ => 31

def daysInYear (year : Int) : Nat := if IsLeap year then 366 else 365

/-- The days of a year before the first of a month. -/
def daysBeforeMonth (year : Int) : Nat → Nat
  | 0 => 0
  | 1 => 0
  | month + 2 => daysBeforeMonth year (month + 1) + daysInMonth year (month + 1)

/-- The number of the first day of a year. -/
def daysBeforeYear (year : Int) : Int :=
  365 * (year - 1) + (year - 1) / 4 - (year - 1) / 100 + (year - 1) / 400 - 719162

theorem daysInMonth_pos (year : Int) (month : Nat) : 1 ≤ daysInMonth year month := by
  unfold daysInMonth
  split <;> (try split) <;> decide

theorem daysInMonth_le (year : Int) (month : Nat) : daysInMonth year month ≤ 31 := by
  unfold daysInMonth
  split <;> (try split) <;> decide

/-- A year is its twelve months. -/
theorem daysBeforeMonth_year (year : Int) :
    daysBeforeMonth year 12 + daysInMonth year 12 = daysInYear year := by
  simp only [daysBeforeMonth, daysInMonth, daysInYear]
  split <;> rfl

theorem daysBeforeYear_succ (year : Int) :
    daysBeforeYear (year + 1) = daysBeforeYear year + daysInYear year := by
  unfold daysBeforeYear daysInYear
  split
  case isTrue leap =>
    unfold IsLeap at leap
    omega
  case isFalse common =>
    unfold IsLeap at common
    omega

theorem daysBeforeYear_le {earlier later : Int} (ordered : earlier ≤ later) :
    daysBeforeYear earlier ≤ daysBeforeYear later := by
  induction later, ordered using Int.leInduction with
  | base => exact Int.le_refl _
  | succ later _ ih =>
      rw [daysBeforeYear_succ]
      omega

/-- A month ends before a later one starts. -/
theorem daysBeforeMonth_add_le (year : Int) {month later : Nat} (positive : 1 ≤ month)
    (before : month < later) :
    daysBeforeMonth year month + daysInMonth year month ≤ daysBeforeMonth year later := by
  induction later, before using Nat.le_induction with
  | base =>
      obtain ⟨previous, rfl⟩ := Nat.exists_eq_add_of_le' positive
      exact Nat.le_refl _
  | succ later after ih =>
      obtain ⟨previous, rfl⟩ :=
        Nat.exists_eq_add_of_le' (Nat.le_trans positive (Nat.le_of_succ_le after))
      rw [daysBeforeMonth]
      omega

/-! ## Dates -/

/-- A date of the Gregorian calendar. -/
@[ext]
structure Date where
  year : Int
  month : Nat
  day : Nat
  month_pos : 1 ≤ month
  month_le : month ≤ 12
  day_pos : 1 ≤ day
  day_le : day ≤ daysInMonth year month

namespace Date

/-- 1970-01-01. -/
def epoch : Date where
  year := 1970
  month := 1
  day := 1
  month_pos := by decide
  month_le := by decide
  day_pos := by decide
  day_le := by decide

/-- The day after. -/
def next (date : Date) : Date :=
  if inMonth : date.day < daysInMonth date.year date.month then
    { date with day := date.day + 1, day_pos := Nat.le_add_left 1 date.day, day_le := inMonth }
  else if inYear : date.month < 12 then
    { year := date.year, month := date.month + 1, day := 1,
      month_pos := Nat.le_add_left 1 date.month, month_le := inYear, day_pos := Nat.le_refl 1,
      day_le := daysInMonth_pos date.year (date.month + 1) }
  else
    { year := date.year + 1, month := 1, day := 1, month_pos := Nat.le_refl 1,
      month_le := by decide, day_pos := Nat.le_refl 1,
      day_le := daysInMonth_pos (date.year + 1) 1 }

/-- The number of days from the epoch. -/
def dayNumber (date : Date) : Int :=
  daysBeforeYear date.year + daysBeforeMonth date.year date.month + date.day - 1

theorem dayNumber_epoch : epoch.dayNumber = 0 := by decide

theorem dayNumber_next (date : Date) : date.next.dayNumber = date.dayNumber + 1 := by
  have day_le := date.day_le
  have month_pos := date.month_pos
  have month_le := date.month_le
  unfold next
  split
  case isTrue inMonth =>
    simp only [dayNumber]
    omega
  case isFalse atEnd =>
    split
    case isTrue inYear =>
      obtain ⟨previous, month_eq⟩ := Nat.exists_eq_add_of_le' month_pos
      simp only [dayNumber, month_eq, daysBeforeMonth] at atEnd ⊢
      rw [month_eq] at day_le
      omega
    case isFalse december =>
      have month_eq : date.month = 12 := by omega
      have whole := daysBeforeMonth_year date.year
      rw [month_eq] at atEnd day_le
      simp only [dayNumber, month_eq, daysBeforeYear_succ]
      rw [← whole, daysBeforeMonth]
      omega

/-- The date some days after the epoch. -/
theorem dayNumber_iterate (count : Nat) : (next^[count] epoch).dayNumber = count := by
  induction count with
  | zero => exact dayNumber_epoch
  | succ count ih =>
      rw [Function.iterate_succ_apply', dayNumber_next, ih]
      rfl

/-- A date lies in its year. -/
theorem dayNumber_lt (date : Date) : date.dayNumber < daysBeforeYear (date.year + 1) := by
  have day_le := date.day_le
  have whole := daysBeforeMonth_year date.year
  rw [dayNumber, daysBeforeYear_succ, ← whole]
  rcases Nat.lt_or_ge date.month 12 with before | after
  · have ended := daysBeforeMonth_add_le date.year date.month_pos before
    omega
  · have month_eq : date.month = 12 := Nat.le_antisymm date.month_le after
    rw [month_eq] at day_le ⊢
    omega

theorem year_le_of_dayNumber_eq {first second : Date}
    (same : first.dayNumber = second.dayNumber) : first.year ≤ second.year := by
  by_contra later
  have second_lt := second.dayNumber_lt
  have years := daysBeforeYear_le (Int.add_one_le_of_lt (Int.not_le.mp later))
  have first_pos := first.day_pos
  have first_eq : first.dayNumber =
    daysBeforeYear first.year + daysBeforeMonth first.year first.month + first.day - 1 := rfl
  omega

theorem month_le_of_dayNumber_eq {first second : Date} (years : first.year = second.year)
    (same : first.dayNumber = second.dayNumber) : first.month ≤ second.month := by
  by_contra later
  have ended := daysBeforeMonth_add_le second.year second.month_pos (Nat.lt_of_not_le later)
  have second_le := second.day_le
  have first_pos := first.day_pos
  rw [dayNumber, dayNumber, years] at same
  omega

/-- No two dates have the same number. -/
theorem dayNumber_injective : Function.Injective dayNumber := by
  intro first second same
  have years : first.year = second.year :=
    Int.le_antisymm (year_le_of_dayNumber_eq same) (year_le_of_dayNumber_eq same.symm)
  have months : first.month = second.month :=
    Nat.le_antisymm (month_le_of_dayNumber_eq years same)
      (month_le_of_dayNumber_eq years.symm same.symm)
  have days : first.day = second.day := by
    rw [dayNumber, dayNumber, years, months] at same
    omega
  exact Date.ext years months days

end Date

/-! ## Times -/

/-- A second of a day. -/
@[ext]
structure DateTime where
  date : Date
  hour : Nat
  minute : Nat
  second : Nat
  hour_lt : hour < 24
  minute_lt : minute < 60
  second_lt : second < 60

/-- The number of seconds from the start of the epoch. -/
def DateTime.seconds (time : DateTime) : Int :=
  time.date.dayNumber * 86400 + time.hour * 3600 + time.minute * 60 + time.second

theorem DateTime.seconds_injective : Function.Injective DateTime.seconds := by
  intro first second same
  have first_hour := first.hour_lt
  have first_minute := first.minute_lt
  have first_second := first.second_lt
  have second_hour := second.hour_lt
  have second_minute := second.minute_lt
  have second_second := second.second_lt
  simp only [seconds] at same
  have dates : first.date = second.date := Date.dayNumber_injective (by omega)
  rw [dates] at same
  apply DateTime.ext dates <;> omega

end Calendar
