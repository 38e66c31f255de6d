set_option autoImplicit false

/-!
Dates of the Gregorian calendar, extended to all years before and after its introduction, and their
day numbers: 1 January of year 1, a Monday, is day 1.
-/
namespace VisibilityRules.Calendar

structure Date where
  year : Int
  month : Nat
  day : Nat
  deriving DecidableEq, Repr

def isLeapYear (year : Int) : Bool := year % 4 == 0 && (year % 100 != 0 || year % 400 == 0)

def monthLength (leap : Bool) : Nat → Nat
  | 2 => if leap then 29 else 28
  | 4 | 6 | 9 | 11 => 30
  | _ => 31

def daysBeforeMonth (leap : Bool) : Nat → Nat
  | 0 => 0
  | 1 => 0
  | month + 2 => daysBeforeMonth leap (month + 1) + monthLength leap (month + 1)

def daysBeforeYear (year : Int) : Int :=
  365 * (year - 1) + (year - 1) / 4 - (year - 1) / 100 + (year - 1) / 400

/-- The month and the day of the month that lie `days` days after the first of `month`. -/
def walkMonths (leap : Bool) (month days : Nat) : Nat → Nat × Nat
  | 0 => (month, days + 1)
  | later + 1 =>
    if days < monthLength leap month then (month, days + 1)
    else walkMonths leap (month + 1) (days - monthLength leap month) later

namespace Date

def IsValid (d : Date) : Prop :=
  1 ≤ d.month ∧ d.month ≤ 12 ∧ 1 ≤ d.day ∧ d.day ≤ monthLength (isLeapYear d.year) d.month

instance (d : Date) : Decidable d.IsValid := by unfold IsValid; infer_instance

def number (d : Date) : Int :=
  daysBeforeYear d.year + daysBeforeMonth (isLeapYear d.year) d.month + d.day

def ofNumber (n : Int) : Date :=
  -- The date of a day number. A period of 400 years has 146097 days; the last century of it and the
  -- last year of four are the ones with a day more, which the minima account for.
  -- Days, centuries and years are counted from 0 within what encloses them.
  let inPeriod := ((n - 1) % 146097).toNat
  let century := min 3 (inPeriod / 36524)
  let inCentury := inPeriod - 36524 * century
  let inFour := inCentury % 1461
  let yearOfFour := min 3 (inFour / 365)
  let year : Int := 400 * ((n - 1) / 146097) + 100 * century + 4 * (inCentury / 1461) + yearOfFour + 1
  let (month, day) := walkMonths (isLeapYear year) 1 (inFour - 365 * yearOfFour) 11
  ⟨year, month, day⟩

end Date

/-- The day of the week of a day number, Sunday being 0. -/
def weekday (n : Int) : Nat := (n % 7).toNat

end VisibilityRules.Calendar
