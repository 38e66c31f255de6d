import VisibilityRules.Calendar.Date

set_option autoImplicit false

/-!
Wall-clock times. The calendar that can be represented ends with the years -262143 and 262142.
-/
namespace VisibilityRules.Calendar

def secondsPerDay : Int := 86400

structure Instant where
  -- Seconds since the midnight at which day number 0 begins.
  second : Int
  -- Nanoseconds beyond that second; a leap second counts them on past one thousand million.
  nanos : Nat
  deriving DecidableEq, Repr

namespace Instant

instance : LT Instant :=
  ⟨fun a b => a.second < b.second ∨ (a.second = b.second ∧ a.nanos < b.nanos)⟩

instance (a b : Instant) : Decidable (a < b) :=
  inferInstanceAs (Decidable (a.second < b.second ∨ (a.second = b.second ∧ a.nanos < b.nanos)))

def wholeSecond (t : Instant) : Instant := ⟨t.second, 0⟩

def dayNumber (t : Instant) : Int := t.second / secondsPerDay

def date (t : Instant) : Date := Date.ofNumber t.dayNumber

def secondOfDay (t : Instant) : Nat := (t.second % secondsPerDay).toNat

def midnight (dayNumber : Int) : Instant := ⟨dayNumber * secondsPerDay, 0⟩

def ofDate (d : Date) (hour minute second : Nat) (nanos : Nat) : Instant :=
  ⟨d.number * secondsPerDay + (hour * 3600 + minute * 60 + second : Nat), nanos⟩

def clock (t : Instant) : Nat × Nat × Nat :=
  (t.secondOfDay / 3600, t.secondOfDay / 60 % 60, t.secondOfDay % 60)

end Instant

def firstYear : Int := -262143

def lastYear : Int := 262142

def InCalendar (t : Instant) : Prop :=
  (daysBeforeYear firstYear + 1) * secondsPerDay ≤ t.second ∧
    t.second < (daysBeforeYear (lastYear + 1) + 1) * secondsPerDay

instance (t : Instant) : Decidable (InCalendar t) := by unfold InCalendar; infer_instance

def later? (seconds : Int) (t : Instant) : Option Instant :=
  let moved : Instant := ⟨t.second + seconds, t.nanos⟩
  if InCalendar moved then some moved else none

end VisibilityRules.Calendar
