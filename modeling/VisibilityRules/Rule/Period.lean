import VisibilityRules.Calendar.Authored
import VisibilityRules.Rule.Attributes
import VisibilityRules.Rule.Visitor

set_option autoImplicit false

/-!
Rules about the time of the visit, to the second. Each tells whether the element is hidden.
-/
namespace VisibilityRules.Period

open Calendar (Date Instant)

def isOutside (now start stop : Instant) : Bool := stop < now || now < start

def bound (attributes : Attributes) (key : String) (now : Instant) : Instant :=
  -- The date under an attribute; one that is missing or leads out of the calendar bounds nothing.
  ((attributes.nonEmpty key).bind Calendar.readDate?).getD now

def hiddenByDate (attributes : Attributes) (visitor : Visitor) : Bool :=
  let now := visitor.now.wholeSecond
  isOutside now (bound attributes "start_date" now) (bound attributes "end_date" now)

def opening? (attributes : Attributes) (today : Date) : Option Instant :=
  let (hour, minute) := ((attributes.nonEmpty "start_time").map Calendar.readClock).getD (0, 0)
  Calendar.onDay? today hour minute 0

/-- The end of the daily window, the last second of the day by default. A window that does not end
after it begins goes on into the next day. -/
def closing? (attributes : Attributes) (today : Date) (opening : Instant) : Option Instant :=
  match attributes.nonEmpty "end_time" with
  | none => Calendar.onDay? today 23 59 59
  | some text => do
    let (hour, minute) := Calendar.readClock text
    let closing ← Calendar.onDay? today hour minute 0
    if opening < closing then some closing else Calendar.onDay? today (hour + 24) minute 0

def window? (attributes : Attributes) (today : Date) : Option (Instant × Instant) := do
  let opening ← opening? attributes today
  some (opening, ← closing? attributes today opening)

def hiddenByClock (attributes : Attributes) (visitor : Visitor) : Bool :=
  -- A window that leads out of the calendar shows nothing.
  let now := visitor.now.wholeSecond
  match window? attributes now.date with
  | some (opening, closing) => isOutside now opening closing
  | none => true

def hiddenByWeekday (attributes : Attributes) (visitor : Visitor) : Bool :=
  match attributes.nonEmpty "day_of_week" with
  | some days => !(Calendar.readDays days).contains (Calendar.weekday visitor.now.dayNumber)
  | none => true

end VisibilityRules.Period
