import VisibilityRules.Calendar.Instant
import VisibilityRules.Number.Decimal
import VisibilityRules.Text.Blank
import VisibilityRules.Text.Split

set_option autoImplicit false

/-!
Dates, clock times and day lists as authors write them: `2016/01/30 15:10`, `16/1`, `9:5`,
`1, 3, 5`. Parts that are missing or are no numbers take their defaults; parts out of range roll
over into the next unit, so month 13 is January of the following year and 25:00 is 01:00 of the
following day.
-/
namespace VisibilityRules.Calendar

def word? (n : Int) : Option Int :=
  if -0x8000000000000000 ≤ n ∧ n < 0x8000000000000000 then some n else none

def integerPart? (cs : List Char) : Option Int := do
  let numeral ← Number.readDecimal? cs
  let magnitude ← (Number.Binary64.ofDecimal numeral.significand numeral.exponent).floor?
  if magnitude < 0x8000000000000000 then
    some (if numeral.negative then -magnitude else magnitude)
  else none

def readPart (default : Int) (part : List Char) : Int :=
  -- One numeric part. An empty one and a plain zero count as missing.
  let digits := Text.trimChars part
  if digits = [] ∨ digits = ['0'] then default
  else
    match (Text.signed? digits).bind word? with
    | some n => n
    | none => (integerPart? digits).getD default

def partAt (default : Int) (parts : List (List Char)) (i : Nat) : Int :=
  (parts[i]?.map (readPart default)).getD default

/-- Years of two digits lie between 1970 and 2069. -/
def expandYear (year : Int) : Int :=
  if 0 ≤ year ∧ year ≤ 69 then year + 2000
  else if 70 ≤ year ∧ year ≤ 100 then year + 1900
  else year

/-- Midnight of the first day of a month, months counted from January of year 0. -/
def monthStart? (months : Int) : Option Instant :=
  let year := months / 12
  if firstYear ≤ year ∧ year ≤ lastYear then
    some (Instant.midnight (Date.number ⟨year, (months % 12).toNat + 1, 1⟩))
  else none

def normalize? (year month day hour minute second : Int) : Option Instant := do
  -- The instant that parts, in range or not, lead to. There is none when the count of months or of
  -- days leaves its word or a step leaves the calendar.
  let months ← word? (expandYear year * 12)
  let months ← word? (months + (← word? (month - 1)))
  let first ← monthStart? months
  -- Each step has to stay in the calendar, even if a later one would lead back.
  let days ← word? (day - 1)
  let day ← later? (days * secondsPerDay) first
  let hour ← later? (hour * 3600) day
  let minute ← later? (minute * 60) hour
  later? second minute

/-- A clock time on a given day; hours from 24 on fall on later days. -/
def onDay? (d : Date) (hour minute second : Int) : Option Instant :=
  normalize? d.year d.month d.day hour minute second

def readClockChars (text : List Char) : Int × Int :=
  let parts := Text.split ':' (Text.trimChars text)
  (partAt 0 parts 0, partAt 0 parts 1)

def readClock (text : String) : Int × Int := readClockChars text.toList

def readDate? (text : String) : Option Instant :=
  let fields := Text.split ' ' (Text.trimChars text.toList)
  let parts := Text.split '/' (Text.trimChars (fields.headD []))
  let (hour, minute) := (fields[1]?.map readClockChars).getD (0, 0)
  normalize? (partAt 2000 parts 0) (partAt 1 parts 1) (partAt 1 parts 2) hour minute 0

def readDay? (item : List Char) : Option Nat :=
  (Text.unsigned? (Text.trimChars item)).filter (· < 0x100000000)

def splitDays : List Char → List (List Char)
  | [] => [[]]
  | ',' :: ' ' :: rest => [] :: splitDays rest
  | c :: rest => Text.extendHead c (splitDays rest)

/-- Reads numbers of week days, `1, 3, 5`, Sunday being 0; other items are skipped. -/
def readDays (text : String) : List Nat := (splitDays text.toList).filterMap readDay?

end VisibilityRules.Calendar
