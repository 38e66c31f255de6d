import VisibilityRules.Calendar.Instant
import VisibilityRules.Text.Blank
import VisibilityRules.Text.Digit

set_option autoImplicit false

/-!
Times in one of a few fixed layouts. A text is read along a layout from left to right, without
turning back: blanks may stand in front of a number, a blank of the layout stands for any number of
them, and numbers need not be padded. Years beyond four digits take a sign.
-/
namespace VisibilityRules.Calendar

inductive Field where
  | year
  | month
  | day
  | hour
  | minute
  | second
  deriving DecidableEq, Repr

inductive LayoutItem where
  | field (f : Field)
  | mark (c : Char)
  | blanks
  deriving DecidableEq, Repr

structure DateTime where
  date : Date
  hour : Nat
  minute : Nat
  second : Nat
  deriving DecidableEq, Repr

namespace DateTime

def blank : DateTime := ⟨⟨0, 1, 1⟩, 0, 0, 0⟩

def set? (t : DateTime) (f : Field) (value : Int) : Option DateTime :=
  let n := value.toNat
  match f with
  | .year => some { t with date := { t.date with year := value } }
  | .month => if 1 ≤ n ∧ n ≤ 12 then some { t with date := { t.date with month := n } } else none
  | .day => if 1 ≤ n ∧ n ≤ 31 then some { t with date := { t.date with day := n } } else none
  | .hour => if n ≤ 23 then some { t with hour := n } else none
  | .minute => if n ≤ 59 then some { t with minute := n } else none
  | .second => if n ≤ 60 then some { t with second := n } else none

def instant? (t : DateTime) : Option Instant :=
  -- The instant of a date that exists; a leap second belongs to the second before it.
  if t.date.IsValid ∧ firstYear ≤ t.date.year ∧ t.date.year ≤ lastYear then
    some (Instant.ofDate t.date t.hour t.minute (min 59 t.second) (t.second / 60 * 1000000000))
  else none

end DateTime

def readNumber? (most : Nat) (cs : List Char) : Option (Nat × List Char) :=
  let digits := (cs.take most).takeWhile Text.isDigit
  if digits.isEmpty then none
  else some (Text.appendDigits 10 0 (Text.digits digits), cs.drop digits.length)

def readField? (f : Field) (cs : List Char) : Option (Int × List Char) :=
  match f, cs with
  | .year, '-' :: rest => (readNumber? rest.length rest).map fun (n, rest) => (-(n : Int), rest)
  | .year, '+' :: rest => (readNumber? rest.length rest).map fun (n, rest) => ((n : Int), rest)
  | .year, cs => (readNumber? 4 cs).map fun (n, rest) => ((n : Int), rest)
  | _, cs => (readNumber? 2 cs).map fun (n, rest) => ((n : Int), rest)

def readLayout? (t : DateTime) : List LayoutItem → List Char → Option DateTime
  | [], [] => some t
  | [], _ :: _ => none
  | .blanks :: layout, cs => readLayout? t layout (Text.skipBlanks cs)
  | .mark m :: layout, c :: rest => if c = m then readLayout? t layout rest else none
  | .mark _ :: _, [] => none
  | .field f :: layout, cs => do
    let (value, rest) ← readField? f (Text.skipBlanks cs)
    readLayout? (← t.set? f value) layout rest

def dateLayout (m : Char) : List LayoutItem :=
  [.field .year, .mark m, .field .month, .mark m, .field .day]

def minuteLayout : List LayoutItem := [.field .hour, .mark ':', .field .minute]

def secondLayout : List LayoutItem := minuteLayout ++ [.mark ':', .field .second]

/-- The layouts in the order in which they are tried. -/
def layouts : List (List LayoutItem) :=
  [dateLayout '-' ++ .blanks :: secondLayout,
   dateLayout '-' ++ .blanks :: minuteLayout,
   dateLayout '-' ++ .mark 'T' :: secondLayout,
   dateLayout '/' ++ .blanks :: secondLayout,
   dateLayout '/' ++ .blanks :: minuteLayout,
   dateLayout '-',
   dateLayout '/']

def readTime? (text : List Char) : Option Instant :=
  layouts.findSome? fun layout => (readLayout? .blank layout text).bind DateTime.instant?

end VisibilityRules.Calendar
