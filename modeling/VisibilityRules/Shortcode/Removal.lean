import VisibilityRules.Text.Utf8

set_option autoImplicit false

/-!
Cutting byte ranges out of a text. The ranges may come in any order, overlap, repeat and reach past
the end; what lies in none of them is kept. What they cover together begins and ends between
characters.
-/
namespace VisibilityRules.Shortcode

/-- The bytes from `start` up to but not including `stop`. -/
structure Span where
  start : Nat
  stop : Nat
  deriving DecidableEq, Repr

namespace Span

def length (span : Span) : Nat := span.stop - span.start

def covers (span : Span) (position : Nat) : Bool := span.start ≤ position && position < span.stop

end Span

def takeBytes : Nat → List Char → List Char
  | _, [] => []
  | count, c :: rest =>
    if c.utf8Size ≤ count then c :: takeBytes (count - c.utf8Size) rest else []

def dropBytes : Nat → List Char → List Char
  | 0, cs => cs
  | _ + 1, [] => []
  | count + 1, c :: rest => dropBytes (count + 1 - c.utf8Size) rest

/-- Cuts spans, sorted by their starts, out of a text that begins at byte `here` and of which all
before byte `position` is gone. Nothing is dropped before the next piece to keep is known, since
spans that overlap may meet inside a character. -/
def cutSorted : Nat → Nat → List Span → List Char → List Char
  | here, position, [], text => dropBytes (position - here) text
  | here, position, span :: later, text =>
    -- Earlier spans have taken all of this one.
    if span.stop ≤ position then cutSorted here position later text
    else if span.start ≤ position then cutSorted here span.stop later text
    else
      let left := dropBytes (position - here) text
      takeBytes (span.start - position) left ++ cutSorted position span.stop later left

def cut (spans : List Span) (text : List Char) : List Char :=
  cutSorted 0 0 (spans.mergeSort fun a b => a.start ≤ b.start) text

def removeSpans (text : String) (spans : List Span) : String :=
  String.ofList (cut spans text.toList)

end VisibilityRules.Shortcode
