import VisibilityRules.Json.Value
import VisibilityRules.Number.Shortest

set_option autoImplicit false

/-!
Numbers as a machine reads them. Integers that fit a word of 64 bits are exact. Any other number
takes the digits that fit an unsigned word, and scales that word by a power of ten in binary
floating point; a number beyond its range is refused.
-/
namespace VisibilityRules.Json

open Number (Binary64)

/-- Reads digits onto a number as long as it fits an unsigned word; the digits that are left. -/
def fillWord (n : Nat) : List Nat → Nat × List Nat
  | [] => (n, [])
  | d :: rest =>
    if n * 10 + d < 0x10000000000000000 then fillWord (n * 10 + d) rest else (n, d :: rest)

def powerOfTen (exponent : Nat) : Binary64 := .ofNat (Nat.pow 10 exponent)

/-- A number times a power of ten, rounded at every step. -/
def scale? (x : Binary64) (exponent : Int) : Option Binary64 :=
  if exponent < -308 then
    if x = .zero then some x
    else scale? (x.dividedBy (powerOfTen 308)) (exponent + 308)
  else if exponent < 0 then some (x.dividedBy (powerOfTen exponent.natAbs))
  else if exponent ≤ 308 then
    let scaled := x.times (powerOfTen exponent.natAbs)
    if scaled = .infinite then none else some scaled
  else if x = .zero then some x
  else none
termination_by exponent.natAbs

namespace Numeral

def wholeValue (n : Numeral) : Nat := Text.appendDigits 10 0 n.whole

def magnitude? (n : Numeral) : Option Binary64 :=
  let (word, beyond) := fillWord 0 n.whole
  let fraction := n.fraction.getD []
  -- Digits that do not fit still count as places before the point, but not behind it.
  let (word, ignored) := fillWord word fraction
  let shift : Int := (beyond.length : Int) - (fraction.length - ignored.length : Nat)
  scale? (.ofNat word) (shift + n.exponent.getD 0)

def word? (n : Numeral) : Option Int :=
  if n.fraction.isSome || n.exponent.isSome then none
  else if n.negative then
    if 0 < n.wholeValue ∧ n.wholeValue ≤ 0x8000000000000000 then some (-(n.wholeValue : Int))
    else none
  else if n.wholeValue < 0x10000000000000000 then some n.wholeValue
  else none

def canonical? (n : Numeral) : Option String :=
  match n.word? with
  | some integer => some (toString integer)
  | none =>
    n.magnitude?.map fun x =>
      String.ofList ((if n.negative then ['-'] else []) ++ x.render)

end Numeral

end VisibilityRules.Json
