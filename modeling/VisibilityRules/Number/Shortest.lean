import VisibilityRules.Number.Binary64

set_option autoImplicit false

/-!
The shortest decimal that reads back as a given magnitude, and its text. Of two that are equally
short the nearer one is taken. Seventeen digits are always enough.
-/
namespace VisibilityRules.Number

structure Scaled where
  significand : Nat
  exponent : Int
  deriving DecidableEq, Repr

def leadingPower (num den : Nat) : Int :=
  let estimate : Int := (decimalLength num : Int) - decimalLength den
  let (up, down) := power 10 estimate
  if den * up ≤ num * down then estimate else estimate - 1

/-- Of the two decimals around the fraction with the last digit at `exponent`, the nearer one that
reads back as `x`. -/
def around? (x : Binary64) (num den : Nat) (exponent : Int) : Option Scaled :=
  let (up, down) := power 10 exponent
  let below := num * down / (den * up)
  let nearest := divideHalfEven (num * down) (den * up)
  -- The nearer one fails where the gap below a power of two is the narrower one.
  let other := if nearest = below then below + 1 else below
  [nearest, other].findSome? fun significand =>
    if Binary64.ofDecimal significand exponent = x then some ⟨significand, exponent⟩ else none

def shortest (x : Binary64) : Scaled :=
  match x.fraction? with
  | none => ⟨0, 0⟩
  | some (num, den) =>
    let lead := leadingPower num den
    ((List.range 17).findSome? fun (i : Nat) => around? x num den (lead - i)).getD ⟨0, 0⟩

/-- The text of digits that begin at the power `lead` of ten: plain if the first digit stands at
most five places behind the point or fifteen before it, else with a power of ten. -/
def layOut (digits : List Char) (lead : Int) : List Char :=
  let count := digits.length
  if 0 ≤ lead ∧ lead ≤ 15 then
    let before := lead.toNat + 1
    if count ≤ before then digits ++ List.replicate (before - count) '0' ++ ['.', '0']
    else digits.take before ++ '.' :: digits.drop before
  else if -5 ≤ lead ∧ lead < 0 then
    ['0', '.'] ++ List.replicate ((-lead).toNat - 1) '0' ++ digits
  else
    let fraction := if count ≤ 1 then [] else '.' :: digits.drop 1
    let sign := if lead < 0 then '-' else '+'
    digits.take 1 ++ fraction ++ 'e' :: sign :: (toString lead.natAbs).toList

def dropFinalZeros (digits : List Char) : List Char :=
  (digits.reverse.dropWhile (· == '0')).reverse

def Binary64.render (x : Binary64) : List Char :=
  if x = zero then ['0', '.', '0']
  else
    let decimal := shortest x
    let digits := Nat.toDigits 10 decimal.significand
    layOut (dropFinalZeros digits) (decimal.exponent + digits.length - 1)

end VisibilityRules.Number
