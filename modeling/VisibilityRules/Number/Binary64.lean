set_option autoImplicit false

/-!
Magnitudes of binary floating point numbers with 53 significant bits and exponents from -1074 to
971. Every operation is exact arithmetic followed by one rounding to the nearest magnitude, of two
that are equally near to the one with the even significand.
-/
namespace VisibilityRules.Number

inductive Binary64 where
  -- The number `significand * 2 ^ exponent`.
  | finite (significand : Nat) (exponent : Int)
  | infinite
  deriving DecidableEq, Repr

/-- The quotient of two numbers, rounded to the nearest integer, halves to the even one. -/
def divideHalfEven (num den : Nat) : Nat :=
  let quotient := num / den
  let twice := 2 * (num % den)
  if twice < den then quotient
  else if den < twice then quotient + 1
  else quotient + quotient % 2

def power (base : Nat) (exponent : Int) : Nat × Nat :=
  if 0 ≤ exponent then (base.pow exponent.toNat, 1) else (1, base.pow (-exponent).toNat)

def decimalLength (n : Nat) : Nat := (Nat.toDigits 10 n).length

namespace Binary64

def zero : Binary64 := .finite 0 (-1074)

/-- The exponent with which the significand of `num / den` has 53 bits, or the least one. -/
def exponentFor (num den : Nat) : Int :=
  let estimate : Int := (num.log2 : Int) - den.log2 - 53
  let (up, down) := power 2 estimate
  max (-1074) (if num * down < Nat.pow 2 53 * (den * up) then estimate else estimate + 1)

def ofFraction (num den : Nat) : Binary64 :=
  if num = 0 then zero
  else
    let exponent := exponentFor num den
    let (up, down) := power 2 exponent
    let rounded := divideHalfEven (num * down) (den * up)
    -- Rounding up may lead to the next power of two.
    let (significand, exponent) :=
      if rounded = Nat.pow 2 53 then (Nat.pow 2 52, exponent + 1) else (rounded, exponent)
    if 971 < exponent then .infinite else .finite significand exponent

def fraction? : Binary64 → Option (Nat × Nat)
  | .finite significand exponent =>
    let (up, down) := power 2 exponent
    some (significand * up, down)
  | .infinite => none

def ofNat (n : Nat) : Binary64 := ofFraction n 1

def times (x y : Binary64) : Binary64 :=
  match x.fraction?, y.fraction? with
  | some (a, b), some (c, d) => ofFraction (a * c) (b * d)
  | _, _ => .infinite

def dividedBy (x y : Binary64) : Binary64 :=
  match x.fraction?, y.fraction? with
  | some (a, b), some (c, d) => ofFraction (a * d) (b * c)
  | none, _ => .infinite
  | some _, none => zero

def floor? (x : Binary64) : Option Nat := x.fraction?.map fun (num, den) => num / den

def ofDecimal (significand : Nat) (exponent : Int) : Binary64 :=
  -- The magnitude nearest to `significand * 10 ^ exponent`. Powers of ten that lead far beyond the
  -- largest or below the smallest magnitude are not computed.
  let top := (decimalLength significand : Int) + exponent
  if significand = 0 then zero
  else if 310 < top then .infinite
  else if top < -330 then zero
  else
    let (up, down) := power 10 exponent
    ofFraction (significand * up) down

end Binary64

end VisibilityRules.Number
