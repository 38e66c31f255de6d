import VisibilityRules.Number.Binary64
import VisibilityRules.Text.Digit

set_option autoImplicit false

/-!
Numerals as people write them: a sign, digits around an optional point, an optional power of ten.
-/
namespace VisibilityRules.Number

structure Decimal where
  negative : Bool
  significand : Nat
  exponent : Int
  deriving DecidableEq, Repr

def splitSign : List Char → Bool × List Char
  | '-' :: rest => (true, rest)
  | '+' :: rest => (false, rest)
  | cs => (false, cs)

def digitsValue (cs : List Char) : Nat :=
  -- The number that ASCII digits write; without digits it is zero.
  Text.appendDigits 10 0 (Text.digits cs)

def readExponent? : List Char → Option Int
  | [] => some 0
  | c :: rest => if c == 'e' || c == 'E' then Text.signed? rest else none

def splitPoint : List Char → List Char × List Char
  | '.' :: rest => (rest.takeWhile Text.isDigit, rest.dropWhile Text.isDigit)
  | cs => ([], cs)

def readDecimal? (cs : List Char) : Option Decimal :=
  let (negative, unsigned) := splitSign cs
  let whole := unsigned.takeWhile Text.isDigit
  let (part, rest) := splitPoint (unsigned.dropWhile Text.isDigit)
  if whole.isEmpty && part.isEmpty then none
  else
    (readExponent? rest).map fun exponent =>
      ⟨negative, digitsValue (whole ++ part), exponent - part.length⟩

end VisibilityRules.Number
