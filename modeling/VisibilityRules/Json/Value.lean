import VisibilityRules.Text.Digit

set_option autoImplicit false

/-!
JSON values. A number is kept as it is written. The text of a string is absent when its escapes
name half of a surrogate pair alone, which is fit for no text; the members of an object keep their
order and their repetitions.
-/
namespace VisibilityRules.Json

structure Numeral where
  negative : Bool
  whole : List Nat
  fraction : Option (List Nat)
  exponent : Option Int
  deriving DecidableEq, Repr

def decimalDigits (n : Nat) : List Nat :=
  if n < 10 then [n] else decimalDigits (n / 10) ++ [n % 10]

namespace Numeral

def ofNat (n : Nat) : Numeral := ⟨false, decimalDigits n, none, none⟩

def ofInt (n : Int) : Numeral := ⟨n < 0, decimalDigits n.natAbs, none, none⟩

end Numeral

inductive Value where
  | null
  | bool (b : Bool)
  | number (n : Numeral)
  | string (s : Option String)
  | array (items : List Value)
  | object (members : List (Option String × Value))

namespace Value

def text (s : String) : Value := .string (some s)

def nat (n : Nat) : Value := .number (.ofNat n)

def int (n : Int) : Value := .number (.ofInt n)

def record (members : List (String × Value)) : Value :=
  .object (members.map fun (key, value) => (some key, value))

def orNull {α : Type} (encode : α → Value) : Option α → Value
  | none => .null
  | some a => encode a

end Value

end VisibilityRules.Json
