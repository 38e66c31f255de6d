set_option autoImplicit false

/-!
Base 64: three bytes as four letters of six bits. Text is written with padding, and read with the
padding that is written or without any.
-/
namespace VisibilityRules.Base64

def letter (n : Nat) : Char :=
  if n < 26 then Char.ofNat (0x41 + n)
  else if n < 52 then Char.ofNat (0x61 + (n - 26))
  else if n < 62 then Char.ofNat (0x30 + (n - 52))
  else if n = 62 then '+'
  else '/'

def value? (c : Char) : Option Nat :=
  let n := c.toNat
  if 0x41 ≤ n && n ≤ 0x5A then some (n - 0x41)
  else if 0x61 ≤ n && n ≤ 0x7A then some (n - 0x61 + 26)
  else if 0x30 ≤ n && n ≤ 0x39 then some (n - 0x30 + 52)
  else if c = '+' then some 62
  else if c = '/' then some 63
  else none

def encode : List UInt8 → List Char
  | [] => []
  | [a] => [letter (a.toNat / 4), letter (a.toNat % 4 * 16), '=', '=']
  | [a, b] =>
    [letter (a.toNat / 4), letter (a.toNat % 4 * 16 + b.toNat / 16), letter (b.toNat % 16 * 4), '=']
  | a :: b :: c :: rest =>
    letter (a.toNat / 4) :: letter (a.toNat % 4 * 16 + b.toNat / 16) ::
      letter (b.toNat % 16 * 4 + c.toNat / 64) :: letter (c.toNat % 64) :: encode rest

def ofSextets? : List Nat → Option (List UInt8)
  -- The bytes of groups of six bits. Bits that fill no byte must be zero.
  | [] => some []
  | [_] => none
  | [a, b] => if b % 16 = 0 then some [UInt8.ofNat (a * 4 + b / 16)] else none
  | [a, b, c] =>
    if c % 4 = 0 then some [UInt8.ofNat (a * 4 + b / 16), UInt8.ofNat (b % 16 * 16 + c / 4)]
    else none
  | a :: b :: c :: d :: rest =>
    (ofSextets? rest).map fun bytes =>
      UInt8.ofNat (a * 4 + b / 16) :: UInt8.ofNat (b % 16 * 16 + c / 4) ::
        UInt8.ofNat (c % 4 * 64 + d) :: bytes

def decode? (letters : List Char) : Option (List UInt8) := (letters.mapM value?).bind ofSextets?

def decodePadded? : List Char → Option (List UInt8)
  -- Reads letters in groups of four, of which the last is filled up with padding.
  | [] => some []
  | [a, b, '=', '='] => decode? [a, b]
  | [a, b, c, '='] => decode? [a, b, c]
  | a :: b :: c :: d :: rest => do some ((← decode? [a, b, c, d]) ++ (← decodePadded? rest))
  | _ => none

def dropPadding (letters : List Char) : List Char :=
  -- Drops the padding at the end of a text, whatever its length.
  (letters.reverse.dropWhile (· == '=')).reverse

end VisibilityRules.Base64
