import VisibilityRules.Text.Digit
import VisibilityRules.Text.Utf8

set_option autoImplicit false

/-!
Bytes as text: letters, digits and `-._~` stand for themselves, any other byte is a percent sign
and two hexadecimal digits. A percent sign without such digits stands for itself when read.
-/
namespace VisibilityRules.Percent

def isUnreserved (b : UInt8) : Bool :=
  let n := b.toNat
  (0x41 ≤ n && n ≤ 0x5A) || (0x61 ≤ n && n ≤ 0x7A) || (0x30 ≤ n && n ≤ 0x39) ||
    n == 0x2D || n == 0x2E || n == 0x5F || n == 0x7E

def hexDigit (n : Nat) : Char := Char.ofNat (if n < 10 then 0x30 + n else 0x37 + n)

def encodeByte (b : UInt8) : List Char :=
  if isUnreserved b then [Char.ofNat b.toNat]
  else ['%', hexDigit (b.toNat / 16), hexDigit (b.toNat % 16)]

def encode (bytes : List UInt8) : List Char := bytes.flatMap encodeByte

def hexValue? (b : UInt8) : Option Nat := Text.digitValue? 16 (Char.ofNat b.toNat)

def byte? (high low : UInt8) : Option UInt8 := do
  some (UInt8.ofNat ((← hexValue? high) * 16 + (← hexValue? low)))

def decode : List UInt8 → List UInt8
  | b :: high :: low :: rest =>
    if b = 0x25 then
      match byte? high low with
      | some meant => meant :: decode rest
      | none => b :: decode (high :: low :: rest)
    else b :: decode (high :: low :: rest)
  | bytes => bytes

def decodeText? (cs : List Char) : Option (List Char) :=
  -- The text that a text stands for, if its bytes are text.
  Text.Utf8.decode? (decode (Text.Utf8.encode cs))

end VisibilityRules.Percent
