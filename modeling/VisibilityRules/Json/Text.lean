import VisibilityRules.Json.Value

set_option autoImplicit false

/-!
The text of JSON values, on one line or indented by two spaces. Only quotes, backslashes and
control characters are escaped.
-/
namespace VisibilityRules.Json

def hexDigit (n : Nat) : Char := Char.ofNat (if n < 10 then 0x30 + n else 0x57 + n)

def escapeChar (c : Char) : List Char :=
  match c with
  | '"' => ['\\', '"']
  | '\\' => ['\\', '\\']
  | '\x08' => ['\\', 'b']
  | '\x0c' => ['\\', 'f']
  | '\n' => ['\\', 'n']
  | '\r' => ['\\', 'r']
  | '\t' => ['\\', 't']
  | c =>
    if c.toNat < 0x20 then
      ['\\', 'u', '0', '0', hexDigit (c.toNat / 16), hexDigit (c.toNat % 16)]
    else [c]

def printString : Option String → List Char
  -- The text of a string; one that no text fits is written as half of a surrogate pair.
  | some s => '"' :: s.toList.flatMap escapeChar ++ ['"']
  | none => ['"', '\\', 'u', 'd', '8', '0', '0', '"']

def printDigits (digits : List Nat) : List Char := digits.map fun d => Char.ofNat (0x30 + d)

def Numeral.print (n : Numeral) : List Char :=
  (if n.negative then ['-'] else []) ++ printDigits n.whole ++
    (match n.fraction with
      | none => []
      | some digits => '.' :: printDigits digits) ++
    (match n.exponent with
      | none => []
      | some e => 'e' :: (if e < 0 then ['-'] else []) ++ printDigits (decimalDigits e.natAbs))

def joinWith (separator : List Char) : List (List Char) → List Char
  | [] => []
  | [text] => text
  | text :: rest => text ++ separator ++ joinWith separator rest

def printAtom : Value → List Char
  | .bool true => "true".toList
  | .bool false => "false".toList
  | .number n => n.print
  | .string s => printString s
  | _ => "null".toList

mutual

def print : Value → List Char
  | .array items => '[' :: joinWith [','] (printItems items) ++ [']']
  | .object members => '\x7b' :: joinWith [','] (printMembers members) ++ ['\x7d']
  | v => printAtom v

def printItems : List Value → List (List Char)
  | [] => []
  | v :: rest => print v :: printItems rest

def printMembers : List (Option String × Value) → List (List Char)
  | [] => []
  | (key, v) :: rest => (printString key ++ ':' :: print v) :: printMembers rest

end

def lineBreak (depth : Nat) : List Char := '\n' :: List.replicate (2 * depth) ' '

def block (first last : Char) (depth : Nat) (items : List (List Char)) : List Char :=
  if items.isEmpty then [first, last]
  else
    first :: lineBreak (depth + 1) ++ joinWith (',' :: lineBreak (depth + 1)) items ++
      lineBreak depth ++ [last]

mutual

def printIndented (depth : Nat) : Value → List Char
  | .array items => block '[' ']' depth (indentedItems (depth + 1) items)
  | .object members => block '\x7b' '\x7d' depth (indentedMembers (depth + 1) members)
  | v => printAtom v

def indentedItems (depth : Nat) : List Value → List (List Char)
  | [] => []
  | v :: rest => printIndented depth v :: indentedItems depth rest

def indentedMembers (depth : Nat) : List (Option String × Value) → List (List Char)
  | [] => []
  | (key, v) :: rest =>
    (printString key ++ [':', ' '] ++ printIndented depth v) :: indentedMembers depth rest

end

def Value.render (v : Value) : String := String.ofList (print v)

def Value.renderIndented (v : Value) : String := String.ofList (printIndented 0 v)

end VisibilityRules.Json
