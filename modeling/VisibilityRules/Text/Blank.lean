import VisibilityRules.Text.Ranges

set_option autoImplicit false

/-!
Blanks, the 25 characters with the Unicode property White_Space, and trimming them off.
-/
namespace VisibilityRules.Text

def blankRanges : List (Nat × Nat) :=
  [(0x09, 0x0D), (0x20, 0x20), (0x85, 0x85), (0xA0, 0xA0), (0x1680, 0x1680), (0x2000, 0x200A),
   (0x2028, 0x2029), (0x202F, 0x202F), (0x205F, 0x205F), (0x3000, 0x3000)]

def isBlank (c : Char) : Bool := inRanges blankRanges c.toNat

def skipBlanks (cs : List Char) : List Char := cs.dropWhile isBlank

def trimChars (cs : List Char) : List Char := (skipBlanks (skipBlanks cs).reverse).reverse

def trim (s : String) : String := String.ofList (trimChars s.toList)

end VisibilityRules.Text
