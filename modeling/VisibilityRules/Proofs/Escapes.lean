import VisibilityRules.Proofs.Numerals
import VisibilityRules.Shortcode.Escape

set_option autoImplicit false

/-!
Texts written with backslash escapes. Whichever escape each character is written with, the text is
read back, and no escape takes anything away from what follows it.
-/
namespace VisibilityRules.Text

/-- An octal digit of this value. -/
def IsOctalDigit (c : Char) (value : Nat) : Prop := "01234567".toList[value]? = some c

instance (c : Char) (value : Nat) : Decidable (IsOctalDigit c value) :=
  inferInstanceAs (Decidable (_ = _))

theorem IsOctalDigit.value_lt {c : Char} {value : Nat} (digit : IsOctalDigit c value) : value < 8 :=
  (List.getElem?_eq_some_iff.mp digit).1

theorem IsOctalDigit.digitValue {c : Char} {value : Nat} (digit : IsOctalDigit c value) :
    digitValue? 8 c = some value := by
  have small := digit.value_lt
  interval_cases value
  all_goals
    obtain rfl := Option.some.inj digit
    rfl

theorem isOctalDigit_of_digitValue {c : Char} {value : Nat} (read : digitValue? 8 c = some value) :
    IsOctalDigit c value := by
  have code : value < 8 ∧ c.toNat = 0x30 + value := by
    simp only [digitValue?, Bool.and_eq_true, decide_eq_true_eq] at read
    grind
  obtain ⟨small, code⟩ := code
  have same : c = Char.ofNat (0x30 + value) := by rw [← code, Char.ofNat_toNat]
  rw [same]
  interval_cases value
  all_goals rfl

end VisibilityRules.Text

namespace VisibilityRules.Shortcode

theorem takeDigits_append {base : Nat} {digits : List Char} {values : List Nat}
    (read : List.Forall₂ (fun c d => Text.digitValue? base c = some d) digits values) (value : Nat)
    (rest : List Char) : takeDigits base digits.length value (digits ++ rest) =
      (Text.appendDigits base value values, digits.length) := by
  induction read generalizing value with
  | nil => rfl
  | cons first _ ih =>
    rw [List.cons_append, List.length_cons, takeDigits, first]
    simp only [ih]
    rfl

/-- Control characters and the letters that stand for them behind a backslash. -/
def escapeLetters : List (Char × Char) :=
  [('\n', 'n'), ('\t', 't'), ('\r', 'r'), ('\x07', 'a'), ('\x0b', 'v'), ('\x08', 'b'), ('\x0c', 'f')]

/-- The ways to write a character: as it is, behind a backslash, by its letter, or by the two
hexadecimal or three octal digits of its code. -/
inductive WritesChar : Char → List Char → Prop
  | plain {c : Char} : c ≠ '\\' → WritesChar c [c]
  | quoted {c : Char} : c ∉ "ntravbfx01234567".toList → WritesChar c ['\\', c]
  | letter {c letter : Char} : (c, letter) ∈ escapeLetters → WritesChar c ['\\', letter]
  | hex {c first second : Char} {d e : Nat} : Text.IsHexDigit first d → Text.IsHexDigit second e →
      c.toNat = 16 * d + e → WritesChar c ['\\', 'x', first, second]
  | octal {c first second third : Char} {d e f : Nat} : Text.IsOctalDigit first d →
      Text.IsOctalDigit second e → Text.IsOctalDigit third f → c.toNat = 64 * d + 8 * e + f →
      c.toNat ≤ 0xFF → WritesChar c ['\\', first, second, third]

theorem byteChar_toNat {c : Char} (byte : c.toNat ≤ 0xFF) : byteChar c.toNat = c := by
  rw [byteChar, Nat.mod_eq_of_lt (by omega), Char.ofNat_toNat]

/-! ### What follows a backslash -/

theorem escaped_quoted {c : Char} (quoted : c ∉ "ntravbfx01234567".toList) (rest : List Char) :
    escaped c rest = (c, 0) := by
  have no_digit : Text.digitValue? 8 c = none := by
    rw [Option.eq_none_iff_forall_ne_some]
    intro value read
    have digit := List.mem_of_getElem? (Text.isOctalDigit_of_digitValue read)
    have listed : "01234567".toList ⊆ "ntravbfx01234567".toList := by decide
    exact quoted (listed digit)
  unfold escaped
  split
  case h_9 => rw [no_digit]
  all_goals exact absurd (by decide) quoted

theorem escaped_letter {c letter : Char} (listed : (c, letter) ∈ escapeLetters)
    (rest : List Char) : escaped letter rest = (c, 0) := by
  have known : ∀ entry ∈ escapeLetters, escaped entry.2 rest = (entry.1, 0) := by
    simp [escapeLetters, escaped]
  exact known _ listed

theorem escaped_hex {first second : Char} {d e : Nat} (high : Text.IsHexDigit first d)
    (low : Text.IsHexDigit second e) (rest : List Char) :
    escaped 'x' (first :: second :: rest) = (byteChar (16 * d + e), 2) := by
  have taken : takeDigits 16 2 0 (first :: second :: rest) = (_, 2) :=
    takeDigits_append (.cons high.digitValue (.cons low.digitValue .nil)) 0 rest
  simp only [escaped, taken, Text.appendDigits]
  congr 2
  omega

theorem escaped_octal {first second third : Char} {d e f : Nat} (high : Text.IsOctalDigit first d)
    (middle : Text.IsOctalDigit second e) (low : Text.IsOctalDigit third f) (rest : List Char) :
    escaped first (second :: third :: rest) = (byteChar (64 * d + 8 * e + f), 2) := by
  have digit := List.mem_of_getElem? high
  have taken : takeDigits 8 2 d (second :: third :: rest) = (_, 2) :=
    takeDigits_append (.cons middle.digitValue (.cons low.digitValue .nil)) d rest
  unfold escaped
  split
  case h_9 =>
    simp only [high.digitValue, taken, Text.appendDigits]
    congr 2
    omega
  all_goals exact absurd digit (by decide)

/-! ### Whole texts -/

theorem WritesChar.unescape_append {c : Char} {piece : List Char} (writes : WritesChar c piece)
    (rest : List Char) : unescape (piece ++ rest) = c :: unescape rest := by
  cases writes with
  | plain other => exact unescape_cons other rest
  | quoted quoted => exact (unescape_backslash c rest).trans (by rw [escaped_quoted quoted]; rfl)
  | letter listed => exact (unescape_backslash _ rest).trans (by rw [escaped_letter listed]; rfl)
  | @hex first second _ _ high low code =>
    have small := high.value_lt
    have small' := low.value_lt
    refine (unescape_backslash 'x' (first :: second :: rest)).trans ?_
    rw [escaped_hex high low, ← code, byteChar_toNat (by omega)]
    rfl
  | @octal first second third _ _ _ high middle low code byte =>
    refine (unescape_backslash first (second :: third :: rest)).trans ?_
    rw [escaped_octal high middle low, ← code, byteChar_toNat byte]
    rfl

/-- A text is read back from every way to write its characters, whatever follows. -/
theorem unescape_written {text : List Char} {pieces : List (List Char)}
    (written : List.Forall₂ WritesChar text pieces) :
    unescape pieces.flatten = text ∧
      ∀ rest, unescape (pieces.flatten ++ rest) = text ++ unescape rest := by
  have followed (rest : List Char) :
      unescape (pieces.flatten ++ rest) = text ++ unescape rest := by
    induction written with
    | nil => rfl
    | cons first _ ih =>
      rw [List.flatten_cons, List.append_assoc, first.unescape_append, ih, List.cons_append]
  refine ⟨?_, followed⟩
  have whole := followed []
  rwa [List.append_nil, unescape, List.append_nil] at whole

/-- Digits behind the digits of an escape stand for themselves. -/
theorem unescape_written_mixed :
    let pieces := ["a", "\\n", "\\\\", "\\x4a", "1", "\\351", "7", "\\\"", "\u2192"].map String.toList
    List.Forall₂ WritesChar "a\n\\J1\u00E97\"\u2192".toList pieces ∧
      pieces.flatten = "a\\n\\\\\\x4a1\\3517\\\"\u2192".toList ∧
      unescape "a\\n\\\\\\x4a1\\3517\\\"\u2192".toList = "a\n\\J1\u00E97\"\u2192".toList := by
  intro pieces
  have written : List.Forall₂ WritesChar "a\n\\J1\u00E97\"\u2192".toList pieces :=
    .cons (.plain (by decide)) <| .cons (.letter (by decide)) <| .cons (.quoted (by decide)) <|
      .cons (@WritesChar.hex _ '4' 'a' 4 10 (by decide) (by decide) rfl) <|
      .cons (.plain (by decide)) <|
      .cons (@WritesChar.octal _ '3' '5' '1' 3 5 1 rfl rfl rfl rfl (by decide)) <|
      .cons (.plain (by decide)) <| .cons (.quoted (by decide)) <| .cons (.plain (by decide)) .nil
  have whole : pieces.flatten = "a\\n\\\\\\x4a1\\3517\\\"\u2192".toList := by decide
  refine ⟨written, whole, ?_⟩
  rw [← whole]
  exact (unescape_written written).1

end VisibilityRules.Shortcode
