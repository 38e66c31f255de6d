import VisibilityRules.Text.Digit

set_option autoImplicit false

/-!
Backslash escapes in attribute values: letters for control characters, one or two hexadecimal
digits after `x`, one to three octal digits, and any other character standing for itself.
-/
namespace VisibilityRules.Shortcode

def byteChar (n : Nat) : Char := Char.ofNat (n % 256)

def takeDigits (base : Nat) : Nat → Nat → List Char → Nat × Nat
  | 0, value, _ => (value, 0)
  | _ + 1, value, [] => (value, 0)
  | most + 1, value, c :: rest =>
    match Text.digitValue? base c with
    | none => (value, 0)
    | some d =>
      let (value, taken) := takeDigits base most (value * base + d) rest
      (value, taken + 1)

/-- What a backslash and `c` stand for, and how many of the characters after them belong to it. -/
def escaped (c : Char) (rest : List Char) : Char × Nat :=
  match c with
  | 'n' => ('\n', 0)
  | 't' => ('\t', 0)
  | 'r' => ('\r', 0)
  | 'a' => ('\x07', 0)
  | 'v' => ('\x0b', 0)
  | 'b' => ('\x08', 0)
  | 'f' => ('\x0c', 0)
  | 'x' =>
    match takeDigits 16 2 0 rest with
    | (_, 0) => ('x', 0)
    | (value, taken) => (byteChar value, taken)
  | c =>
    match Text.digitValue? 8 c with
    | none => (c, 0)
    | some d =>
      let (value, taken) := takeDigits 8 2 d rest
      (byteChar value, taken)

def unescape : List Char → List Char
  -- Resolves the escapes of a value; a backslash at its end is dropped.
  | [] => []
  | c :: rest =>
    if c = '\\' then
      match rest with
      | [] => []
      | e :: rest =>
        let (meant, taken) := escaped e rest
        meant :: unescape (rest.drop taken)
    else c :: unescape rest
termination_by cs => cs.length
decreasing_by
  next => simp only [List.length_drop, List.length_cons]; omega
  next => simp

theorem unescape_cons {c : Char} (other : c ≠ '\\') (rest : List Char) :
    unescape (c :: rest) = c :: unescape rest := by
  rw [unescape.eq_def]
  simp only [if_neg other]

theorem unescape_backslash (e : Char) (rest : List Char) :
    unescape ('\\' :: e :: rest) =
      (escaped e rest).1 :: unescape (rest.drop (escaped e rest).2) := by
  simp only [unescape, if_true]

end VisibilityRules.Shortcode
