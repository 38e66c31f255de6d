import VisibilityRules.Json.Value
import VisibilityRules.Text.Split

set_option autoImplicit false

/-!
The tokens of a JSON text.
-/
namespace VisibilityRules.Json

inductive Token where
  | openArray
  | closeArray
  | openObject
  | closeObject
  | colon
  | comma
  | null
  | bool (b : Bool)
  | number (n : Numeral)
  | string (s : Option String)
  deriving DecidableEq, Repr

def isBlank (c : Char) : Bool := c == ' ' || c == '\t' || c == '\n' || c == '\r'

/-- A piece of a string: a character, or the UTF-16 unit that an escape names. -/
inductive Piece where
  | plain (c : Char)
  | unit (n : Nat)
  deriving DecidableEq, Repr

def unit? (a b c d : Char) : Option Nat :=
  ([a, b, c, d].mapM (Text.digitValue? 16)).map (Text.appendDigits 16 0)

def escaped? : Char → Option Char
  | '"' => some '"'
  | '\\' => some '\\'
  | '/' => some '/'
  | 'b' => some '\x08'
  | 'f' => some '\x0c'
  | 'n' => some '\n'
  | 'r' => some '\r'
  | 't' => some '\t'
  | _ => none

def prepend {α β : Type} (a : α) : Option (List α × β) → Option (List α × β) :=
  Option.map fun (before, rest) => (a :: before, rest)

def readString : List Char → Option (List Piece × List Char)
  | [] => none
  | '"' :: rest => some ([], rest)
  | '\\' :: 'u' :: a :: b :: c :: d :: rest =>
    match unit? a b c d with
    | some n => prepend (.unit n) (readString rest)
    | none => none
  | '\\' :: e :: rest =>
    match escaped? e with
    | some c => prepend (.plain c) (readString rest)
    | none => none
  | c :: rest => if c.toNat < 0x20 || c == '\\' then none else prepend (.plain c) (readString rest)

def isHighUnit (n : Nat) : Bool := 0xD800 ≤ n && n < 0xDC00

def isLowUnit (n : Nat) : Bool := 0xDC00 ≤ n && n < 0xE000

def pairChar (high low : Nat) : Char :=
  Char.ofNat (0x10000 + (high - 0xD800) * 0x400 + (low - 0xDC00))

def join? : List Piece → Option (List Char)
  -- The text of a string, unless half of a surrogate pair stands alone.
  | [] => some []
  | .plain c :: rest => (join? rest).map (c :: ·)
  | .unit high :: .unit low :: rest =>
    if isHighUnit high then
      if isLowUnit low then (join? rest).map (pairChar high low :: ·) else none
    else if isLowUnit high then none
    else (join? (.unit low :: rest)).map (Char.ofNat high :: ·)
  | .unit n :: rest =>
    if isHighUnit n || isLowUnit n then none else (join? rest).map (Char.ofNat n :: ·)

def readFraction? : List Char → Option (Option (List Nat) × List Char)
  | '.' :: rest =>
    if (rest.takeWhile Text.isDigit).isEmpty then none
    else some (some (Text.digits (rest.takeWhile Text.isDigit)), rest.dropWhile Text.isDigit)
  | cs => some (none, cs)

def readPower? (negative : Bool) (cs : List Char) : Option (Option Int × List Char) :=
  if (cs.takeWhile Text.isDigit).isEmpty then none
  else
    let power : Int := Text.appendDigits 10 0 (Text.digits (cs.takeWhile Text.isDigit))
    some (some (if negative then -power else power), cs.dropWhile Text.isDigit)

def readExponent? : List Char → Option (Option Int × List Char)
  | 'e' :: rest | 'E' :: rest =>
    match rest with
    | '-' :: rest => readPower? true rest
    | '+' :: rest => readPower? false rest
    | rest => readPower? false rest
  | cs => some (none, cs)

/-- Digits that begin with a zero only if it is the only one. -/
def isWhole : List Nat → Bool
  | [] => false
  | d :: rest => d != 0 || rest.isEmpty

def readNumeral? (negative : Bool) (cs : List Char) : Option (Numeral × List Char) :=
  let whole := Text.digits (cs.takeWhile Text.isDigit)
  if isWhole whole then do
    let (fraction, rest) ← readFraction? (cs.dropWhile Text.isDigit)
    let (exponent, rest) ← readExponent? rest
    some (⟨negative, whole, fraction, exponent⟩, rest)
  else none

def readToken? : List Char → Option (Token × List Char)
  | '[' :: rest => some (.openArray, rest)
  | ']' :: rest => some (.closeArray, rest)
  | '\x7b' :: rest => some (.openObject, rest)
  | '\x7d' :: rest => some (.closeObject, rest)
  | ':' :: rest => some (.colon, rest)
  | ',' :: rest => some (.comma, rest)
  | 'n' :: 'u' :: 'l' :: 'l' :: rest => some (.null, rest)
  | 't' :: 'r' :: 'u' :: 'e' :: rest => some (.bool true, rest)
  | 'f' :: 'a' :: 'l' :: 's' :: 'e' :: rest => some (.bool false, rest)
  | '"' :: rest =>
    (readString rest).map fun (pieces, rest) => (.string ((join? pieces).map String.ofList), rest)
  | '-' :: rest => (readNumeral? true rest).map fun (n, rest) => (.number n, rest)
  | cs => (readNumeral? false cs).map fun (n, rest) => (.number n, rest)

theorem prepend_some {α β : Type} {a : α} {read : Option (List α × β)} {items : List α} {rest : β}
    (h : prepend a read = some (items, rest)) : ∃ later, read = some (later, rest) := by
  simp only [prepend, Option.map_eq_some_iff, Prod.exists, Prod.mk.injEq] at h
  obtain ⟨later, rest', found, _, rfl⟩ := h
  exact ⟨later, found⟩

theorem readString_length {cs rest : List Char} {pieces : List Piece}
    (h : readString cs = some (pieces, rest)) : rest.length < cs.length := by
  fun_induction readString cs generalizing pieces with
  | case1 => simp at h
  | case2 => simp_all
  | case3 a b c d rest' n _ ih =>
    obtain ⟨later, found⟩ := prepend_some h
    have := ih found
    simp only [List.length_cons]; omega
  | case4 => simp at h
  | case5 e rest' _ c _ ih =>
    obtain ⟨later, found⟩ := prepend_some h
    have := ih found
    simp only [List.length_cons]; omega
  | case6 => simp at h
  | case7 => simp at h
  | case8 c rest' _ _ _ _ ih =>
    obtain ⟨later, found⟩ := prepend_some h
    have := ih found
    simp only [List.length_cons]; omega

theorem readFraction_length {cs rest : List Char} {fraction : Option (List Nat)}
    (h : readFraction? cs = some (fraction, rest)) : rest.length ≤ cs.length := by
  unfold readFraction? at h
  split at h
  next digits =>
    split at h
    next => simp at h
    next =>
      simp only [Option.some.injEq, Prod.mk.injEq] at h
      have := Text.length_dropWhile_le Text.isDigit digits
      simp only [← h.2, List.length_cons]; omega
  next => simp_all

theorem readPower_length {negative : Bool} {cs rest : List Char} {power : Option Int}
    (h : readPower? negative cs = some (power, rest)) : rest.length ≤ cs.length := by
  unfold readPower? at h
  split at h
  next => simp at h
  next =>
    simp only [Option.some.injEq, Prod.mk.injEq] at h
    have := Text.length_dropWhile_le Text.isDigit cs
    simp only [← h.2]; omega

theorem readExponent_length {cs rest : List Char} {exponent : Option Int}
    (h : readExponent? cs = some (exponent, rest)) : rest.length ≤ cs.length := by
  unfold readExponent? at h
  split at h
  all_goals try split at h
  all_goals try
    have := readPower_length h
    simp only [List.length_cons] at *
    omega
  simp_all

theorem whole_length {cs : List Char}
    (h : isWhole (Text.digits (cs.takeWhile Text.isDigit))) :
    (cs.dropWhile Text.isDigit).length < cs.length := by
  cases cs with
  | nil => simp [Text.digits, isWhole] at h
  | cons c rest =>
    by_cases digit : Text.isDigit c
    next =>
      have := Text.length_dropWhile_le Text.isDigit rest
      simp only [List.dropWhile_cons, digit, if_true, List.length_cons]; omega
    next => simp [digit, Text.digits, isWhole] at h

theorem readNumeral_length {negative : Bool} {cs rest : List Char} {n : Numeral}
    (h : readNumeral? negative cs = some (n, rest)) : rest.length < cs.length := by
  simp only [readNumeral?] at h
  split at h
  next whole =>
    simp only [Option.bind_eq_bind, Option.bind_eq_some_iff, Prod.exists, Option.some.injEq,
      Prod.mk.injEq] at h
    obtain ⟨fraction, rest₁, first, exponent, rest₂, second, _, rfl⟩ := h
    have := readFraction_length first
    have := readExponent_length second
    have := whole_length whole
    omega
  next => simp at h

theorem readToken_length {cs rest : List Char} {token : Token}
    (h : readToken? cs = some (token, rest)) : rest.length < cs.length := by
  unfold readToken? at h
  split at h
  all_goals try
    simp only [Option.some.injEq, Prod.mk.injEq] at h
    simp only [← h.2, List.length_cons]; omega
  all_goals
    simp only [Option.map_eq_some_iff, Prod.exists, Prod.mk.injEq] at h
    obtain ⟨read, rest', found, _, rfl⟩ := h
  next => have := readString_length found; simp only [List.length_cons]; omega
  next => have := readNumeral_length found; simp only [List.length_cons]; omega
  next => exact readNumeral_length found

def lex? : List Char → Option (List Token)
  | [] => some []
  | c :: rest =>
    if isBlank c then lex? rest
    else
      match _found : readToken? (c :: rest) with
      | none => none
      | some (token, rest') => (lex? rest').map (token :: ·)
termination_by cs => cs.length
decreasing_by
  next => simp
  next => exact readToken_length _found

end VisibilityRules.Json
