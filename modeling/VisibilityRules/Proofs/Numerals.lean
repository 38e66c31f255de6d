import Mathlib.Tactic.IntervalCases
import VisibilityRules.Json.Scalar
import VisibilityRules.Json.Text
import VisibilityRules.Json.Token

set_option autoImplicit false

/-!
Numerals read back as they are printed, as long as no digit, point or exponent follows. Those of
natural numbers have the number as their value. Hexadecimal digits are read in either case.
-/
namespace VisibilityRules

namespace Text

/-! ### Hexadecimal digits -/

/-- A hexadecimal digit of this value, a small or a capital one. -/
def IsHexDigit (c : Char) (value : Nat) : Prop :=
  "0123456789abcdef".toList[value]? = some c ∨ "0123456789ABCDEF".toList[value]? = some c

instance (c : Char) (value : Nat) : Decidable (IsHexDigit c value) :=
  inferInstanceAs (Decidable (_ ∨ _))

theorem IsHexDigit.value_lt {c : Char} {value : Nat} (digit : IsHexDigit c value) : value < 16 := by
  rcases digit with small | capital
  · exact (List.getElem?_eq_some_iff.mp small).1
  · exact (List.getElem?_eq_some_iff.mp capital).1

theorem IsHexDigit.mem {c : Char} {value : Nat} (digit : IsHexDigit c value) :
    c ∈ "0123456789abcdefABCDEF".toList := by
  have small : "0123456789abcdef".toList ⊆ "0123456789abcdefABCDEF".toList := by decide
  have capital : "0123456789ABCDEF".toList ⊆ "0123456789abcdefABCDEF".toList := by decide
  rcases digit with found | found
  · exact small (List.mem_of_getElem? found)
  · exact capital (List.mem_of_getElem? found)

theorem IsHexDigit.digitValue {c : Char} {value : Nat} (digit : IsHexDigit c value) :
    digitValue? 16 c = some value := by
  have small := digit.value_lt
  interval_cases value
  all_goals
    rcases digit with lower | upper
    · obtain rfl := Option.some.inj lower
      rfl
    · obtain rfl := Option.some.inj upper
      rfl

end Text

namespace Json

theorem digitValue_printed {d : Nat} (small : d < 10) :
    Text.digitValue? 10 (Char.ofNat (0x30 + d)) = some d := by
  revert d
  decide

theorem isDigit_of_mem_printDigits {digits : List Nat} (small : ∀ d ∈ digits, d < 10) {c : Char}
    (mem : c ∈ printDigits digits) : Text.isDigit c := by
  obtain ⟨d, listed, rfl⟩ := List.mem_map.mp mem
  rw [Text.isDigit, digitValue_printed (small d listed)]
  rfl

theorem digits_printDigits {digits : List Nat} (small : ∀ d ∈ digits, d < 10) :
    Text.digits (printDigits digits) = digits := by
  induction digits with
  | nil => rfl
  | cons d digits ih =>
    have later := ih fun d mem => small d (by simp [mem])
    simp only [Text.digits, printDigits] at later
    simp [Text.digits, printDigits, digitValue_printed (small d (by simp)), later]

def NoDigit (rest : List Char) : Prop := ∀ c, rest.head? = some c → Text.isDigit c = false

section

variable {digits : List Nat} {rest : List Char} (small : ∀ d ∈ digits, d < 10)
  (behind : NoDigit rest)

include behind in
theorem takeWhile_noDigit : rest.takeWhile Text.isDigit = [] := by
  cases rest with
  | nil => rfl
  | cons c rest => rw [List.takeWhile_cons, behind c rfl]; rfl

include behind in
theorem dropWhile_noDigit : rest.dropWhile Text.isDigit = rest := by
  cases rest with
  | nil => rfl
  | cons c rest => rw [List.dropWhile_cons, behind c rfl]; rfl

include small behind

theorem takeWhile_printDigits :
    (printDigits digits ++ rest).takeWhile Text.isDigit = printDigits digits := by
  rw [List.takeWhile_append_of_pos fun c => isDigit_of_mem_printDigits small,
    takeWhile_noDigit behind, List.append_nil]

theorem dropWhile_printDigits :
    (printDigits digits ++ rest).dropWhile Text.isDigit = rest := by
  rw [List.dropWhile_append_of_pos fun c => isDigit_of_mem_printDigits small,
    dropWhile_noDigit behind]

end

/-! ### Decimal digits of a number -/

theorem decimalDigits_lt {n d : Nat} (mem : d ∈ decimalDigits n) : d < 10 := by
  induction n using decimalDigits.induct with
  | case1 n small =>
    rw [decimalDigits, if_pos small, List.mem_singleton] at mem
    omega
  | case2 n large ih =>
    rw [decimalDigits, if_neg large, List.mem_append, List.mem_singleton] at mem
    cases mem with
    | inl earlier => exact ih earlier
    | inr last => omega

theorem decimalDigits_first {n : Nat} (positive : 0 < n) :
    ∃ d rest, decimalDigits n = d :: rest ∧ d ≠ 0 := by
  induction n using decimalDigits.induct with
  | case1 n small => exact ⟨n, [], by rw [decimalDigits, if_pos small], by omega⟩
  | case2 n large ih =>
    obtain ⟨d, rest, front, nonzero⟩ := ih (by omega)
    exact ⟨d, rest ++ [n % 10], by rw [decimalDigits, if_neg large, front]; rfl, nonzero⟩

theorem isWhole_decimalDigits (n : Nat) : isWhole (decimalDigits n) = true := by
  by_cases positive : 0 < n
  next =>
    obtain ⟨d, rest, front, nonzero⟩ := decimalDigits_first positive
    simp [front, isWhole, nonzero]
  next =>
    rw [decimalDigits, if_pos (by omega)]
    simp [isWhole]

theorem appendDigits_append (base value : Nat) (front back : List Nat) :
    Text.appendDigits base value (front ++ back) =
      Text.appendDigits base (Text.appendDigits base value front) back := by
  induction front generalizing value with
  | nil => rfl
  | cons d front ih => exact ih (value * base + d)

theorem appendDigits_decimalDigits (n : Nat) : Text.appendDigits 10 0 (decimalDigits n) = n := by
  induction n using decimalDigits.induct with
  | case1 n small =>
    rw [decimalDigits, if_pos small]
    simp [Text.appendDigits]
  | case2 n large ih =>
    rw [decimalDigits, if_neg large, appendDigits_append, ih]
    simp only [Text.appendDigits]
    omega

/-! ### Integers -/

/-- A numeral of an integer: digits only, and no needless zero in front. -/
structure Numeral.IsInteger (n : Numeral) : Prop where
  whole_lt : ∀ d ∈ n.whole, d < 10
  whole : isWhole n.whole = true
  fraction : n.fraction = none
  exponent : n.exponent = none

theorem Numeral.isInteger_ofNat (n : Nat) : (Numeral.ofNat n).IsInteger :=
  ⟨fun _ => decimalDigits_lt, isWhole_decimalDigits n, rfl, rfl⟩

theorem Numeral.wholeValue_ofNat (n : Nat) : (Numeral.ofNat n).wholeValue = n :=
  appendDigits_decimalDigits n

theorem Numeral.IsInteger.print_eq {n : Numeral} (integer : n.IsInteger) :
    n.print = (if n.negative then ['-'] else []) ++ printDigits n.whole := by
  rw [Numeral.print, integer.fraction, integer.exponent]
  simp

/-! ### Numerals as they are written -/

inductive WritesFraction : Option (List Nat) → List Char → Prop
  | none : WritesFraction none []
  | some {digits : List Nat} : digits ≠ [] → (∀ d ∈ digits, d < 10) →
      WritesFraction (some digits) ('.' :: printDigits digits)

/-- An exponent behind a small or a capital letter. A plus sign and zeros may stand in front. -/
inductive WritesExponent : Option Int → List Char → Prop
  | none : WritesExponent none []
  | plus {mark : Char} {sign : List Char} {digits : List Nat} :
      mark = 'e' ∨ mark = 'E' → sign = [] ∨ sign = ['+'] → digits ≠ [] → (∀ d ∈ digits, d < 10) →
      WritesExponent (some (Text.appendDigits 10 0 digits : Int)) (mark :: sign ++ printDigits digits)
  | minus {mark : Char} {digits : List Nat} :
      mark = 'e' ∨ mark = 'E' → digits ≠ [] → (∀ d ∈ digits, d < 10) →
      WritesExponent (some (-(Text.appendDigits 10 0 digits : Int))) (mark :: '-' :: printDigits digits)

inductive WritesNumeral : Numeral → List Char → Prop
  | mk {negative : Bool} {whole : List Nat} {fraction : Option (List Nat)} {exponent : Option Int}
      {point power : List Char} :
      (∀ d ∈ whole, d < 10) → isWhole whole = true → WritesFraction fraction point →
      WritesExponent exponent power →
      WritesNumeral ⟨negative, whole, fraction, exponent⟩
        ((if negative then ['-'] else []) ++ (printDigits whole ++ (point ++ power)))

theorem Numeral.IsInteger.writes {n : Numeral} (integer : n.IsInteger) :
    WritesNumeral n n.print := by
  have print := integer.print_eq
  obtain ⟨negative, whole, fraction, exponent⟩ := n
  obtain ⟨small, whole, rfl, rfl⟩ := integer
  rw [print]
  simpa using WritesNumeral.mk small whole .none .none

/-- What stands behind a numeral does not go on with it. -/
def EndsNumeral (rest : List Char) : Prop :=
  ∀ c, rest.head? = some c → Text.isDigit c = false ∧ c ≠ '.' ∧ c ≠ 'e' ∧ c ≠ 'E'

theorem printDigits_ne_nil {digits : List Nat} (nonempty : digits ≠ []) :
    (printDigits digits).isEmpty = false := by
  simpa [printDigits] using nonempty

section

variable {digits : List Nat} {rest : List Char} (small : ∀ d ∈ digits, d < 10)
  (behind : NoDigit rest)

include small behind

theorem readFraction_digits (nonempty : digits ≠ []) :
    readFraction? ('.' :: (printDigits digits ++ rest)) = some (some digits, rest) := by
  simp only [readFraction?, takeWhile_printDigits small behind, dropWhile_printDigits small behind,
    digits_printDigits small, printDigits_ne_nil nonempty, Bool.false_eq_true, if_false]

theorem readPower_digits (negative : Bool) (nonempty : digits ≠ []) :
    readPower? negative (printDigits digits ++ rest) =
      some (some (if negative then -(Text.appendDigits 10 0 digits : Int)
        else (Text.appendDigits 10 0 digits : Int)), rest) := by
  simp only [readPower?, takeWhile_printDigits small behind, dropWhile_printDigits small behind,
    digits_printDigits small, printDigits_ne_nil nonempty, Bool.false_eq_true, if_false]

end

theorem readToken_minus (cs : List Char) :
    readToken? ('-' :: cs) = (readNumeral? true cs).map fun (n, rest) => (.number n, rest) := rfl

theorem readToken_digit {d : Nat} (small : d < 10) (cs : List Char) :
    readToken? (Char.ofNat (0x30 + d) :: cs) =
      (readNumeral? false (Char.ofNat (0x30 + d) :: cs)).map
        fun (n, rest) => (.number n, rest) := by
  interval_cases d <;> rfl

section

variable {rest : List Char} (ends : EndsNumeral rest)

include ends

theorem noDigit_of_endsNumeral : NoDigit rest := fun c head => (ends c head).1

theorem readExponent_written {exponent : Option Int} {power : List Char}
    (writes : WritesExponent exponent power) :
    readExponent? (power ++ rest) = some (exponent, rest) := by
  have behind := noDigit_of_endsNumeral ends
  cases writes with
  | none =>
    cases rest with
    | nil => rfl
    | cons c rest =>
      obtain ⟨_, _, lower, upper⟩ := ends c rfl
      simp [readExponent?, lower, upper]
  | @plus mark sign digits mark sign nonempty small =>
    have read := readPower_digits small behind false nonempty
    obtain ⟨d, others, rfl⟩ := List.exists_cons_of_ne_nil nonempty
    have first : d < 10 := small d (by simp)
    rcases sign with rfl | rfl
    · -- The first digit is no sign.
      interval_cases d
      all_goals rcases mark with rfl | rfl <;> exact read
    · rcases mark with rfl | rfl <;> exact read
  | minus mark nonempty small =>
    have read := readPower_digits small behind true nonempty
    rcases mark with rfl | rfl <;> exact read

/-- Neither a digit nor a point stands behind the part in front of an exponent. -/
theorem behind_power {exponent : Option Int} {power : List Char}
    (writes : WritesExponent exponent power) {c : Char} (head : (power ++ rest).head? = some c) :
    Text.isDigit c = false ∧ c ≠ '.' := by
  cases writes with
  | none => exact ⟨(ends c head).1, (ends c head).2.1⟩
  | plus mark | minus mark =>
    obtain rfl := Option.some.inj head
    rcases mark with rfl | rfl <;> decide

theorem readFraction_written {fraction : Option (List Nat)} {exponent : Option Int}
    {point power : List Char} (first : WritesFraction fraction point)
    (second : WritesExponent exponent power) :
    readFraction? (point ++ (power ++ rest)) = some (fraction, power ++ rest) := by
  cases first with
  | none =>
    rw [List.nil_append, readFraction?.eq_def]
    split
    next behind => exact absurd rfl (behind_power ends second (congrArg List.head? behind)).2
    next => rfl
  | some nonempty small =>
    exact readFraction_digits small (fun c head => (behind_power ends second head).1) nonempty

theorem noDigit_written {fraction : Option (List Nat)} {exponent : Option Int}
    {point power : List Char} (first : WritesFraction fraction point)
    (second : WritesExponent exponent power) : NoDigit (point ++ (power ++ rest)) := by
  cases first with
  | none => exact fun c head => (behind_power ends second head).1
  | some =>
    intro c head
    obtain rfl := Option.some.inj head
    decide

theorem readToken_written {n : Numeral} {text : List Char} (writes : WritesNumeral n text) :
    readToken? (text ++ rest) = some (.number n, rest) := by
  cases writes with
  | @mk negative digits fraction exponent point power small whole first second =>
    have behind := noDigit_written ends first second
    have read : readNumeral? negative (printDigits digits ++ (point ++ (power ++ rest))) =
        some (⟨negative, digits, fraction, exponent⟩, rest) := by
      simp only [readNumeral?, takeWhile_printDigits small behind,
        dropWhile_printDigits small behind, digits_printDigits small, whole, if_true,
        readFraction_written ends first second, readExponent_written ends second,
        Option.bind_eq_bind, Option.bind_some]
    simp only [List.append_assoc]
    cases negative with
    | true =>
      rw [if_pos rfl, List.singleton_append, readToken_minus, read]
      rfl
    | false =>
      obtain ⟨d, others, rfl⟩ : ∃ d others, digits = d :: others := by
        cases digits with
        | nil => exact absurd whole Bool.false_ne_true
        | cons d others => exact ⟨d, others, rfl⟩
      rw [if_neg Bool.false_ne_true, List.nil_append, printDigits, List.map_cons, List.cons_append,
        readToken_digit (small d (by simp))]
      exact congrArg (Option.map _) read

end

end Json

end VisibilityRules
