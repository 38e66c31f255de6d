import Mathlib.Data.List.DropRight
import VisibilityRules.Proofs.Normalization
import VisibilityRules.Proofs.Separators

set_option autoImplicit false

/-!
Dates with a clock time as authors may write them. Whatever zeros stand in front of the digits and
whatever blanks around the numbers, a date is read as the time it was written for.
-/
namespace VisibilityRules.Text

/-! ### Trimming -/

theorem trimChars_eq (cs : List Char) : trimChars cs = (skipBlanks cs).rdropWhile isBlank := rfl

/-- There is something left of it when it is trimmed. -/
def Shows (cs : List Char) : Prop := ∃ c ∈ cs, isBlank c = false

section

variable {front back : List Char}

end

theorem trimChars_append {front back : List Char} (core : List Char)
    (blank : ∀ c ∈ front ++ back, isBlank c = true) :
    trimChars (front ++ core ++ back) = trimChars core := by
  obtain ⟨leading, trailing⟩ := List.forall_mem_append.mp blank
  rw [trimChars_eq, trimChars_eq, skipBlanks, skipBlanks, List.append_assoc,
    List.dropWhile_append_of_pos leading, List.dropWhile_append]
  split
  next empty => rw [List.isEmpty_iff.mp empty, List.dropWhile_eq_nil_iff.mpr trailing]
  next =>
    rw [List.rdropWhile, List.reverse_append, List.dropWhile_append_of_pos, List.rdropWhile]
    exact fun c mem => trailing c (List.mem_reverse.mp mem)

theorem trimChars_of_edges {cs : List Char} (front : ∀ c ∈ cs.head?, isBlank c = false)
    (back : ∀ c ∈ cs.getLast?, isBlank c = false) : trimChars cs = cs := by
  have skipped : skipBlanks cs = cs := by
    cases cs with
    | nil => rfl
    | cons c cs => exact List.dropWhile_cons_of_neg (by simp [front c rfl])
  rw [trimChars_eq, skipped, List.rdropWhile_eq_self_iff]
  intro nonempty
  simpa using back _ (List.getLast?_eq_getLast_of_ne_nil nonempty)

theorem trimChars_of_visible {cs : List Char} (visible : ∀ c ∈ cs, isBlank c = false) :
    trimChars cs = cs :=
  trimChars_of_edges (fun c head => visible c (List.mem_of_head? head))
    fun c last => visible c (List.mem_of_getLast? last)

theorem digitValue_of_isDigit {c : Char} (digit : c.isDigit = true) :
    digitValue? 10 c = some (c.toNat - '0'.toNat) := by
  obtain ⟨low, high⟩ := Char.isDigit_iff_toNat.mp digit
  have first : '0'.toNat = 48 := rfl
  have last : '9'.toNat = 57 := rfl
  rw [first] at low ⊢
  rw [last] at high
  simp [digitValue?, low, high]
  omega

theorem appendDigits_of_isDigit {cs : List Char} (digit : ∀ c ∈ cs, c.isDigit = true)
    (init : Nat) : (cs.mapM (digitValue? 10)).map (appendDigits 10 init) =
      some (Nat.ofDigitChars 10 cs init) := by
  induction cs generalizing init with
  | nil => rfl
  | cons c cs ih =>
    obtain ⟨first, others⟩ := List.forall_mem_cons.mp digit
    have later := ih others (10 * init + (c.toNat - '0'.toNat))
    rw [Nat.ofDigitChars_cons, ← later, Nat.mul_comm, List.mapM_cons, digitValue_of_isDigit first]
    cases cs.mapM (digitValue? 10) <;> rfl

theorem decimal_of_isDigit {cs : List Char} (nonempty : cs ≠ [])
    (digit : ∀ c ∈ cs, c.isDigit = true) : decimal? cs = some (Nat.ofDigitChars 10 cs 0) := by
  rw [decimal?, if_neg (by simp [nonempty]), appendDigits_of_isDigit digit]

theorem isBlank_of_isDigit {c : Char} (digit : c.isDigit = true) : isBlank c = false := by
  obtain ⟨low, high⟩ := Char.isDigit_iff_toNat.mp digit
  have first : '0'.toNat = 48 := rfl
  have last : '9'.toNat = 57 := rfl
  simp [isBlank, blankRanges, inRanges]
  omega

theorem unsigned_of_isDigit {cs : List Char} (digit : ∀ c ∈ cs, c.isDigit = true) :
    unsigned? cs = decimal? cs := by
  unfold unsigned?
  split
  next => exact absurd (digit '+' (List.mem_cons_self ..)) (by decide)
  next => rfl

theorem isDigit_of_mem_toString {n : Nat} {c : Char} (mem : c ∈ (toString n).toList) :
    c.isDigit = true := by
  rw [Nat.toString_eq_repr, Nat.toList_repr] at mem
  exact Nat.isDigit_of_mem_toDigits (by decide) (by decide) mem

theorem decimal_toString (n : Nat) : decimal? (toString n).toList = some n := by
  have nonempty : (toString n).toList ≠ [] := by
    rw [Nat.toString_eq_repr, Nat.toList_repr]
    exact Nat.toDigits_ne_nil
  rw [decimal_of_isDigit nonempty fun _ => isDigit_of_mem_toString, Nat.toString_eq_repr,
    Nat.toList_repr, Nat.ofDigitChars_toDigits (by decide) (by decide)]

end VisibilityRules.Text

namespace VisibilityRules.Calendar

/-! ### Numbers -/

/-- The decimal digits of a number behind any number of zeros. -/
def numeral (zeros : Nat) (n : Int) : List Char :=
  (if n < 0 then ['-'] else []) ++ (List.replicate zeros '0' ++ Nat.toDigits 10 n.natAbs)

section

variable {zeros : Nat} {n : Int}

end

/-! ### Pieces -/

/-- A piece holds no separator of a date and shows something. -/
structure IsPiece (piece : List Char) : Prop where
  free : ∀ c ∈ [' ', '/', ':'], c ∉ piece
  shows : Text.Shows piece

theorem IsPiece.skipBlanks {piece : List Char} (isPiece : IsPiece piece) :
    ∀ c ∈ [' ', '/', ':'], c ∉ Text.skipBlanks piece :=
  fun c separates mem => isPiece.free c separates ((List.dropWhile_suffix _).subset mem)

theorem IsPiece.rdropWhile {piece : List Char} (isPiece : IsPiece piece) :
    ∀ c ∈ [' ', '/', ':'], c ∉ piece.rdropWhile Text.isBlank :=
  fun c separates mem => isPiece.free c separates ((List.rdropWhile_prefix _ _).subset mem)

section

variable {year month day hour minute : List Char}

end

/-! ### Dates -/

/-- Zeros in front of the digits of a number and blanks around it. A space would end the date. -/
structure NumberStyle where
  before : List Char
  zeros : Nat
  behind : List Char
  blank : ∀ c ∈ before ++ behind, Text.isBlank c = true ∧ c ≠ ' '

namespace NumberStyle

def write (style : NumberStyle) (n : Int) : List Char :=
  style.before ++ numeral style.zeros n ++ style.behind

variable (style : NumberStyle) (n : Int)

end NumberStyle

/-- The styles of the numbers of a date and the blanks around it all. -/
structure DateStyle where
  before : List Char
  year : NumberStyle
  month : NumberStyle
  day : NumberStyle
  hour : NumberStyle
  minute : NumberStyle
  behind : List Char
  blank : ∀ c ∈ before ++ behind, Text.isBlank c = true

namespace DateStyle

variable (style : DateStyle) (t : Instant)

def date : List Char :=
  ['/'].intercalate
    [style.year.write t.date.year, style.month.write t.date.month, style.day.write t.date.day]

def clock : List Char :=
  [':'].intercalate [style.hour.write t.clock.1, style.minute.write t.clock.2.1]

def write : String :=
  String.ofList (style.before ++ [' '].intercalate [style.date t, style.clock t] ++ style.behind)

end DateStyle

theorem Instant.clock_lt (t : Instant) :
    t.clock.1 < 24 ∧ t.clock.2.1 < 60 ∧ t.clock.2.2 < 60 := by
  simp only [clock, secondOfDay, secondsPerDay]
  omega

/-- A date can be given on a whole minute of the calendar, in a year that stands for itself. -/
structure IsWritable (t : Instant) : Prop where
  inside : InCalendar t
  plain : IsPlainYear t.date.year
  minute : t.second % 60 = 0
  nanos : t.nanos = 0

namespace IsWritable

variable {t : Instant} (writable : IsWritable t)
include writable

end IsWritable

structure WrittenDate where
  time : Instant
  writable : IsWritable time
  style : DateStyle

namespace WrittenDate

def text (w : WrittenDate) : String := w.style.write w.time

end WrittenDate

end VisibilityRules.Calendar
