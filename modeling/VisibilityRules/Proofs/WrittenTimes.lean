import Mathlib.Algebra.Group.Nat.Defs
import VisibilityRules.Proofs.WrittenDates
import VisibilityRules.Request.Flags

set_option autoImplicit false

/-!
Times written out in full, in one of the fixed layouts. The layouts are tried one after another, and
none that comes before the one a text was written in takes the text.
-/
namespace VisibilityRules

namespace Text

variable {cs : List Char} (digit : ∀ c ∈ cs, c.isDigit = true)
include digit

theorem appendDigits_digits (init : Nat) :
    appendDigits 10 init (digits cs) = Nat.ofDigitChars 10 cs init := by
  induction cs generalizing init with
  | nil => rfl
  | cons c cs ih =>
    obtain ⟨first, others⟩ := List.forall_mem_cons.mp digit
    rw [digits, List.filterMap_cons_some (digitValue_of_isDigit first), ← digits, appendDigits,
      ih others, Nat.ofDigitChars_cons, Nat.mul_comm]

theorem takeWhile_isDigit : cs.takeWhile isDigit = cs := by
  rw [List.takeWhile_eq_self_iff]
  intro c mem
  rw [isDigit, digitValue_of_isDigit (digit c mem)]
  rfl

end Text

namespace Calendar

/-! ### Padded numbers -/

/-- The digits of a number behind the zeros that fill up the width. -/
def padded (width n : Nat) : List Char := (Nat.toDigits 10 n).leftpad width '0'

section

variable {width n : Nat}

theorem isDigit_of_mem_padded {c : Char} (mem : c ∈ padded width n) : c.isDigit = true := by
  rcases List.mem_append.mp mem with zero | digit
  · rw [List.eq_of_mem_replicate zero]
    rfl
  · exact Nat.isDigit_of_mem_toDigits (by decide) (by decide) digit

theorem ofDigitChars_padded : Nat.ofDigitChars 10 (padded width n) 0 = n := by
  rw [padded, List.leftpad, Nat.ofDigitChars_append, Nat.ofDigitChars_replicate_zero, Nat.mul_zero,
    Nat.ofDigitChars_toDigits (by decide) (by decide)]

/-- A number that fits into the width, which is at least one place. -/
structure Fills (width n : Nat) : Prop where
  positive : 0 < width
  fits : n < 10 ^ width

variable (fills : Fills width n)
include fills

theorem length_padded : (padded width n).length = width := by
  have fits := (Nat.length_toDigits_le_iff (by decide) fills.positive).mpr fills.fits
  rw [padded, List.length_leftpad, Nat.max_eq_left fits]

theorem exists_padded : ∃ c cs, padded width n = c :: cs ∧ c.isDigit = true := by
  cases written : padded width n with
  | nil =>
    have empty := length_padded fills
    rw [written] at empty
    exact absurd fills.positive (by simp [← empty])
  | cons c cs =>
    exact ⟨c, cs, rfl, @isDigit_of_mem_padded width n c (written ▸ List.mem_cons_self)⟩

theorem readNumber_padded (rest : List Char) :
    readNumber? width (padded width n ++ rest) = some (n, rest) := by
  have front : (padded width n ++ rest).take width = padded width n := by
    rw [List.take_append_of_le_length (length_padded fills).ge, List.take_of_length_le]
    exact (length_padded fills).le
  have digits : (padded width n).takeWhile Text.isDigit = padded width n :=
    Text.takeWhile_isDigit fun _ => isDigit_of_mem_padded
  obtain ⟨c, cs, written, _⟩ := exists_padded fills
  unfold readNumber?
  simp only [front, digits, Text.appendDigits_digits fun _ => isDigit_of_mem_padded,
    ofDigitChars_padded, List.drop_left]
  rw [written]
  rfl

theorem skipBlanks_padded (rest : List Char) :
    Text.skipBlanks (padded width n ++ rest) = padded width n ++ rest := by
  obtain ⟨c, cs, written, digit⟩ := exists_padded fills
  rw [written]
  exact List.dropWhile_cons_of_neg (by simp [Text.isBlank_of_isDigit digit])

end

/-! ### Fields -/

def Field.width : Field → Nat
  | .year => 4
  | _ => 2

theorem readField_padded {f : Field} {n : Nat} (fits : n < 10 ^ f.width) (rest : List Char) :
    readField? f (padded f.width n ++ rest) = some ((n : Int), rest) := by
  have fills : Fills f.width n := ⟨by cases f <;> decide, fits⟩
  have number := readNumber_padded fills rest
  obtain ⟨c, cs, written, digit⟩ := exists_padded fills
  rw [written] at number ⊢
  cases f
  case year =>
    have unsigned : c ≠ '-' ∧ c ≠ '+' := by
      constructor
      all_goals
        rintro rfl
        exact absurd digit (by decide)
    unfold readField?
    split
    next sign => exact absurd (List.cons.inj sign).1 unsigned.1
    next sign => exact absurd (List.cons.inj sign).1 unsigned.2
    next =>
      rw [show 4 = Field.width .year from rfl, number]
      rfl
    next other _ _ => exact absurd rfl other
  all_goals exact congrArg (Option.map _) number

theorem readLayout_field {t t' : DateTime} {f : Field} {width n : Nat} (set : t.set? f n = some t')
    (fits : n < 10 ^ width) (wide : f.width = width) (layout : List LayoutItem)
    (rest : List Char) : readLayout? t (.field f :: layout) (padded width n ++ rest) =
      readLayout? t' layout rest := by
  subst wide
  have fills : Fills f.width n := ⟨by cases f <;> decide, fits⟩
  rw [readLayout?, skipBlanks_padded fills, readField_padded fits]
  exact congrArg (Option.bind · _) set

theorem readLayout_mark (t : DateTime) (mark c : Char) (layout : List LayoutItem)
    (rest : List Char) : readLayout? t (.mark mark :: layout) (c :: rest) =
      if c = mark then readLayout? t layout rest else none := by
  rw [readLayout?]

/-! ### Dates and clock times -/

def dateText (mark : Char) (d : Date) : List Char :=
  padded 4 d.year.toNat ++ mark :: (padded 2 d.month ++ mark :: padded 2 d.day)

def minuteText (hour minute : Nat) : List Char := padded 2 hour ++ ':' :: padded 2 minute

def secondText (hour minute second : Nat) : List Char :=
  minuteText hour minute ++ ':' :: padded 2 second

section

variable {d : Date} (valid : d.IsValid) (years : 0 ≤ d.year ∧ d.year ≤ 9999)
include valid years

/-- Behind a date a layout reads on if the date has its marks. -/
theorem readLayout_date (mark mark' : Char) (layout : List LayoutItem) (rest : List Char) :
    readLayout? .blank (dateLayout mark ++ layout) (dateText mark' d ++ rest) =
      if mark' = mark then readLayout? ⟨d, 0, 0, 0⟩ layout rest else none := by
  obtain ⟨first, last, day, inside⟩ := valid
  have days := monthLength_le (isLeapYear d.year) d.month
  have years : d.year.toNat < 10 ^ 4 ∧ (d.year.toNat : Int) = d.year := by omega
  have small : d.month < 10 ^ 2 ∧ d.day < 10 ^ 2 := by omega
  have year : DateTime.blank.set? .year d.year.toNat = some ⟨⟨d.year, 1, 1⟩, 0, 0, 0⟩ := by
    rw [years.2]
    rfl
  have month : DateTime.set? ⟨⟨d.year, 1, 1⟩, 0, 0, 0⟩ .month d.month =
      some ⟨⟨d.year, d.month, 1⟩, 0, 0, 0⟩ := if_pos ⟨first, last⟩
  have day : DateTime.set? ⟨⟨d.year, d.month, 1⟩, 0, 0, 0⟩ .day d.day = some ⟨d, 0, 0, 0⟩ :=
    if_pos ⟨day, by omega⟩
  simp only [dateLayout, dateText, List.append_assoc, List.cons_append, List.nil_append]
  rw [readLayout_field year years.1 rfl, readLayout_mark]
  by_cases same : mark' = mark
  next =>
    rw [if_pos same, if_pos same, readLayout_field month small.1 rfl, readLayout_mark, if_pos same,
      readLayout_field day small.2 rfl]
  next => rw [if_neg same, if_neg same]

/-- What the layouts with these marks ask for behind the date, in the order in which they are tried. -/
def clockLayouts (mark : Char) : List (List LayoutItem) :=
  (.blanks :: secondLayout) :: (.blanks :: minuteLayout) ::
    if mark = '-' then [.mark 'T' :: secondLayout, []] else [[]]

/-- Layouts with other marks do not take a text that begins with a date. -/
theorem readTime_date {mark : Char} (known : mark ∈ ['-', '/']) (behind : List Char) :
    readTime? (dateText mark d ++ behind) = (clockLayouts mark).findSome? fun layout =>
      (readLayout? ⟨d, 0, 0, 0⟩ layout behind).bind DateTime.instant? := by
  have alone (mark' : Char) := readLayout_date valid years mark' mark [] behind
  simp only [List.append_nil] at alone
  simp only [List.mem_cons, List.not_mem_nil, or_false] at known
  simp only [readTime?, layouts, List.findSome?_cons, readLayout_date valid years, alone]
  rcases known with rfl | rfl
  all_goals
    simp [clockLayouts]
    rfl

/-- A layout with a clock behind a blank takes no text that ends there or goes on with the letter. -/
theorem readTime_date_without_blank {mark : Char} (known : mark ∈ ['-', '/']) {behind : List Char}
    (other : ∀ c ∈ behind.head?, c = 'T') : readTime? (dateText mark d ++ behind) =
      (if mark = '-' then [.mark 'T' :: secondLayout, []] else [[]]).findSome? fun layout =>
        (readLayout? ⟨d, 0, 0, 0⟩ layout behind).bind DateTime.instant? := by
  have missing (layout : List LayoutItem) :
      readLayout? ⟨d, 0, 0, 0⟩ (.blanks :: (minuteLayout ++ layout)) behind = none := by
    cases behind with
    | nil => rfl
    | cons c behind =>
      obtain rfl := other c rfl
      rfl
  have toMinute := missing []
  have toSecond := missing [.mark ':', .field .second]
  rw [List.append_nil] at toMinute
  rw [← secondLayout] at toSecond
  rw [readTime_date valid years known, clockLayouts, List.findSome?_cons, toSecond,
    Option.bind_none, List.findSome?_cons, toMinute, Option.bind_none]

theorem instant_of_clock (hour minute : Nat) {second : Nat} (ordinary : second < 60) :
    DateTime.instant? ⟨d, hour, minute, second⟩ = some (.ofDate d hour minute second 0) := by
  have inside : firstYear ≤ d.year ∧ d.year ≤ lastYear := by
    simp only [firstYear, lastYear]
    omega
  rw [DateTime.instant?, if_pos ⟨valid, inside⟩, Nat.min_eq_right (by omega : second ≤ 59),
    Nat.div_eq_of_lt ordinary, Nat.zero_mul]

end

section

variable {d : Date} {hour minute second : Nat} (clock : hour < 24 ∧ minute < 60 ∧ second < 60)
include clock

theorem readLayout_minute (layout : List LayoutItem) (rest : List Char) :
    readLayout? ⟨d, 0, 0, 0⟩ (minuteLayout ++ layout) (minuteText hour minute ++ rest) =
      readLayout? ⟨d, hour, minute, 0⟩ layout rest := by
  have small : hour < 10 ^ 2 ∧ minute < 10 ^ 2 := by omega
  have hourSet : DateTime.set? ⟨d, 0, 0, 0⟩ .hour hour = some ⟨d, hour, 0, 0⟩ := if_pos (by omega)
  have minuteSet : DateTime.set? ⟨d, hour, 0, 0⟩ .minute minute = some ⟨d, hour, minute, 0⟩ :=
    if_pos (by omega)
  simp only [minuteLayout, minuteText, List.append_assoc, List.cons_append, List.nil_append]
  rw [readLayout_field hourSet small.1 rfl, readLayout_mark, if_pos rfl,
    readLayout_field minuteSet small.2 rfl]

theorem readLayout_second :
    readLayout? ⟨d, 0, 0, 0⟩ secondLayout (secondText hour minute second) =
      some ⟨d, hour, minute, second⟩ := by
  have small : second < 10 ^ 2 := by omega
  have secondSet : DateTime.set? ⟨d, hour, minute, 0⟩ .second second =
      some ⟨d, hour, minute, second⟩ := if_pos (by omega)
  rw [secondLayout, secondText, readLayout_minute clock, readLayout_mark, if_pos rfl,
    ← List.append_nil (padded 2 second), readLayout_field secondSet small rfl, readLayout?]

theorem readLayout_blank (layout : List LayoutItem) (rest : List Char) :
    readLayout? ⟨d, 0, 0, 0⟩ (.blanks :: layout) (' ' :: (minuteText hour minute ++ rest)) =
      readLayout? ⟨d, 0, 0, 0⟩ layout (minuteText hour minute ++ rest) := by
  have fills : Fills 2 hour := ⟨by decide, by omega⟩
  have skipped : Text.skipBlanks (' ' :: (minuteText hour minute ++ rest)) =
      Text.skipBlanks (minuteText hour minute ++ rest) := List.dropWhile_cons_of_pos (by decide)
  rw [readLayout?, skipped, minuteText, List.append_assoc, skipBlanks_padded fills]

theorem readLayout_blank_second :
    readLayout? ⟨d, 0, 0, 0⟩ (.blanks :: secondLayout) (' ' :: secondText hour minute second) =
      some ⟨d, hour, minute, second⟩ := by
  rw [secondText, readLayout_blank clock, ← secondText, readLayout_second clock]

/-- The shorter layout takes the time to the minute, the longer one misses the seconds. -/
theorem readLayout_blank_minute :
    readLayout? ⟨d, 0, 0, 0⟩ (.blanks :: secondLayout) (' ' :: minuteText hour minute) = none ∧
      readLayout? ⟨d, 0, 0, 0⟩ (.blanks :: minuteLayout) (' ' :: minuteText hour minute) =
        some ⟨d, hour, minute, 0⟩ := by
  have passed (layout : List LayoutItem) :
      readLayout? ⟨d, 0, 0, 0⟩ (.blanks :: (minuteLayout ++ layout))
        (' ' :: minuteText hour minute) = readLayout? ⟨d, hour, minute, 0⟩ layout [] := by
    rw [← List.append_nil (minuteText hour minute), readLayout_blank clock,
      readLayout_minute clock]
  exact ⟨passed [.mark ':', .field .second], passed []⟩

end

/-! ### Written times -/

/-- The texts that may be written for a time, and what each of them says: the parts of the clock that
it leaves out are zero. -/
inductive WritesTime (t : Instant) : List Char → Instant → Prop
  | seconds {mark : Char} : mark ∈ ['-', '/'] →
      WritesTime t (dateText mark t.date ++ ' ' :: secondText t.clock.1 t.clock.2.1 t.clock.2.2) t
  | minutes {mark : Char} : mark ∈ ['-', '/'] →
      WritesTime t (dateText mark t.date ++ ' ' :: minuteText t.clock.1 t.clock.2.1)
        (.ofDate t.date t.clock.1 t.clock.2.1 0 0)
  | joined :
      WritesTime t (dateText '-' t.date ++ 'T' :: secondText t.clock.1 t.clock.2.1 t.clock.2.2) t
  | day {mark : Char} : mark ∈ ['-', '/'] →
      WritesTime t (dateText mark t.date) (.ofDate t.date 0 0 0 0)

theorem Instant.ofDate_clock {t : Instant} (whole : t.nanos = 0) :
    ofDate t.date t.clock.1 t.clock.2.1 t.clock.2.2 0 = t := by
  have seconds : t.clock.1 * 3600 + t.clock.2.1 * 60 + t.clock.2.2 = t.secondOfDay := by
    simp only [clock]
    omega
  rw [ofDate, seconds, t.number_date, ← t.second_eq, ← whole]

theorem trimChars_padded {first last : Nat} (fills : Fills 4 first) (fills' : Fills 2 last)
    (between : List Char) : Text.trimChars (padded 4 first ++ between ++ padded 2 last) =
      padded 4 first ++ between ++ padded 2 last := by
  obtain ⟨c, cs, written, digit⟩ := exists_padded fills
  have ends : padded 2 last ≠ [] := by
    obtain ⟨_, _, written, _⟩ := exists_padded fills'
    simp [written]
  apply Text.trimChars_of_edges
  · simp [written, Text.isBlank_of_isDigit digit]
  · rw [List.getLast?_append_of_ne_nil _ ends]
    intro c mem
    exact Text.isBlank_of_isDigit (isDigit_of_mem_padded (List.mem_of_getLast? mem))

section

variable {t read : Instant} {text : List Char} (written : WritesTime t text read)
  (years : 0 ≤ t.date.year ∧ t.date.year ≤ 9999)
include written years

/-- There are digits at both ends of the text. -/
theorem trimChars_written : Text.trimChars text = text := by
  have clock := t.clock_lt
  obtain ⟨_, _, _, inside⟩ := t.isValid_date
  have days := monthLength_le (isLeapYear t.date.year) t.date.month
  have year : Fills 4 t.date.year.toNat := ⟨by decide, by omega⟩
  obtain ⟨between, last, fills, rfl⟩ : ∃ between last, Fills 2 last ∧
      text = padded 4 t.date.year.toNat ++ between ++ padded 2 last := by
    cases written with
    | @seconds mark _ =>
      refine ⟨mark :: (padded 2 t.date.month ++ mark :: (padded 2 t.date.day ++ ' ' ::
        (minuteText t.clock.1 t.clock.2.1 ++ [':']))), t.clock.2.2, ⟨by decide, by omega⟩, ?_⟩
      simp [dateText, secondText]
    | @minutes mark _ =>
      refine ⟨mark :: (padded 2 t.date.month ++ mark :: (padded 2 t.date.day ++ ' ' ::
        (padded 2 t.clock.1 ++ [':']))), t.clock.2.1, ⟨by decide, by omega⟩, ?_⟩
      simp [dateText, minuteText]
    | joined =>
      refine ⟨'-' :: (padded 2 t.date.month ++ '-' :: (padded 2 t.date.day ++ 'T' ::
        (minuteText t.clock.1 t.clock.2.1 ++ [':']))), t.clock.2.2, ⟨by decide, by omega⟩, ?_⟩
      simp [dateText, secondText]
    | @day mark _ =>
      refine ⟨mark :: (padded 2 t.date.month ++ [mark]), t.date.day, ⟨by decide, by omega⟩, ?_⟩
      simp [dateText]
  exact trimChars_padded year fills between

theorem readTime_written (whole : t.nanos = 0) : readTime? text = some read := by
  have valid := t.isValid_date
  have clock := t.clock_lt
  have full := instant_of_clock valid years t.clock.1 t.clock.2.1 clock.2.2
  rw [Instant.ofDate_clock whole] at full
  cases written with
  | seconds known =>
    rw [readTime_date valid years known, clockLayouts, List.findSome?_cons,
      readLayout_blank_second clock, Option.bind_some, full]
  | minutes known =>
    obtain ⟨missing, read⟩ := @readLayout_blank_minute t.date _ _ _ clock
    rw [readTime_date valid years known, clockLayouts, List.findSome?_cons, missing,
      Option.bind_none, List.findSome?_cons, read, Option.bind_some,
      instant_of_clock valid years _ _ (by decide)]
  | joined =>
    rw [readTime_date_without_blank valid years (by simp) (by simp), if_pos rfl,
      List.findSome?_cons, readLayout_mark, if_pos rfl, readLayout_second clock, Option.bind_some,
      full]
  | @day mark known =>
    have bare : (readLayout? ⟨t.date, 0, 0, 0⟩ [] []).bind DateTime.instant? =
        some (.ofDate t.date 0 0 0 0) := instant_of_clock valid years 0 0 (by decide)
    have missing : readLayout? ⟨t.date, 0, 0, 0⟩ (.mark 'T' :: secondLayout) [] = none := rfl
    rw [← List.append_nil (dateText mark t.date),
      readTime_date_without_blank valid years known (by simp)]
    split
    next => rw [List.findSome?_cons, missing, Option.bind_none, List.findSome?_cons, bare]
    next => rw [List.findSome?_cons, bare]

end

end Calendar

namespace RequestFlags

open Calendar

/-- The time of a request, a whole second of the years 0 to 9999, is read as it was written, whatever
blanks stand around it. -/
theorem time_written (flags : RequestFlags) (current t read : Instant)
    (text before behind : List Char) (years : 0 ≤ t.date.year ∧ t.date.year ≤ 9999)
    (whole : t.nanos = 0) (written : WritesTime t text read)
    (blank : ∀ c ∈ before ++ behind, Text.isBlank c = true)
    (given : flags.now = some (String.ofList (before ++ text ++ behind))) :
    flags.time current = .ok read := by
  have trimmed : Text.trimChars (before ++ text ++ behind) = text :=
    (Text.trimChars_append text blank).trans (trimChars_written written years)
  simp only [time, given, String.toList_ofList, trimmed, readTime_written written years whole]

def timedFlags (now : String) : RequestFlags where
  userId := none
  roles := []
  query := []
  url := none
  now := some now
  device := none
  userAgent := none
  predicates := []

/-- The leap day of year 0, to the minute and with a letter and seconds. -/
theorem time_written_leap_day :
    let t : Instant := .ofDate ⟨0, 2, 29⟩ 0 5 37 0
    let toMinute : Instant := .ofDate ⟨0, 2, 29⟩ 0 5 0 0
    ((0 ≤ t.date.year ∧ t.date.year ≤ 9999) ∧ t.nanos = 0) ∧
      WritesTime t "0000/02/29 00:05".toList toMinute ∧
      WritesTime t "0000-02-29T00:05:37".toList t ∧
      (timedFlags "\u3000 0000/02/29 00:05\t").time ⟨0, 0⟩ = .ok toMinute ∧
      (timedFlags "0000-02-29T00:05:37\n").time ⟨0, 0⟩ = .ok t := by
  intro t toMinute
  have years : 0 ≤ t.date.year ∧ t.date.year ≤ 9999 := by decide
  have minutes : WritesTime t "0000/02/29 00:05".toList toMinute := by
    have written := @WritesTime.minutes t '/' (by decide)
    have text : dateText '/' t.date ++ ' ' :: minuteText t.clock.1 t.clock.2.1 =
        "0000/02/29 00:05".toList := by decide
    have read : Instant.ofDate t.date t.clock.1 t.clock.2.1 0 0 = toMinute := by decide
    rwa [text, read] at written
  have seconds : WritesTime t "0000-02-29T00:05:37".toList t := by
    have written := @WritesTime.joined t
    have text : dateText '-' t.date ++ 'T' :: secondText t.clock.1 t.clock.2.1 t.clock.2.2 =
        "0000-02-29T00:05:37".toList := by decide
    rwa [text] at written
  refine ⟨⟨years, rfl⟩, minutes, seconds, ?_, ?_⟩
  · exact time_written (timedFlags "\u3000 0000/02/29 00:05\t") ⟨0, 0⟩ t toMinute
      "0000/02/29 00:05".toList ['\u3000', ' '] ['\t'] years rfl minutes (by decide) rfl
  · exact time_written (timedFlags "0000-02-29T00:05:37\n") ⟨0, 0⟩ t t
      "0000-02-29T00:05:37".toList [] ['\n'] years rfl seconds (by decide) rfl

end RequestFlags

end VisibilityRules
