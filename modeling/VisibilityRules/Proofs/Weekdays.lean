import Mathlib
import VisibilityRules.Proofs.WrittenDates
import VisibilityRules.Rule.Policy

set_option autoImplicit false

/-!
Days of the week. A list of days is read back as it is written, the days of the week follow each
other along the calendar, and an element is shown on those that are listed.
-/
namespace VisibilityRules.Calendar

/-! ### Lists of days -/

theorem splitDays_cons {c : Char} (other : c ≠ ',') (rest : List Char) :
    splitDays (c :: rest) = Text.extendHead c (splitDays rest) := by
  rw [splitDays]
  exact fun _ comma => absurd comma other

theorem splitDays_piece_append {piece : List Char} (free : ',' ∉ piece) {rest chars : List Char}
    {later : List (List Char)} (split : splitDays rest = chars :: later) :
    splitDays (piece ++ rest) = (piece ++ chars) :: later := by
  induction piece with
  | nil => exact split
  | cons c piece ih =>
    rw [List.mem_cons, not_or] at free
    rw [List.cons_append, splitDays_cons (Ne.symm free.1), ih free.2, Text.extendHead,
      List.cons_append]

theorem splitDays_intercalate {pieces : List (List Char)} (nonempty : pieces ≠ [])
    (free : ∀ piece ∈ pieces, ',' ∉ piece) : splitDays ([',', ' '].intercalate pieces) = pieces := by
  induction pieces with
  | nil => exact absurd rfl nonempty
  | cons piece pieces ih =>
    obtain ⟨first, others⟩ := List.forall_mem_cons.mp free
    cases pieces with
    | nil =>
      have last : splitDays (piece ++ []) = [piece ++ []] := splitDays_piece_append first rfl
      simpa using last
    | cons next later =>
      have split := ih (List.cons_ne_nil _ _) others
      have comma : splitDays ([',', ' '] ++ [',', ' '].intercalate (next :: later)) =
          [] :: next :: later := congrArg _ split
      rw [List.intercalate_cons_cons, List.append_assoc, splitDays_piece_append first comma,
        List.append_nil]

theorem readDay_toString {day : Nat} (word : day < 2 ^ 32) :
    readDay? (toString day).toList = some day := by
  have digit : ∀ c ∈ (toString day).toList, c.isDigit = true :=
    fun _ => Text.isDigit_of_mem_toString
  rw [readDay?, Text.trimChars_of_visible fun c mem => Text.isBlank_of_isDigit (digit c mem),
    Text.unsigned_of_isDigit digit, Text.decimal_toString]
  exact Option.filter_some_pos (by simpa using word)

theorem readDays_written {days : List Nat} (word : ∀ day ∈ days, day < 2 ^ 32) :
    readDays (", ".intercalate (days.map toString)) = days := by
  let pieces := days.map fun day => (toString day).toList
  have chars : (", ".intercalate (days.map toString)).toList = [',', ' '].intercalate pieces := by
    rw [String.toList_intercalate, List.map_map]
    rfl
  have free : ∀ piece ∈ pieces, ',' ∉ piece := by
    intro piece mem comma
    obtain ⟨day, _, rfl⟩ := List.mem_map.mp mem
    exact absurd (Text.isDigit_of_mem_toString comma) (by decide)
  have read : ∀ day ∈ days, (readDay? ∘ fun day => (toString day).toList) day = some day := by
    intro day mem
    rw [Function.comp_apply, readDay_toString (word day mem)]
  by_cases empty : days = []
  next => rw [empty]; rfl
  next =>
    rw [readDays, chars, splitDays_intercalate (by simpa [pieces] using empty) free,
      List.filterMap_map, List.filterMap_congr read, List.filterMap_some]

/-! ### Weeks -/

theorem weekday_eq (n : Int) : weekday n = ((n - Date.number ⟨2024, 3, 10⟩) % 7).toNat := by
  have sunday : Date.number ⟨2024, 3, 10⟩ = 7 * 105565 := by decide
  rw [weekday, sunday]
  omega

theorem number_iterate_tomorrow {d : Date} (valid : d.IsValid) (days : Nat) :
    (Date.tomorrow^[days] d).IsValid ∧ (Date.tomorrow^[days] d).number = d.number + days := by
  induction days with
  | zero => exact ⟨valid, by simp⟩
  | succ days ih =>
    rw [Function.iterate_succ_apply']
    obtain ⟨valid', number⟩ := Date.tomorrow_spec ih.1
    refine ⟨valid', ?_⟩
    rw [number, ih.2]
    omega

/-- In seven days each day of the week comes once. -/
theorem card_weekday_mem (days : List Nat) (n : Int) :
    (Finset.univ.filter fun i : Fin 7 => weekday (n + i) ∈ days).card =
      (days.toFinset.filter (· ≤ 6)).card := by
  have injective : Function.Injective fun i : Fin 7 => weekday (n + i) := by
    intro i j same
    simp only [weekday] at same
    omega
  rw [← Finset.card_image_of_injective _ injective]
  congr 1
  ext day
  simp only [Finset.mem_image, Finset.mem_filter, Finset.mem_univ, true_and, List.mem_toFinset]
  constructor
  · rintro ⟨i, mem, rfl⟩
    exact ⟨mem, by simp only [weekday]; omega⟩
  · rintro ⟨mem, small⟩
    have here : weekday (n + (((day - n) % 7).toNat : Nat)) = day := by
      simp only [weekday]
      omega
    exact ⟨⟨((day - n) % 7).toNat, by omega⟩, by rwa [here], here⟩

end VisibilityRules.Calendar

namespace VisibilityRules.Period

open Calendar

variable {attributes : Attributes} {days : List Nat}

theorem hiddenByWeekday_of_get {text : String} (given : attributes.get "day_of_week" = some text)
    (visitor : Visitor) : hiddenByWeekday attributes visitor =
      !(readDays text).contains (weekday visitor.now.dayNumber) := by
  rw [hiddenByWeekday, Attributes.nonEmpty, given]
  by_cases empty : text = ""
  next => rw [empty]; rfl
  next => rw [Option.filter_some_pos (by simpa using empty)]

/-- A rule that lists these days, as an editor writes them. -/
structure ListsDays (attributes : Attributes) (days : List Nat) : Prop where
  rule : attributes.kind = some .dayOfWeek
  word : ∀ day ∈ days, day < 2 ^ 32
  written : attributes.get "day_of_week" = some (", ".intercalate (days.map toString))

section

variable (policy : Policy) (lists : ListsDays attributes days)

include lists

theorem hides_of_listsDays (visitor : Visitor) : policy.hides attributes visitor =
    !decide (weekday visitor.now.date.number ∈ days) := by
  rw [Policy.hides, lists.rule, visitor.now.number_date]
  simp only [hiddenByWeekday_of_get lists.written, readDays_written lists.word,
    List.contains_eq_mem]

theorem hides_week_later {visitor later : Visitor}
    (week : later.now.date = Date.tomorrow^[7] visitor.now.date) :
    policy.hides attributes later = policy.hides attributes visitor := by
  have number := (number_iterate_tomorrow visitor.now.isValid_date 7).2
  have same : weekday later.now.date.number = weekday visitor.now.date.number := by
    simp only [week, number, weekday]
    omega
  rw [hides_of_listsDays policy lists, hides_of_listsDays policy lists, same]

theorem card_shown_in_week {week : Fin 7 → Visitor}
    (consecutive : ∀ i, (week i).now.date = Date.tomorrow^[i] (week 0).now.date) :
    (Finset.univ.filter fun i => policy.hides attributes (week i) = false).card =
      (days.toFinset.filter (· ≤ 6)).card := by
  rw [← card_weekday_mem days (week 0).now.date.number]
  congr 1
  ext i
  have number := (number_iterate_tomorrow (week 0).now.isValid_date i).2
  simp [hides_of_listsDays policy lists, consecutive i, number]

end

/-- A list of days is read back. It hides an element on all other days of the week, counted on from
a Sunday; a week later the decision is the same, and in a week the element is shown on as many days
as are listed. -/
theorem hides_iff_other_weekday (policy : Policy) (attributes : Attributes) (days : List Nat)
    (lists : ListsDays attributes days) :
    readDays (", ".intercalate (days.map toString)) = days ∧
    (∀ visitor : Visitor, policy.hides attributes visitor = true ↔
      ((visitor.now.date.number - Date.number ⟨2024, 3, 10⟩) % 7).toNat ∉ days) ∧
    (∀ visitor later : Visitor, later.now.date = Date.tomorrow^[7] visitor.now.date →
      policy.hides attributes later = policy.hides attributes visitor) ∧
    ∀ week : Fin 7 → Visitor,
      (∀ i, (week i).now.date = Date.tomorrow^[i] (week 0).now.date) →
      (Finset.univ.filter fun i => policy.hides attributes (week i) = false).card =
        (days.toFinset.filter (· ≤ 6)).card := by
  refine ⟨readDays_written lists.word, fun visitor => ?_,
    fun visitor later => hides_week_later policy lists, fun week => card_shown_in_week policy lists⟩
  rw [hides_of_listsDays policy lists, ← weekday_eq]
  simp

def onDays (days : List Nat) : Attributes :=
  .ofEntries [("showfor", "day_of_week"), ("day_of_week", ", ".intercalate (days.map toString))]

/-- Around the leap day of the year -4 and at the turn of the first year of the calendar. Of the
listed numbers three are days of the week, one of them twice. -/
theorem hides_iff_other_weekday_leap_day :
    let days := [3, 0, 4294967295, 3, 6, 7]
    let visit (date : Date) := Visitor.anonymous (.ofDate date 23 59 59 1999999999)
    let hidden (date : Date) := (Policy.ofPredicates ∅).hides (onDays days) (visit date)
    let turn (i : Fin 7) := Date.tomorrow^[i] ⟨-262143, 12, 29⟩
    readDays "3, 0, 4294967295, 3, 6, 7" = days ∧
      [⟨-4, 2, 28⟩, ⟨-4, 2, 29⟩, ⟨-4, 3, 1⟩].map hidden = [false, true, true] ∧
      hidden ⟨-4, 3, 7⟩ = hidden ⟨-4, 2, 29⟩ ∧
      (Finset.univ.filter fun i => hidden (turn i) = false).card = 3 := by
  intro days visit hidden turn
  have lists : ListsDays (onDays days) days :=
    ⟨by decide, by decide, by decide⟩
  obtain ⟨read, other, weekly, count⟩ :=
    hides_iff_other_weekday (.ofPredicates ∅) (onDays days) days lists
  have decides (date : Date) : hidden date =
      decide ((((visit date).now.date.number - Date.number ⟨2024, 3, 10⟩) % 7).toNat ∉ days) := by
    rw [Bool.eq_iff_iff, decide_eq_true_iff]
    exact other (visit date)
  have three : (days.toFinset.filter (· ≤ 6)).card = 3 := by decide
  have written : ", ".intercalate (days.map toString) = "3, 0, 4294967295, 3, 6, 7" := by
    decide
  rw [written] at read
  refine ⟨read, ?_, ?_, ?_⟩
  · simp only [List.map_cons, List.map_nil, decides]
    decide
  · exact weekly (visit ⟨-4, 2, 29⟩) (visit ⟨-4, 3, 7⟩) (by decide)
  · rw [← three]
    exact count (fun i => visit (turn i)) (by decide)

end VisibilityRules.Period
