import VisibilityRules.Proofs.Normalization
import VisibilityRules.Rule.Policy

set_option autoImplicit false

/-!
Windows of time that come again every day. As long as its bounds stay in the calendar, a window
asks for the clock of the visit only.
-/
namespace VisibilityRules.Period

open Calendar

variable {attributes : Attributes} {visitor : Visitor} {t : Instant}

/-! ### Bounds as seconds of the day -/

def clockSeconds (clock : Int × Int) : Int := clock.1 * 3600 + clock.2 * 60

theorem clockSeconds_nextDay (clock : Int × Int) :
    clockSeconds (clock.1 + 24, clock.2) = clockSeconds clock + 86400 := by
  simp only [clockSeconds]
  omega

def openingClock (attributes : Attributes) : Int × Int :=
  ((attributes.nonEmpty "start_time").map readClock).getD (0, 0)

def opensAt (attributes : Attributes) : Int := clockSeconds (openingClock attributes)

/-- The last second of the day if no end is given; a day later if the end is not behind the
start. -/
def closesAt (attributes : Attributes) : Int :=
  match attributes.nonEmpty "end_time" with
  | none => 86399
  | some text =>
    let given := clockSeconds (readClock text)
    if given ≤ opensAt attributes then given + 86400 else given

/-- The window of the day of an instant stays in the calendar: its start, the end on that day and,
for a window that goes on past midnight, the end on the next one. -/
structure Fits (attributes : Attributes) (t : Instant) : Prop where
  opening : Reaches t (openingClock attributes)
  closing : ∀ text, attributes.nonEmpty "end_time" = some text → Reaches t (readClock text)
  overnight : ∀ text, attributes.nonEmpty "end_time" = some text →
    clockSeconds (readClock text) ≤ opensAt attributes →
      Reaches t ((readClock text).1 + 24, (readClock text).2)

theorem after_lt_after {a b : Int} : t.after a < t.after b ↔ a < b := by
  show t.second + a < t.second + b ∨ t.second + a = t.second + b ∧ t.nanos < t.nanos ↔ a < b
  omega

theorem wholeSecond_eq (t : Instant) : t.wholeSecond = t.dayStart.after t.secondOfDay :=
  congrArg (Instant.mk · 0) t.second_eq

theorem date_wholeSecond (t : Instant) : t.wholeSecond.date = t.date := by
  simp only [Instant.date, Instant.dayNumber, Instant.wholeSecond]

theorem reached_bound {clock : Int × Int} (reaches : Reaches t clock) :
    InCalendar (t.dayStart.after (clockSeconds clock)) := by
  have minute := reaches.minute
  rwa [Instant.after_after] at minute

/-! ### The window of a day -/

section

variable (plain : IsPlainYear t.date.year) (inside : InCalendar t)
include plain inside

theorem onDay_clock_eq_some_iff {clock : Int × Int} {t' : Instant} :
    onDay? t.date clock.1 clock.2 0 = some t' ↔
      Reaches t clock ∧ t' = t.dayStart.after (clockSeconds clock) := by
  rw [onDay_eq_some_iff plain inside, Instant.after_zero, Instant.after_after]
  constructor
  · exact fun found => ⟨found.1, found.2.1⟩
  · rintro ⟨reaches, rfl⟩
    exact ⟨reaches, rfl, reached_bound reaches⟩

theorem onDay_last : onDay? t.date 23 59 59 = some (t.dayStart.after 86399) := by
  have stays (seconds : Int) := @inCalendar_dayStart_after t inside seconds
  have reaches : Reaches t (23, 59) := by
    refine ⟨stays _ (by decide) (by decide), ?_⟩
    rw [Instant.after_after]
    exact stays _ (by decide) (by decide)
  rw [onDay_eq_some_iff plain inside, Instant.after_after, Instant.after_after]
  exact ⟨reaches, rfl, stays _ (by decide) (by decide)⟩

theorem closing_eq_some_iff {closing : Instant} :
    closing? attributes t.date (t.dayStart.after (opensAt attributes)) = some closing ↔
      (∀ text, attributes.nonEmpty "end_time" = some text → Reaches t (readClock text) ∧
        (clockSeconds (readClock text) ≤ opensAt attributes →
          Reaches t ((readClock text).1 + 24, (readClock text).2))) ∧
      closing = t.dayStart.after (closesAt attributes) := by
  cases given : attributes.nonEmpty "end_time" with
  | none =>
    simp only [closing?, closesAt, given, onDay_last plain inside, Option.some.injEq]
    exact ⟨fun same => ⟨nofun, same.symm⟩, fun found => found.2.symm⟩
  | some text =>
    simp only [closing?, closesAt, given, Option.bind_eq_bind, Option.bind_eq_some_iff,
      onDay_clock_eq_some_iff plain inside, and_assoc, exists_and_left, exists_eq_left,
      after_lt_after, Option.some.injEq, forall_eq']
    refine and_congr_right fun _ => ?_
    by_cases late : clockSeconds (readClock text) ≤ opensAt attributes
    next =>
      have nextDay := @onDay_clock_eq_some_iff t plain inside
        ((readClock text).1 + 24, (readClock text).2) closing
      rw [clockSeconds_nextDay] at nextDay
      rw [if_neg (Int.not_lt.mpr late), nextDay, if_pos late]
      exact and_congr_left fun _ => ⟨fun reaches _ => reaches, fun reaches => reaches late⟩
    next =>
      rw [if_pos (Int.not_le.mp late), if_neg late, Option.some.injEq]
      exact ⟨fun same => ⟨fun early => absurd early late, same.symm⟩, fun found => found.2.symm⟩

theorem window_eq_some_iff {opening closing : Instant} :
    window? attributes t.date = some (opening, closing) ↔
      Fits attributes t ∧ opening = t.dayStart.after (opensAt attributes) ∧
        closing = t.dayStart.after (closesAt attributes) := by
  have opened : opening? attributes t.date =
      onDay? t.date (openingClock attributes).1 (openingClock attributes).2 0 := rfl
  simp only [window?, opened, Option.bind_eq_bind, Option.bind_eq_some_iff,
    onDay_clock_eq_some_iff plain inside, Option.some.injEq, Prod.mk.injEq]
  constructor
  · rintro ⟨_, ⟨reaches, rfl⟩, _, closed, rfl, rfl⟩
    obtain ⟨reached, same⟩ := (closing_eq_some_iff plain inside).mp closed
    exact ⟨⟨reaches, fun text given => (reached text given).1,
      fun text given => (reached text given).2⟩, rfl, same⟩
  · rintro ⟨⟨reaches, closing, overnight⟩, rfl, rfl⟩
    have closed := (closing_eq_some_iff plain inside).mpr
      ⟨fun text given => ⟨closing text given, overnight text given⟩, rfl⟩
    exact ⟨_, ⟨reaches, rfl⟩, _, closed, rfl, rfl⟩

end

theorem hiddenByClock_iff (plain : IsPlainYear visitor.now.date.year)
    (inside : InCalendar visitor.now) :
    hiddenByClock attributes visitor = true ↔
      ¬ Fits attributes visitor.now ∨ (visitor.now.secondOfDay : Int) < opensAt attributes ∨
        closesAt attributes < visitor.now.secondOfDay := by
  unfold hiddenByClock
  simp only [date_wholeSecond]
  cases found : window? attributes visitor.now.date with
  | some window =>
    obtain ⟨fits, opens, closes⟩ := (window_eq_some_iff plain inside).mp found
    simp only [isOutside, wholeSecond_eq, opens, closes, Bool.or_eq_true, decide_eq_true_eq,
      after_lt_after]
    rw [or_comm]
    exact ⟨.inr, fun hidden => hidden.resolve_left (not_not_intro fits)⟩
  | none =>
    refine iff_of_true rfl (.inl fun fits => ?_)
    rw [(window_eq_some_iff plain inside).mpr ⟨fits, rfl, rfl⟩] at found
    exact nomatch found

theorem Fits.bounds (fits : Fits attributes t) (inside : InCalendar t) :
    InCalendar (t.dayStart.after (opensAt attributes)) ∧
      InCalendar (t.dayStart.after (closesAt attributes)) := by
  refine ⟨reached_bound fits.opening, ?_⟩
  cases given : attributes.nonEmpty "end_time" with
  | none =>
    simp only [closesAt, given]
    exact inCalendar_dayStart_after inside (by decide) (by decide)
  | some text =>
    by_cases late : clockSeconds (readClock text) ≤ opensAt attributes
    next =>
      have nextDay := reached_bound (fits.overnight text given late)
      rw [clockSeconds_nextDay] at nextDay
      simpa only [closesAt, given, if_pos late] using nextDay
    next =>
      have sameDay := reached_bound (fits.closing text given)
      simpa only [closesAt, given, if_neg late] using sameDay

theorem hides_of_timeRange (policy : Policy) (rule : attributes.kind = some .timeRange) :
    policy.hides attributes visitor = hiddenByClock attributes visitor := by
  rw [Policy.hides, rule]

/-- An element that is shown in a window of every day. -/
def windowed (start stop : String) : Attributes :=
  Dictionary.ofEntries [("showfor", "time_range"), ("start_time", start), ("end_time", stop)]

theorem get_windowed {start stop key value : String}
    (mem : (key, value) ∈ [("showfor", "time_range"), ("start_time", start), ("end_time", stop)]) :
    (windowed start stop).get key = some value :=
  Dictionary.getElem?_foldl_insert_of_mem ∅ (by simp) mem

theorem kind_windowed (start stop : String) : (windowed start stop).kind = some .timeRange := by
  have id : (windowed start stop).get Attributes.kindKey = some "time_range" :=
    get_windowed (by simp [Attributes.kindKey])
  rw [Attributes.kind, Attributes.kindId, id]
  rfl

theorem nonEmpty_windowed {start stop : String} (given : start ≠ "" ∧ stop ≠ "") :
    (windowed start stop).nonEmpty "start_time" = some start ∧
      (windowed start stop).nonEmpty "end_time" = some stop := by
  constructor
  · rw [Attributes.nonEmpty, @get_windowed start stop _ start (by simp)]
    exact Option.filter_some_pos (by simpa using given.1)
  · rw [Attributes.nonEmpty, @get_windowed start stop _ stop (by simp)]
    exact Option.filter_some_pos (by simpa using given.2)

theorem fits_windowed {start stop : String} (given : start ≠ "" ∧ stop ≠ "")
    (opening : Reaches t (readClock start)) (closing : Reaches t (readClock stop))
    (overnight : Reaches t ((readClock stop).1 + 24, (readClock stop).2)) :
    Fits (windowed start stop) t := by
  obtain ⟨opens, closes⟩ := nonEmpty_windowed given
  constructor
  case opening => simpa [openingClock, opens] using opening
  case closing => simpa [closes] using closing
  case overnight => simpa [closes] using fun _ => overnight

/-- On dates whose year is not one of two digits, a window that stays in the calendar gives the same
decision for the same time of day. One that leaves it hides, and it does leave it if one of its
bounds lies outside. -/
theorem hides_same_clock (policy : Policy) (attributes : Attributes) (visitor : Visitor)
    (t u : Instant) (rule : attributes.kind = some .timeRange)
    (clock : t.secondOfDay = u.secondOfDay) (inside : InCalendar t ∧ InCalendar u)
    (plain : IsPlainYear t.date.year ∧ IsPlainYear u.date.year) :
    (Fits attributes t → Fits attributes u →
      policy.hides attributes { visitor with now := t } =
        policy.hides attributes { visitor with now := u }) ∧
    (¬ Fits attributes t → policy.hides attributes { visitor with now := t } = true) ∧
    (Fits attributes t → InCalendar (t.dayStart.after (opensAt attributes)) ∧
      InCalendar (t.dayStart.after (closesAt attributes))) := by
  rw [hides_of_timeRange policy rule, hides_of_timeRange policy rule]
  have first := @hiddenByClock_iff attributes { visitor with now := t } plain.1 inside.1
  have second := @hiddenByClock_iff attributes { visitor with now := u } plain.2 inside.2
  refine ⟨fun fits fits' => ?_, fun leaves => first.mpr (.inl leaves),
    fun fits => fits.bounds inside.1⟩
  rw [Bool.eq_iff_iff, first, second, or_iff_right (not_not_intro fits),
    or_iff_right (not_not_intro fits'), clock]

theorem hides_same_clock_at_the_ends :
    let visitor (date : Date) := Visitor.anonymous (.ofDate date 23 0 0 0)
    let hidden (date : Date) :=
      (Policy.ofPredicates ∅).hides (windowed "22:00" "06:00") (visitor date)
    hidden ⟨-262143, 1, 1⟩ = hidden ⟨262142, 12, 30⟩ ∧ hidden ⟨262142, 12, 31⟩ = true := by
  intro visitor hidden
  have given : "22:00" ≠ "" ∧ "06:00" ≠ "" := by decide
  have rule := kind_windowed "22:00" "06:00"
  have first : Fits (windowed "22:00" "06:00") (visitor ⟨-262143, 1, 1⟩).now :=
    fits_windowed given ⟨by decide, by decide⟩
      ⟨by decide, by decide⟩ ⟨by decide, by decide⟩
  have last : Fits (windowed "22:00" "06:00") (visitor ⟨262142, 12, 30⟩).now :=
    fits_windowed given ⟨by decide, by decide⟩
      ⟨by decide, by decide⟩ ⟨by decide, by decide⟩
  constructor
  · exact (hides_same_clock (.ofPredicates ∅) _ (.anonymous ⟨0, 0⟩) _ _ rule (by decide)
      (by decide) (by unfold IsPlainYear; decide)).1 first last
  · obtain ⟨_, leaves, bounds⟩ := hides_same_clock (.ofPredicates ∅) _ (.anonymous ⟨0, 0⟩) _
      (visitor ⟨262142, 12, 31⟩).now rule rfl (by decide)
      (by unfold IsPlainYear; decide)
    exact leaves fun fits => absurd (bounds fits) (by decide)

/-- The window of the last night is not over before the calendar ends, and the year 50 of a visit is
taken for 2050. -/
theorem hides_other_dates :
    let visitor (date : Date) := Visitor.anonymous (.ofDate date 23 0 0 0)
    let hidden (date : Date) :=
      (Policy.ofPredicates ∅).hides (windowed "22:00" "06:00") (visitor date)
    (windowed "22:00" "06:00").kind = some .timeRange ∧
      (∀ date ∈ [(⟨2024, 3, 13⟩ : Date), ⟨262142, 12, 31⟩, ⟨50, 3, 13⟩],
        InCalendar (visitor date).now ∧ (visitor date).now.clock = (23, 0, 0)) ∧
      hidden ⟨2024, 3, 13⟩ = false ∧ hidden ⟨262142, 12, 31⟩ = true ∧
      hidden ⟨50, 3, 13⟩ = true := by
  decide

end VisibilityRules.Period
