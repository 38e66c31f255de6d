import VisibilityRules.Calendar.Authored
import VisibilityRules.Proofs.DayNumbers

set_option autoImplicit false

/-!
Parts of a date, in range or not, lead to the instant that plain arithmetic gives, unless a word or
the calendar is left on the way. It can be left on the way to an instant inside.
-/
namespace VisibilityRules.Calendar

def Instant.after (t : Instant) (seconds : Int) : Instant := ⟨t.second + seconds, t.nanos⟩

theorem Instant.after_zero (t : Instant) : t.after 0 = t := by
  rw [after, Int.add_zero]

theorem Instant.after_after (t : Instant) (a b : Int) : (t.after a).after b = t.after (a + b) := by
  simp only [after, Int.add_assoc]

def IsWord (n : Int) : Prop := -0x8000000000000000 ≤ n ∧ n < 0x8000000000000000

/-! ### Single steps -/

theorem word_eq_some_iff {n word : Int} : word? n = some word ↔ word = n ∧ IsWord n := by
  unfold word?
  split
  next fits => exact ⟨fun same => ⟨(Option.some.inj same).symm, fits⟩, fun found => by rw [found.1]⟩
  next leaves => exact iff_of_false nofun fun found => leaves found.2

theorem later_eq_some_iff {seconds : Int} {t t' : Instant} :
    later? seconds t = some t' ↔ t' = t.after seconds ∧ InCalendar (t.after seconds) := by
  unfold later?
  simp only
  split
  next inside =>
    exact ⟨fun same => ⟨(Option.some.inj same).symm, inside⟩, fun found => by rw [found.1]; rfl⟩
  next outside => exact iff_of_false nofun fun found => outside found.2

/-- Months are counted from January of year 0. -/
def firstOfMonth (months : Int) : Date := ⟨months / 12, (months % 12).toNat + 1, 1⟩

theorem isValid_firstOfMonth (months : Int) : (firstOfMonth months).IsValid := by
  refine ⟨Nat.le_add_left .., ?_, Nat.le_refl _, monthLength_pos ..⟩
  simp only [firstOfMonth]
  omega

def startOfMonth (months : Int) : Instant := .midnight (firstOfMonth months).number

theorem date_startOfMonth (months : Int) : (startOfMonth months).date = firstOfMonth months :=
  Instant.date_midnight (isValid_firstOfMonth months)

theorem monthStart_eq_some_iff {months : Int} {t : Instant} :
    monthStart? months = some t ↔ t = startOfMonth months ∧ InCalendar (startOfMonth months) := by
  rw [inCalendar_iff_year, date_startOfMonth]
  unfold monthStart?
  simp only
  split
  next inside =>
    exact ⟨fun same => ⟨(Option.some.inj same).symm, inside⟩, fun found => by rw [found.1]; rfl⟩
  next outside => exact iff_of_false nofun fun found => outside found.2

/-! ### The whole way -/

def monthCount (year month : Int) : Int := expandYear year * 12 + month - 1

/-- The counts of months and of days fit a word. -/
structure FitWords (year month day : Int) : Prop where
  ofYears : IsWord (expandYear year * 12)
  ofMonth : IsWord (month - 1)
  months : IsWord (monthCount year month)
  days : IsWord (day - 1)

/-- No step of the way leaves the calendar: from the first of the month the days are added, then the
hours, the minutes and the seconds. -/
structure StaysInside (first : Instant) (days hours minutes seconds : Int) : Prop where
  start : InCalendar first
  day : InCalendar (first.after (days * secondsPerDay))
  hour : InCalendar ((first.after (days * secondsPerDay)).after (hours * 3600))
  minute : InCalendar (((first.after (days * secondsPerDay)).after (hours * 3600)).after
    (minutes * 60))
  second : InCalendar ((((first.after (days * secondsPerDay)).after (hours * 3600)).after
    (minutes * 60)).after seconds)

theorem normalize_eq_some_iff {year month day hour minute second : Int} {t : Instant} :
    normalize? year month day hour minute second = some t ↔
      FitWords year month day ∧
        StaysInside (startOfMonth (monthCount year month)) (day - 1) hour minute second ∧
        t = ((((startOfMonth (monthCount year month)).after ((day - 1) * secondsPerDay)).after
          (hour * 3600)).after (minute * 60)).after second := by
  have count : expandYear year * 12 + (month - 1) = monthCount year month := by
    unfold monthCount
    omega
  simp only [normalize?, Option.bind_eq_bind, Option.bind_eq_some_iff, word_eq_some_iff,
    monthStart_eq_some_iff, later_eq_some_iff, and_assoc, exists_eq_left, count]
  constructor
  · rintro ⟨ofYears, ofMonth, months, start, days, day, hour, minute, same, second⟩
    exact ⟨⟨ofYears, ofMonth, months, days⟩, ⟨start, day, hour, minute, second⟩, same⟩
  · rintro ⟨⟨ofYears, ofMonth, months, days⟩, ⟨start, day, hour, minute, second⟩, same⟩
    exact ⟨ofYears, ofMonth, months, start, days, day, hour, minute, same, second⟩

/-! ### A clock time on a day -/

/-- A year that stands for itself; the others are read as years of two digits. -/
def IsPlainYear (year : Int) : Prop := year < 0 ∨ 100 < year

theorem expandYear_of_plain {year : Int} (plain : IsPlainYear year) : expandYear year = year := by
  unfold IsPlainYear at plain
  rw [expandYear, if_neg (by omega), if_neg (by omega)]

def Instant.dayStart (t : Instant) : Instant := .midnight t.dayNumber

/-- From the start of the day a clock time is reached inside the calendar: neither its hours nor its
minutes lead out. -/
structure Reaches (t : Instant) (clock : Int × Int) : Prop where
  hour : InCalendar (t.dayStart.after (clock.1 * 3600))
  minute : InCalendar ((t.dayStart.after (clock.1 * 3600)).after (clock.2 * 60))

section

variable {t : Instant}

theorem inCalendar_dayStart_after (inside : InCalendar t) {seconds : Int} (early : 0 ≤ seconds)
    (late : seconds < 86400) : InCalendar (t.dayStart.after seconds) := by
  have same : (t.dayStart.after seconds).dayNumber = t.dayNumber := by
    simp only [Instant.dayStart, Instant.after, Instant.midnight, Instant.dayNumber, secondsPerDay]
    omega
  rw [inCalendar_iff] at inside ⊢
  rwa [same]

variable (plain : IsPlainYear t.date.year)
include plain

theorem firstOfMonth_date :
    firstOfMonth (monthCount t.date.year t.date.month) = ⟨t.date.year, t.date.month, 1⟩ := by
  obtain ⟨first, last, _, _⟩ := t.isValid_date
  rw [monthCount, expandYear_of_plain plain, firstOfMonth, Date.mk.injEq]
  omega

theorem startOfMonth_date : (startOfMonth (monthCount t.date.year t.date.month)).after
    ((t.date.day - 1) * secondsPerDay) = t.dayStart := by
  have number : (firstOfMonth (monthCount t.date.year t.date.month)).number +
      (t.date.day - 1) = t.dayNumber := by
    rw [firstOfMonth_date plain, ← t.number_date]
    simp only [Date.number]
    omega
  rw [Instant.dayStart, ← number, startOfMonth]
  exact congrArg (Instant.mk · 0) (Int.add_mul ..).symm

variable (inside : InCalendar t)
include inside

theorem fitWords_date : FitWords t.date.year t.date.month t.date.day := by
  obtain ⟨early, late⟩ := inCalendar_iff_year.mp inside
  obtain ⟨_, last, _, day⟩ := t.isValid_date
  have days := monthLength_le (isLeapYear t.date.year) t.date.month
  rw [firstYear] at early
  rw [lastYear] at late
  constructor
  all_goals
    simp only [IsWord, monthCount, expandYear_of_plain plain]
    omega

/-- A clock time is there if it is reached. The year of the day has to be plain, since it goes the
way of the years that authors write. -/
theorem onDay_eq_some_iff {hour minute second : Int} {t' : Instant} :
    onDay? t.date hour minute second = some t' ↔
      Reaches t (hour, minute) ∧
        t' = ((t.dayStart.after (hour * 3600)).after (minute * 60)).after second ∧
        InCalendar t' := by
  rw [onDay?, normalize_eq_some_iff, startOfMonth_date plain]
  constructor
  · rintro ⟨_, ⟨_, _, hour, minute, second⟩, rfl⟩
    rw [startOfMonth_date plain] at hour minute second
    exact ⟨⟨hour, minute⟩, rfl, second⟩
  · rintro ⟨⟨hour, minute⟩, rfl, second⟩
    have month : InCalendar (startOfMonth (monthCount t.date.year t.date.month)) := by
      rw [inCalendar_iff_year, date_startOfMonth, firstOfMonth_date plain]
      exact inCalendar_iff_year.mp inside
    have day := inCalendar_dayStart_after inside (Int.le_refl 0) (by decide : (0 : Int) < 86400)
    rw [Instant.after_zero] at day
    refine ⟨fitWords_date plain inside, ⟨month, ?_, ?_, ?_, ?_⟩, rfl⟩
    all_goals rwa [startOfMonth_date plain]

end

/-! ### Far from the ends of the calendar -/

/-- Two hundred thousand million seconds are more than six thousand years. -/
theorem inCalendar_after {t : Instant} {seconds : Int}
    (years : -250000 ≤ t.date.year ∧ t.date.year ≤ 250000)
    (near : -200000000000 ≤ seconds ∧ seconds ≤ 200000000000) : InCalendar (t.after seconds) := by
  obtain ⟨above, below⟩ := Date.number_bounds t.isValid_date
  rw [t.number_date] at above below
  have start := daysBeforeYear_mono years.1
  have stop := daysBeforeYear_mono (Int.add_le_add_right years.2 1)
  simp only [daysBeforeYear] at start stop
  simp only [InCalendar, Instant.after, Instant.dayNumber, secondsPerDay, daysBeforeYear, firstYear,
    lastYear] at above below ⊢
  omega

theorem staysInside_of_near {first : Instant} {days hours minutes seconds : Int}
    (years : -250000 ≤ first.date.year ∧ first.date.year ≤ 250000)
    (day : days.natAbs ≤ 1000001) (hour : hours.natAbs ≤ 10000000)
    (minute : minutes.natAbs ≤ 10000000) (second : seconds.natAbs ≤ 10000000) :
    StaysInside first days hours minutes seconds := by
  have inside : InCalendar first := by
    rw [inCalendar_iff_year, firstYear, lastYear]
    omega
  constructor
  case start => exact inside
  all_goals
    simp only [secondsPerDay, Instant.after_after]
    apply inCalendar_after years
    omega

theorem Instant.clock_midnight (n : Int) : (midnight n).clock = (0, 0, 0) := by
  have start : (midnight n).secondOfDay = 0 := by
    simp only [secondOfDay, midnight, secondsPerDay]
    omega
  rw [clock, start]

/-- Parts lead to the instant as many seconds after the midnight at which their month begins as the
days, hours, minutes and seconds count together, and they lead to one if they are not too far from
the ordinary. -/
theorem normalize_is_exact (year month day hour minute second : Int) :
    (∀ t, normalize? year month day hour minute second = some t →
      ∃ start : Instant,
        start.date = ⟨monthCount year month / 12, (monthCount year month % 12).toNat + 1, 1⟩ ∧
        start.clock = (0, 0, 0) ∧ start.nanos = 0 ∧
        t.second = start.second + ((day - 1) * 86400 + hour * 3600 + minute * 60 + second) ∧
        t.nanos = 0) ∧
    ((expandYear year).natAbs ≤ 200000 → month.natAbs ≤ 12000 → day.natAbs ≤ 1000000 →
      hour.natAbs ≤ 10000000 → minute.natAbs ≤ 10000000 → second.natAbs ≤ 10000000 →
      ∃ t, normalize? year month day hour minute second = some t) := by
  constructor
  · intro t normalized
    obtain ⟨_, _, rfl⟩ := normalize_eq_some_iff.mp normalized
    refine ⟨startOfMonth (monthCount year month), date_startOfMonth (monthCount year month),
      Instant.clock_midnight _, rfl, ?_, rfl⟩
    simp only [Instant.after, Int.add_assoc]
    rfl
  · intro years ofMonth days hours minutes seconds
    refine ⟨_, normalize_eq_some_iff.mpr ⟨?_, staysInside_of_near ?_ ?_ hours minutes seconds, rfl⟩⟩
    · constructor
      all_goals
        simp only [IsWord, monthCount]
        omega
    · rw [date_startOfMonth]
      simp only [firstOfMonth, monthCount]
      omega
    · omega

theorem normalize_is_exact_rolled_over :
    ∃ t, normalize? (-200000) 12000 (-1000000) 10000000 (-10000000) 10000000 = some t ∧
      ∃ start : Instant, start.date = ⟨-199001, 12, 1⟩ ∧ start.clock = (0, 0, 0) ∧
        start.nanos = 0 ∧ t.second = start.second - 50990086400 ∧ t.nanos = 0 := by
  obtain ⟨arithmetic, total⟩ :=
    normalize_is_exact (-200000) 12000 (-1000000) 10000000 (-10000000) 10000000
  obtain ⟨t, found⟩ := total (by decide) (by decide) (by decide) (by decide) (by decide) (by decide)
  exact ⟨t, found, arithmetic t found⟩

/-! ### Ways that leave the calendar -/

/-- The instant to which plain arithmetic leads, inside the calendar or not. -/
def target (year month day hour minute second : Int) : Instant :=
  (startOfMonth (monthCount year month)).after
    ((day - 1) * secondsPerDay + hour * 3600 + minute * 60 + second)

/-- What lies on the way in front of the target is inside: the words, the first of the month and
the instants up to which the days, the hours and the minutes lead. -/
structure StaysOnTheWay (year month day hour minute : Int) : Prop where
  ofYears : IsWord (expandYear year * 12)
  ofMonth : IsWord (month - 1)
  start : InCalendar (startOfMonth (monthCount year month))
  days : InCalendar (target year month day 0 0 0)
  hours : InCalendar (target year month day hour 0 0)
  minutes : InCalendar (target year month day hour minute 0)

theorem isWord_of_startOfMonth {months : Int} (inside : InCalendar (startOfMonth months)) :
    IsWord months := by
  rw [inCalendar_iff_year, date_startOfMonth] at inside
  simp only [firstOfMonth, firstYear, lastYear] at inside
  unfold IsWord
  omega

theorem isWord_of_days {t : Instant} {days : Int} (start : InCalendar t)
    (moved : InCalendar (t.after (days * secondsPerDay))) : IsWord days := by
  simp only [InCalendar, Instant.after, secondsPerDay, daysBeforeYear, firstYear, lastYear]
    at start moved
  unfold IsWord
  omega

theorem inCalendar_between {t : Instant} {seconds total : Int} (start : InCalendar t)
    (stop : InCalendar (t.after total))
    (between : 0 ≤ seconds ∧ seconds ≤ total ∨ total ≤ seconds ∧ seconds ≤ 0) :
    InCalendar (t.after seconds) := by
  simp only [InCalendar, Instant.after] at start stop ⊢
  omega

theorem normalize_eq_some_target_iff {year month day hour minute second : Int} {t : Instant} :
    normalize? year month day hour minute second = some t ↔
      t = target year month day hour minute second ∧ InCalendar t ∧
        StaysOnTheWay year month day hour minute := by
  simp only [normalize_eq_some_iff, Instant.after_after]
  constructor
  case mp =>
    rintro ⟨words, way, rfl⟩
    obtain ⟨start, days, hours, minutes, last⟩ := way
    simp only [Instant.after_after] at hours minutes last
    refine ⟨rfl, last, words.ofYears, words.ofMonth, start, ?_, ?_, ?_⟩
    all_goals simpa [target]
  case mpr =>
    rintro ⟨rfl, last, way⟩
    obtain ⟨ofYears, ofMonth, start, days, hours, minutes⟩ := way
    simp only [target, Int.zero_mul, Int.add_zero] at days hours minutes
    have words : FitWords year month day :=
      ⟨ofYears, ofMonth, isWord_of_startOfMonth start, isWord_of_days start days⟩
    refine ⟨words, ⟨start, days, ?_, ?_, ?_⟩, rfl⟩
    all_goals simpa only [Instant.after_after]

/-- Parts are given up exactly if the instant to which they lead, or something on the way to it,
lies outside. From a month inside, parts that all lead in one direction are given up only for the
instant itself. -/
theorem normalize_gives_up_iff (year month day hour minute second : Int) :
    (normalize? year month day hour minute second = none ↔
      ¬ InCalendar (target year month day hour minute second) ∨
        ¬ StaysOnTheWay year month day hour minute) ∧
    (∀ t, normalize? year month day hour minute second = some t →
      t = target year month day hour minute second) ∧
    (IsWord (expandYear year * 12) → IsWord (month - 1) →
      InCalendar (startOfMonth (monthCount year month)) →
      (1 ≤ day ∧ 0 ≤ hour ∧ 0 ≤ minute ∧ 0 ≤ second ∨
        day ≤ 1 ∧ hour ≤ 0 ∧ minute ≤ 0 ∧ second ≤ 0) →
      (normalize? year month day hour minute second = none ↔
        ¬ InCalendar (target year month day hour minute second))) := by
  have given_up : normalize? year month day hour minute second = none ↔
      ¬ InCalendar (target year month day hour minute second) ∨
        ¬ StaysOnTheWay year month day hour minute := by
    rw [← Decidable.imp_iff_not_or]
    simp [Option.eq_none_iff_forall_ne_some, normalize_eq_some_target_iff]
  refine ⟨given_up, fun t found => (normalize_eq_some_target_iff.mp found).1, ?_⟩
  intro ofYears ofMonth start direction
  rw [given_up]
  refine or_iff_left_of_imp fun leaves inside => leaves ?_
  have between := fun seconds => @inCalendar_between _ seconds _ start inside
  constructor
  case ofYears => exact ofYears
  case ofMonth => exact ofMonth
  case start => exact start
  all_goals
    apply between
    simp only [secondsPerDay]
    omega

/-- The last second of the calendar is reached, the next one is not. -/
theorem normalize_gives_up_iff_last_second :
    (normalize? 262142 12 31 22 119 59).isSome ∧ normalize? 262142 12 31 22 119 60 = none := by
  have words : IsWord (expandYear 262142 * 12) ∧ IsWord (12 - 1) := by unfold IsWord; decide
  have start : InCalendar (startOfMonth (monthCount 262142 12)) := by decide
  obtain ⟨_, _, last⟩ := normalize_gives_up_iff 262142 12 31 22 119 59
  obtain ⟨_, _, next⟩ := normalize_gives_up_iff 262142 12 31 22 119 60
  constructor
  · rw [Option.isSome_iff_ne_none, ne_eq, last words.1 words.2 start (by decide)]
    decide
  · rw [next words.1 words.2 start (by decide)]
    decide

/-- Six days in front of the first day behind the calendar. -/
theorem normalize_gives_up_inside :
    InCalendar (target 262143 1 (-5) 0 0 0) ∧
      (target 262143 1 (-5) 0 0 0).date = ⟨262142, 12, 26⟩ ∧
      normalize? 262143 1 (-5) 0 0 0 = none := by
  decide

end VisibilityRules.Calendar
