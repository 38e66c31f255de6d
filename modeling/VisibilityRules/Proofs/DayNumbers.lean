import VisibilityRules.Calendar.Instant

set_option autoImplicit false

/-!
Day numbers count the days of the calendar one by one, and each of them is the number of one date.
-/
namespace VisibilityRules.Calendar

def yearLength (leap : Bool) : Nat := if leap then 366 else 365

theorem daysBeforeYear_succ (year : Int) :
    daysBeforeYear (year + 1) = daysBeforeYear year + yearLength (isLeapYear year) := by
  cases leap : isLeapYear year <;> simp [isLeapYear] at leap <;>
    simp only [daysBeforeYear, yearLength] <;> simp <;> omega

theorem daysBeforeYear_mono {year year' : Int} (earlier : year ≤ year') :
    daysBeforeYear year ≤ daysBeforeYear year' := by
  unfold daysBeforeYear
  omega

/-! ### Within a year -/

theorem daysBeforeMonth_succ (leap : Bool) {month : Nat} (positive : 1 ≤ month) :
    daysBeforeMonth leap (month + 1) = daysBeforeMonth leap month + monthLength leap month := by
  obtain ⟨before, rfl⟩ := Nat.exists_eq_add_of_le' positive
  rfl

theorem daysBeforeMonth_mono (leap : Bool) {month month' : Nat} (earlier : month ≤ month') :
    daysBeforeMonth leap month ≤ daysBeforeMonth leap month' := by
  induction earlier with
  | refl => exact Nat.le_refl _
  | @step later _ ih =>
    cases later with
    | zero => exact ih
    | succ later => exact Nat.le_trans ih (Nat.le_add_right ..)

theorem daysBeforeMonth_thirteen (leap : Bool) : daysBeforeMonth leap 13 = yearLength leap := by
  cases leap <;> rfl

theorem monthLength_pos (leap : Bool) (month : Nat) : 1 ≤ monthLength leap month := by
  unfold monthLength
  split
  next => split <;> decide
  all_goals decide

theorem monthLength_le (leap : Bool) (month : Nat) : monthLength leap month ≤ 31 := by
  unfold monthLength
  split
  next => split <;> decide
  all_goals decide

/-- A month and a day in it. -/
def IsDayOf (leap : Bool) (month day : Nat) : Prop :=
  1 ≤ month ∧ month ≤ 12 ∧ 1 ≤ day ∧ day ≤ monthLength leap month

theorem walkMonths_spec {leap : Bool} {later month days : Nat} (positive : 1 ≤ month)
    (whole : month + later = 12) (inside : daysBeforeMonth leap month + days < yearLength leap) :
    let found := walkMonths leap month days later
    IsDayOf leap found.1 found.2 ∧
      daysBeforeMonth leap found.1 + found.2 = daysBeforeMonth leap month + days + 1 := by
  induction later generalizing month days with
  | zero =>
    obtain rfl : month = 12 := whole
    have december := daysBeforeMonth_succ leap positive
    rw [daysBeforeMonth_thirteen] at december
    have inMonth : days + 1 ≤ monthLength leap 12 := by omega
    exact ⟨⟨positive, Nat.le_refl _, Nat.le_add_left .., inMonth⟩,
      (Nat.add_assoc ..).symm⟩
  | succ later ih =>
    have next := daysBeforeMonth_succ leap positive
    by_cases here : days < monthLength leap month
    next =>
      rw [walkMonths, if_pos here]
      exact ⟨⟨positive, by omega, Nat.le_add_left .., here⟩, rfl⟩
    next =>
      rw [walkMonths, if_neg here]
      obtain ⟨day, number⟩ := @ih (month + 1) (days - monthLength leap month) (by omega) (by omega)
        (by omega)
      exact ⟨day, by omega⟩

theorem IsDayOf.month_le {leap : Bool} {month day month' day' : Nat} (here : IsDayOf leap month day)
    (there : IsDayOf leap month' day')
    (earlier : daysBeforeMonth leap month + day ≤ daysBeforeMonth leap month' + day') :
    month ≤ month' := by
  refine Nat.not_lt.mp fun behind => ?_
  obtain ⟨_, _, positive, _⟩ := here
  obtain ⟨first, _, _, inside⟩ := there
  have next := daysBeforeMonth_succ leap first
  have between := daysBeforeMonth_mono leap (Nat.add_one_le_of_lt behind)
  omega

/-! ### Dates and their numbers -/

namespace Date

theorem number_bounds {d : Date} (valid : d.IsValid) :
    daysBeforeYear d.year < d.number ∧ d.number ≤ daysBeforeYear (d.year + 1) := by
  obtain ⟨month, last, day, inside⟩ := valid
  have next := daysBeforeMonth_succ (isLeapYear d.year) month
  have bound := daysBeforeMonth_mono (isLeapYear d.year) (Nat.add_le_add_right last 1)
  rw [daysBeforeMonth_thirteen] at bound
  rw [daysBeforeYear_succ, number]
  omega

theorem year_le_of_number_le {d d' : Date} (valid : d.IsValid) (valid' : d'.IsValid)
    (earlier : d.number ≤ d'.number) : d.year ≤ d'.year := by
  refine Int.not_lt.mp fun later => ?_
  have between := daysBeforeYear_mono (Int.add_one_le_of_lt later)
  have bounds := number_bounds valid
  have bounds' := number_bounds valid'
  omega

theorem number_inj {d d' : Date} (valid : d.IsValid) (valid' : d'.IsValid)
    (same : d.number = d'.number) : d = d' := by
  obtain ⟨year, month, day⟩ := d
  obtain ⟨year', month', day'⟩ := d'
  obtain rfl : year = year' :=
    Int.le_antisymm (year_le_of_number_le valid valid' (Int.le_of_eq same))
      (year_le_of_number_le valid' valid (Int.le_of_eq same.symm))
  have within : daysBeforeMonth (isLeapYear year) month + day =
      daysBeforeMonth (isLeapYear year) month' + day' := by
    simp only [number] at same
    omega
  obtain rfl : month = month' :=
    Nat.le_antisymm (IsDayOf.month_le valid valid' (Nat.le_of_eq within))
      (IsDayOf.month_le valid' valid (Nat.le_of_eq within.symm))
  obtain rfl : day = day' := Nat.add_left_cancel within
  rfl

/-- A period of 400 years is cut into centuries, groups of four years, years and days. Only the last
year of four may have 366 days, and not the one that ends one of the first three centuries. -/
theorem parts_of_period {days : Nat} (inside : days < 146097) :
    let century := min 3 (days / 36524)
    let inCentury := days - 36524 * century
    let inFour := inCentury % 1461
    let yearOfFour := min 3 (inFour / 365)
    let inYear := inFour - 365 * yearOfFour
    inCentury / 1461 ≤ 24 ∧
      days = 36524 * century + 1461 * (inCentury / 1461) + 365 * yearOfFour + inYear ∧
      (inYear < 365 ∨ inYear = 365 ∧ yearOfFour = 3 ∧ (inCentury / 1461 = 24 → century = 3)) := by
  intro century inCentury inFour yearOfFour inYear
  have ofCentury : days = 36524 * century + inCentury := by omega
  have short : inCentury < 36524 ∨ inCentury = 36524 ∧ century = 3 := by omega
  clear_value inCentury century
  have ofFour : inCentury = 1461 * (inCentury / 1461) + inFour := (Nat.div_add_mod ..).symm
  have ofYear : inFour = 365 * yearOfFour + inYear := by omega
  have full : inYear < 365 ∨ inYear = 365 ∧ yearOfFour = 3 ∧ inFour = 1460 := by omega
  clear_value inYear yearOfFour inFour
  omega

theorem daysBeforeYear_of_parts (period : Int) {century four yearOfFour : Nat}
    (centuries : century ≤ 3) (fours : four ≤ 24) (years : yearOfFour ≤ 3) :
    daysBeforeYear (400 * period + 100 * century + 4 * four + yearOfFour + 1) =
      146097 * period + 36524 * century + 1461 * four + 365 * yearOfFour := by
  unfold daysBeforeYear
  omega

theorem isLeapYear_of_parts (period : Int) {century four yearOfFour : Nat} (fours : four ≤ 24)
    (fourth : yearOfFour = 3) (ends : four = 24 → century = 3) :
    isLeapYear (400 * period + 100 * century + 4 * four + yearOfFour + 1) = true := by
  simp only [isLeapYear, Bool.and_eq_true, Bool.or_eq_true, beq_iff_eq, bne_iff_ne, ne_eq]
  omega

theorem ofNumber_spec (n : Int) : (ofNumber n).IsValid ∧ (ofNumber n).number = n := by
  unfold ofNumber
  extract_lets days century inCentury inFour yearOfFour year
  have total : 146097 * ((n - 1) / 146097) + days = n - 1 := by omega
  have inside : days < 146097 := by omega
  clear_value days
  obtain ⟨fours, whole, inYear⟩ := parts_of_period inside
  change days = 36524 * century + 1461 * (inCentury / 1461) + 365 * yearOfFour +
    (inFour - 365 * yearOfFour) at whole
  have centuries : century ≤ 3 := Nat.min_le_left ..
  have years : yearOfFour ≤ 3 := Nat.min_le_left ..
  have before : daysBeforeYear year = 146097 * ((n - 1) / 146097) + 36524 * century +
      1461 * (inCentury / 1461 : Nat) + 365 * yearOfFour :=
    daysBeforeYear_of_parts ((n - 1) / 146097) centuries fours years
  have long : inFour - 365 * yearOfFour < yearLength (isLeapYear year) := by
    rcases inYear with short | ⟨last, fourth, ends⟩
    · exact Nat.lt_of_lt_of_le short (by unfold yearLength; split <;> decide)
    · have leap : isLeapYear year = true :=
        isLeapYear_of_parts ((n - 1) / 146097) fours fourth ends
      rw [leap]
      exact Nat.lt_of_le_of_lt (Nat.le_of_eq last) (by decide)
  have start : daysBeforeMonth (isLeapYear year) 1 = 0 := rfl
  obtain ⟨day, number⟩ := @walkMonths_spec (isLeapYear year) 11 1 _ (Nat.le_refl 1) rfl
    (by rwa [start, Nat.zero_add])
  refine ⟨day, ?_⟩
  clear_value year inCentury inFour yearOfFour century
  clear fours inYear
  simp only [Date.number]
  omega

theorem ofNumber_number {d : Date} (valid : d.IsValid) : ofNumber d.number = d :=
  number_inj (ofNumber_spec _).1 valid (ofNumber_spec _).2

def tomorrow (d : Date) : Date :=
  if d.day < monthLength (isLeapYear d.year) d.month then ⟨d.year, d.month, d.day + 1⟩
  else if d.month < 12 then ⟨d.year, d.month + 1, 1⟩
  else ⟨d.year + 1, 1, 1⟩

theorem tomorrow_spec {d : Date} (valid : d.IsValid) :
    d.tomorrow.IsValid ∧ d.tomorrow.number = d.number + 1 := by
  obtain ⟨year, month, day⟩ := d
  obtain ⟨first, last, positive, inside⟩ := valid
  simp only at first last positive inside
  have next := daysBeforeMonth_succ (isLeapYear year) first
  unfold tomorrow
  split
  next here => exact ⟨⟨first, last, Nat.le_add_left .., here⟩, by simp only [number]; omega⟩
  next ends =>
    simp only at ends
    split
    next inYear =>
      refine ⟨⟨Nat.le_add_left .., inYear, Nat.le_refl _, monthLength_pos ..⟩, ?_⟩
      simp only [number]
      omega
    next ends' =>
      refine ⟨⟨Nat.le_refl _, Nat.le_add_left 1 11, Nat.le_refl _, monthLength_pos ..⟩, ?_⟩
      obtain rfl : month = 12 := Nat.le_antisymm last (Nat.not_lt.mp ends')
      rw [daysBeforeMonth_thirteen] at next
      have start : daysBeforeMonth (isLeapYear (year + 1)) 1 = 0 := rfl
      simp only [number, start, daysBeforeYear_succ]
      omega

/-- From one day to the next the date moves on as in a calendar on the wall. -/
theorem ofNumber_succ (n : Int) : ofNumber (n + 1) = (ofNumber n).tomorrow := by
  obtain ⟨valid, number⟩ := ofNumber_spec n
  obtain ⟨valid', number'⟩ := tomorrow_spec valid
  rw [← ofNumber_number valid', number', number]

end Date

/-! ### Instants -/

namespace Instant

theorem isValid_date (t : Instant) : t.date.IsValid := (Date.ofNumber_spec _).1

theorem number_date (t : Instant) : t.date.number = t.dayNumber := (Date.ofNumber_spec _).2

theorem second_eq (t : Instant) : t.second = t.dayNumber * secondsPerDay + t.secondOfDay := by
  simp only [dayNumber, secondOfDay, secondsPerDay]
  omega

theorem date_midnight {d : Date} (valid : d.IsValid) : (midnight d.number).date = d := by
  have day : (midnight d.number).dayNumber = d.number := by
    simp only [dayNumber, midnight, secondsPerDay]
    omega
  rw [date, day, Date.ofNumber_number valid]

end Instant

theorem inCalendar_iff {t : Instant} :
    InCalendar t ↔ daysBeforeYear firstYear < t.dayNumber ∧
      t.dayNumber ≤ daysBeforeYear (lastYear + 1) := by
  simp only [InCalendar, Instant.dayNumber, secondsPerDay]
  omega

theorem inCalendar_iff_year {t : Instant} :
    InCalendar t ↔ firstYear ≤ t.date.year ∧ t.date.year ≤ lastYear := by
  obtain ⟨above, below⟩ := Date.number_bounds t.isValid_date
  rw [t.number_date] at above below
  rw [inCalendar_iff]
  constructor
  · intro inside
    constructor
    · refine Int.not_lt.mp fun early => ?_
      have between := daysBeforeYear_mono (Int.add_one_le_of_lt early)
      omega
    · refine Int.not_lt.mp fun late => ?_
      have between := daysBeforeYear_mono (Int.add_one_le_of_lt late)
      omega
  · intro years
    have start := daysBeforeYear_mono years.1
    have stop := daysBeforeYear_mono (Int.add_le_add_right years.2 1)
    omega

end VisibilityRules.Calendar
