import VisibilityRules.Proofs.DailyWindows
import VisibilityRules.Proofs.DateRanges

set_option autoImplicit false

/-!
The rules about time on machine words. Numbers are words of 64 bits, the number of a month has 32.
Steps that are checked give up when they leave their type or the calendar; the other additions are
made whatever comes out. The decision is the one made on unbounded numbers, since no addition that
is not checked ever leaves its type.
-/
namespace VisibilityRules.MachineWords

open Calendar

/-! ### Steps -/

/-- Why no value comes out. -/
inductive Stop where
  | givesUp
  | overflows
  deriving DecidableEq, Repr

/-- What an addition that is not checked does with a sum that leaves its type. -/
inductive Overflow where
  | faults
  | wraps
  deriving DecidableEq, Repr

def checked (n : Int) : Except Stop Int64 :=
  if -0x8000000000000000 ≤ n ∧ n < 0x8000000000000000 then .ok (.ofInt n) else .error .givesUp

def plus (mode : Overflow) (a b : Int64) : Except Stop Int64 :=
  let sum := a.toInt + b.toInt
  if mode = .wraps ∨ -0x8000000000000000 ≤ sum ∧ sum < 0x8000000000000000 then .ok (a + b)
  else .error .overflows

def plusShort (mode : Overflow) (a b : UInt32) : Except Stop UInt32 :=
  if mode = .wraps ∨ a.toNat + b.toNat < 0x100000000 then .ok (a + b) else .error .overflows

def ofOption {α : Type} : Option α → Except Stop α
  | some value => .ok value
  | none => .error .givesUp

/-- Goes on with something else where a step has given up, but not where an addition overflowed. -/
def recover {α : Type} (other : α) : Except Stop α → Except Stop α
  | .error .givesUp => .ok other
  | result => result

/-! ### Times -/

def expandYear (mode : Overflow) (year : Int64) : Except Stop Int64 :=
  if 0 ≤ year ∧ year ≤ 69 then plus mode year 2000
  else if 70 ≤ year ∧ year ≤ 100 then plus mode year 1900
  else .ok year

def firstDay (year : Int) (month : UInt32) : Except Stop Instant :=
  let first : Date := ⟨year, month.toNat, 1⟩
  if first.IsValid ∧ firstYear ≤ year ∧ year ≤ lastYear then .ok (.midnight first.number)
  else .error .givesUp

def monthStart (mode : Overflow) (months : Int64) : Except Stop Instant := do
  -- The year has to fit 32 bits; the month is counted from 1.
  let year := months.toInt / 12
  if -0x80000000 ≤ year ∧ year < 0x80000000 then
    firstDay year (← plusShort mode (.ofNat (months.toInt % 12).toNat) 1)
  else .error .givesUp

/-- A span of time in seconds; their thousandfold has to fit a word. -/
def span (count : Int64) (unit : Int) : Except Stop Int64 := do
  let seconds ← checked (count.toInt * unit)
  if seconds.toInt.natAbs ≤ 0x7FFFFFFFFFFFFFFF / 1000 then .ok seconds else .error .givesUp

def later (count : Int64) (unit : Int) (t : Instant) : Except Stop Instant := do
  let seconds ← span count unit
  ofOption (later? seconds.toInt t)

def normalize (mode : Overflow) (year month day hour minute second : Int64) :
    Except Stop Instant := do
  let years ← checked ((← expandYear mode year).toInt * 12)
  let months ← checked (years.toInt + (← checked (month.toInt - 1)).toInt)
  let first ← monthStart mode months
  let days ← checked (day.toInt - 1)
  let day ← later days 86400 first
  let hour ← later hour 3600 day
  let minute ← later minute 60 hour
  later second 1 minute

def onDay (mode : Overflow) (d : Date) (hour minute second : Int64) : Except Stop Instant :=
  normalize mode (.ofInt d.year) (.ofInt d.month) (.ofInt d.day) hour minute second

/-! ### Decisions -/

def readDate (mode : Overflow) (text : String) : Except Stop Instant :=
  let fields := Text.split ' ' (Text.trimChars text.toList)
  let parts := Text.split '/' (Text.trimChars (fields.headD []))
  let (hour, minute) := (fields[1]?.map readClockChars).getD (0, 0)
  normalize mode (.ofInt (partAt 2000 parts 0)) (.ofInt (partAt 1 parts 1))
    (.ofInt (partAt 1 parts 2)) (.ofInt hour) (.ofInt minute) 0

def bound (mode : Overflow) (attributes : Attributes) (key : String) (now : Instant) :
    Except Stop Instant :=
  match attributes.nonEmpty key with
  | some text => recover now (readDate mode text)
  | none => .ok now

def hiddenByDate (mode : Overflow) (attributes : Attributes) (visitor : Visitor) :
    Except Stop Bool := do
  let now := visitor.now.wholeSecond
  let start ← bound mode attributes "start_date" now
  let stop ← bound mode attributes "end_date" now
  .ok (Period.isOutside now start stop)

def opening (mode : Overflow) (attributes : Attributes) (today : Date) : Except Stop Instant :=
  let (hour, minute) := ((attributes.nonEmpty "start_time").map readClock).getD (0, 0)
  onDay mode today (.ofInt hour) (.ofInt minute) 0

def closing (mode : Overflow) (attributes : Attributes) (today : Date) (opening : Instant) :
    Except Stop Instant :=
  match attributes.nonEmpty "end_time" with
  | none => onDay mode today 23 59 59
  | some text => do
    let (hour, minute) := readClock text
    let closing ← onDay mode today (.ofInt hour) (.ofInt minute) 0
    if opening < closing then .ok closing
    else onDay mode today (← plus mode (.ofInt hour) 24) (.ofInt minute) 0

def window (mode : Overflow) (attributes : Attributes) (today : Date) :
    Except Stop (Instant × Instant) := do
  let opening ← opening mode attributes today
  .ok (opening, ← closing mode attributes today opening)

def hiddenByClock (mode : Overflow) (attributes : Attributes) (visitor : Visitor) :
    Except Stop Bool :=
  let now := visitor.now.wholeSecond
  recover true do
    let (opening, closing) ← window mode attributes now.date
    .ok (Period.isOutside now opening closing)

/-! ### Single steps -/

theorem bind_ofOption {α β : Type} {o : Option α} {f : α → Except Stop β} {g : α → Option β}
    (same : ∀ a, o = some a → f a = ofOption (g a)) : ofOption o >>= f = ofOption (o.bind g) := by
  cases o with
  | none => rfl
  | some a => exact same a rfl

theorem recover_ofOption {α : Type} (other : α) (o : Option α) :
    recover other (ofOption o) = .ok (o.getD other) := by
  cases o <;> rfl

theorem toInt_ofInt {n : Int} (word : IsWord n) : (Int64.ofInt n).toInt = n :=
  Int64.toInt_ofInt_of_le word.1 word.2

theorem isWord_of_small {n : Int} (small : n.natAbs < 0x8000000000000000) : IsWord n := by
  unfold IsWord
  omega

theorem isWord_toInt (a : Int64) : IsWord a.toInt := ⟨a.le_toInt, a.toInt_lt⟩

theorem checked_of_isWord {n : Int} (word : IsWord n) : checked n = .ok (.ofInt n) := if_pos word

theorem checked_of_not_isWord {n : Int} (leaves : ¬ IsWord n) : checked n = .error .givesUp :=
  if_neg leaves

theorem bind_checked {β : Type} {n : Int} {f : Int64 → Except Stop β} {g : Int → Option β}
    (same : IsWord n → f (.ofInt n) = ofOption (g n)) :
    checked n >>= f = ofOption ((word? n).bind g) := by
  by_cases word : IsWord n
  next =>
    rw [checked_of_isWord word, word_eq_some_iff.mpr ⟨rfl, word⟩, Option.bind_some, ← same word]
    rfl
  next =>
    have missing : word? n = none := if_neg word
    rw [checked_of_not_isWord word, missing]
    rfl

theorem plus_of_isWord (mode : Overflow) {a b : Int64} (word : IsWord (a.toInt + b.toInt)) :
    plus mode a b = .ok (.ofInt (a.toInt + b.toInt)) := by
  unfold plus
  simp only
  rw [if_pos (.inr word), Int64.ofInt_add, Int64.ofInt_toInt, Int64.ofInt_toInt]

theorem expandYear_eq (mode : Overflow) (year : Int64) :
    expandYear mode year = .ok (.ofInt (Calendar.expandYear year.toInt)) := by
  have early : (0 ≤ year ∧ year ≤ 69) ↔ 0 ≤ year.toInt ∧ year.toInt ≤ 69 := by
    rw [Int64.le_iff_toInt_le, Int64.le_iff_toInt_le]
    rfl
  have late : (70 ≤ year ∧ year ≤ 100) ↔ 70 ≤ year.toInt ∧ year.toInt ≤ 100 := by
    rw [Int64.le_iff_toInt_le, Int64.le_iff_toInt_le]
    rfl
  unfold expandYear Calendar.expandYear
  simp only [early, late]
  split
  next small =>
    have word : IsWord (year.toInt + 2000) := isWord_of_small (by omega)
    exact plus_of_isWord mode word
  next =>
    split
    next small =>
      have word : IsWord (year.toInt + 1900) := isWord_of_small (by omega)
      exact plus_of_isWord mode word
    next => rw [Int64.ofInt_toInt]

theorem isWord_expandYear (year : Int64) : IsWord (Calendar.expandYear year.toInt) := by
  have word := isWord_toInt year
  unfold Calendar.expandYear
  unfold IsWord at word ⊢
  split
  next => omega
  next => split <;> omega

/-- A span whose thousandfold is no word is longer than the calendar. -/
theorem later_of_far {t : Instant} (inside : InCalendar t) {seconds : Int}
    (far : 0x7FFFFFFFFFFFFFFF / 1000 < seconds.natAbs) : later? seconds t = none := by
  rw [Option.eq_none_iff_forall_ne_some]
  intro t' found
  have reached := (later_eq_some_iff.mp found).2
  simp only [InCalendar, Instant.after, secondsPerDay, daysBeforeYear, firstYear, lastYear]
    at inside reached
  omega

theorem inCalendar_of_later {seconds : Int} {t t' : Instant} (found : later? seconds t = some t') :
    InCalendar t' := by
  obtain ⟨rfl, inside⟩ := later_eq_some_iff.mp found
  exact inside

theorem span_eq (count : Int64) (unit : Int) :
    span count unit = if (count.toInt * unit).natAbs ≤ 0x7FFFFFFFFFFFFFFF / 1000 then
      .ok (.ofInt (count.toInt * unit)) else .error .givesUp := by
  by_cases word : IsWord (count.toInt * unit)
  next =>
    rw [span, checked_of_isWord word, ← toInt_ofInt word]
    simp only [Int64.ofInt_toInt]
    rfl
  next =>
    have far : ¬ (count.toInt * unit).natAbs ≤ 0x7FFFFFFFFFFFFFFF / 1000 := by
      unfold IsWord at word
      omega
    rw [span, checked_of_not_isWord word, if_neg far]
    rfl

theorem later_eq {t : Instant} (inside : InCalendar t) (count : Int64) (unit : Int) :
    later count unit t = ofOption (later? (count.toInt * unit) t) := by
  rw [later, span_eq]
  split
  next near =>
    have word : IsWord (count.toInt * unit) := isWord_of_small (by omega)
    show ofOption (later? (Int64.ofInt (count.toInt * unit)).toInt t) = _
    rw [toInt_ofInt word]
  next far =>
    rw [later_of_far inside (Nat.not_le.mp far)]
    rfl

theorem plusShort_one (mode : Overflow) {n : Nat} (small : n < 12) :
    plusShort mode (.ofNat n) 1 = .ok (.ofNat (n + 1)) := by
  have code : (UInt32.ofNat n).toNat = n := UInt32.toNat_ofNat_of_lt' (Nat.lt_trans small (by decide))
  have one : (1 : UInt32).toNat = 1 := rfl
  rw [plusShort, code, one, if_pos (.inr (by omega)), UInt32.ofNat_add]
  rfl

theorem firstDay_eq (months : Int) :
    firstDay (months / 12) (.ofNat ((months % 12).toNat + 1)) = ofOption (monthStart? months) := by
  have code : (UInt32.ofNat ((months % 12).toNat + 1)).toNat = (months % 12).toNat + 1 :=
    UInt32.toNat_ofNat_of_lt' (by show _ < 2 ^ 32; omega)
  have valid := isValid_firstOfMonth months
  unfold firstDay monthStart?
  simp only [code]
  by_cases inside : firstYear ≤ months / 12 ∧ months / 12 ≤ lastYear
  next =>
    rw [if_pos inside, if_pos ⟨valid, inside⟩]
    rfl
  next =>
    rw [if_neg inside, if_neg fun both => inside both.2]
    rfl

theorem monthStart_eq (mode : Overflow) {months : Int} (word : IsWord months) :
    monthStart mode (.ofInt months) = ofOption (monthStart? months) := by
  have added := @plusShort_one mode (months % 12).toNat (by omega)
  unfold monthStart
  simp only [toInt_ofInt word, added]
  split
  next => exact firstDay_eq months
  next long =>
    -- A year that does not fit 32 bits is not in the calendar either.
    have missing : monthStart? months = none := by
      rw [monthStart?, if_neg (by simp only [firstYear, lastYear]; omega)]
    rw [missing]
    rfl

/-- The parts of a time may be any words: no addition that is not checked overflows. -/
theorem normalize_eq (mode : Overflow) (year month day hour minute second : Int64) :
    normalize mode year month day hour minute second =
      ofOption (normalize? year.toInt month.toInt day.toInt hour.toInt minute.toInt
        second.toInt) := by
  unfold normalize normalize?
  rw [expandYear_eq]
  show checked ((Int64.ofInt (Calendar.expandYear year.toInt)).toInt * 12) >>= _ = _
  rw [toInt_ofInt (isWord_expandYear year)]
  refine bind_checked fun years => ?_
  refine bind_checked fun offset => ?_
  rw [toInt_ofInt years, toInt_ofInt offset]
  refine bind_checked fun months => ?_
  rw [monthStart_eq mode months]
  refine bind_ofOption fun first found => ?_
  have inside : InCalendar first := by
    obtain ⟨rfl, inside⟩ := monthStart_eq_some_iff.mp found
    exact inside
  refine bind_checked fun days => ?_
  rw [later_eq inside, toInt_ofInt days]
  refine bind_ofOption fun day found => ?_
  rw [later_eq (inCalendar_of_later found)]
  refine bind_ofOption fun hour found => ?_
  rw [later_eq (inCalendar_of_later found)]
  refine bind_ofOption fun minute found => ?_
  rw [later_eq (inCalendar_of_later found), Int.mul_one]

/-! ### Parts -/

theorem isWord_integerPart {cs : List Char} {n : Int} (read : integerPart? cs = some n) :
    IsWord n := by
  simp only [integerPart?, Option.bind_eq_bind, Option.bind_eq_some_iff] at read
  obtain ⟨numeral, _, magnitude, _, read⟩ := read
  split at read
  next small =>
    obtain rfl := Option.some.inj read
    unfold IsWord
    split <;> omega
  next => cases read

theorem isWord_readPart {default : Int} (word : IsWord default) (part : List Char) :
    IsWord (readPart default part) := by
  unfold readPart
  simp only
  split
  next => exact word
  next =>
    split
    next n read =>
      obtain ⟨_, _, fits⟩ := Option.bind_eq_some_iff.mp read
      obtain ⟨rfl, fits⟩ := word_eq_some_iff.mp fits
      exact fits
    next =>
      cases read : integerPart? (Text.trimChars part) with
      | none => exact word
      | some n => exact isWord_integerPart read

theorem isWord_partAt {default : Int} (word : IsWord default) (parts : List (List Char))
    (i : Nat) : IsWord (partAt default parts i) := by
  unfold partAt
  cases parts[i]? with
  | none => exact word
  | some part => exact isWord_readPart word part

/-- A clock time whose hour and minute are words. -/
def AreWords (clock : Int × Int) : Prop := IsWord clock.1 ∧ IsWord clock.2

theorem areWords_midnight : AreWords (0, 0) :=
  ⟨isWord_of_small (by decide), isWord_of_small (by decide)⟩

theorem areWords_readClockChars (text : List Char) : AreWords (readClockChars text) :=
  ⟨isWord_partAt areWords_midnight.1 _ 0, isWord_partAt areWords_midnight.2 _ 1⟩

theorem areWords_getD {clock : Option (Int × Int)} (given : ∀ c ∈ clock, AreWords c) :
    AreWords (clock.getD (0, 0)) := by
  cases clock with
  | none => exact areWords_midnight
  | some c => exact given c rfl

/-! ### Rules -/

theorem toOption_ofOption {α : Type} (o : Option α) : (ofOption o).toOption = o := by
  cases o <;> rfl

theorem readDate_eq (mode : Overflow) (text : String) :
    readDate mode text = ofOption (Calendar.readDate? text) := by
  have clock : AreWords ((((Text.split ' ' (Text.trimChars text.toList))[1]?).map
      readClockChars).getD (0, 0)) := by
    refine areWords_getD fun c mem => ?_
    obtain ⟨field, _, rfl⟩ := Option.map_eq_some_iff.mp mem
    exact areWords_readClockChars field
  unfold readDate Calendar.readDate?
  simp only
  rw [normalize_eq, toInt_ofInt (isWord_partAt (isWord_of_small (by decide)) ..),
    toInt_ofInt (isWord_partAt (isWord_of_small (by decide)) ..),
    toInt_ofInt (isWord_partAt (isWord_of_small (by decide)) ..), toInt_ofInt clock.1,
    toInt_ofInt clock.2]
  rfl

theorem bound_eq (mode : Overflow) (attributes : Attributes) (key : String) (now : Instant) :
    bound mode attributes key now = .ok (Period.bound attributes key now) := by
  unfold bound Period.bound
  cases attributes.nonEmpty key with
  | none => rfl
  | some text => simp only [readDate_eq, recover_ofOption, Option.bind_some]

/-- An hour that leads to a time on one day has room for the hours of another day. -/
theorem isWord_nextDay {d : Date} {hour minute second : Int} {t : Instant}
    (found : onDay? d hour minute second = some t) : IsWord (hour + 24) := by
  obtain ⟨_, way, _⟩ := normalize_eq_some_iff.mp found
  have before := way.day
  have reached := way.hour
  simp only [InCalendar, Instant.after, secondsPerDay, daysBeforeYear, firstYear, lastYear]
    at before reached
  unfold IsWord
  omega

theorem plus_nextDay (mode : Overflow) {hour : Int64} (room : IsWord (hour.toInt + 24)) :
    plus mode hour 24 = .ok (.ofInt (hour.toInt + 24)) :=
  plus_of_isWord mode room

section

variable {attributes : Attributes} {t : Instant} (inside : InCalendar t)
include inside

theorem onDay_eq (mode : Overflow) (hour minute second : Int64) :
    onDay mode t.date hour minute second =
      ofOption (onDay? t.date hour.toInt minute.toInt second.toInt) := by
  obtain ⟨early, late⟩ := inCalendar_iff_year.mp inside
  obtain ⟨_, months, _, days⟩ := t.isValid_date
  have days' := monthLength_le (isLeapYear t.date.year) t.date.month
  simp only [firstYear, lastYear] at early late
  have year : IsWord t.date.year := isWord_of_small (by omega)
  have month : IsWord t.date.month := isWord_of_small (by omega)
  have day : IsWord t.date.day := isWord_of_small (by omega)
  rw [onDay, normalize_eq, toInt_ofInt year, toInt_ofInt month, toInt_ofInt day]
  rfl

theorem onDay_ofInt (mode : Overflow) {hour minute : Int} (ofHour : IsWord hour)
    (ofMinute : IsWord minute) (second : Int64) :
    onDay mode t.date (.ofInt hour) (.ofInt minute) second =
      ofOption (onDay? t.date hour minute second.toInt) := by
  rw [onDay_eq inside, toInt_ofInt ofHour, toInt_ofInt ofMinute]

theorem opening_eq (mode : Overflow) :
    opening mode attributes t.date = ofOption (Period.opening? attributes t.date) := by
  have words : AreWords (((attributes.nonEmpty "start_time").map readClock).getD (0, 0)) := by
    refine areWords_getD fun clock mem => ?_
    obtain ⟨text, _, rfl⟩ := Option.map_eq_some_iff.mp mem
    exact areWords_readClockChars text.toList
  exact onDay_ofInt inside mode words.1 words.2 0

theorem closing_eq (mode : Overflow) (opening : Instant) :
    closing mode attributes t.date opening =
      ofOption (Period.closing? attributes t.date opening) := by
  unfold closing Period.closing?
  cases attributes.nonEmpty "end_time" with
  | none => exact onDay_eq inside mode 23 59 59
  | some text =>
    have words : AreWords (readClock text) := areWords_readClockChars text.toList
    simp only
    rw [onDay_ofInt inside mode words.1 words.2 0]
    refine bind_ofOption fun closing found => ?_
    split
    next => rfl
    next =>
      -- The hour has already led to a time of today.
      have room := isWord_nextDay found
      rw [plus_nextDay mode (by rwa [toInt_ofInt words.1]), toInt_ofInt words.1]
      exact onDay_ofInt inside mode room words.2 0

theorem window_eq (mode : Overflow) :
    window mode attributes t.date = ofOption (Period.window? attributes t.date) := by
  unfold window Period.window?
  rw [opening_eq inside]
  refine bind_ofOption fun opening _ => ?_
  rw [closing_eq inside]
  exact bind_ofOption fun _ _ => rfl

end

/-- Whatever stands in the attributes, both rules decide on words as on unbounded numbers, and no
addition overflows: an hour has room for another day once it has led to a time. A date that is
given up bounds nothing, a window that is given up shows nothing. -/
theorem decides_as_unbounded (mode : Overflow) (attributes : Attributes) (visitor : Visitor)
    (inside : InCalendar visitor.now) :
    hiddenByDate mode attributes visitor = .ok (Period.hiddenByDate attributes visitor) ∧
    hiddenByClock mode attributes visitor = .ok (Period.hiddenByClock attributes visitor) ∧
    (∀ (hour minute second : Int64) (t : Instant),
      onDay mode visitor.now.date hour minute second = .ok t →
        IsWord (hour.toInt + 24) ∧ plus mode hour 24 = .ok (.ofInt (hour.toInt + 24))) ∧
    (∀ key text now, attributes.nonEmpty key = some text →
      (readDate mode text).toOption = none → bound mode attributes key now = .ok now) ∧
    ((window mode attributes visitor.now.date).toOption = none →
      hiddenByClock mode attributes visitor = .ok true) := by
  have byClock : hiddenByClock mode attributes visitor =
      .ok (Period.hiddenByClock attributes visitor) := by
    unfold hiddenByClock Period.hiddenByClock
    simp only [Period.date_wholeSecond, window_eq inside]
    cases Period.window? attributes visitor.now.date <;> rfl
  refine ⟨?byDate, byClock, ?room, ?dates, ?windows⟩
  case byDate =>
    simp only [hiddenByDate, bound_eq]
    rfl
  case room =>
    intro hour minute second t found
    rw [onDay_eq inside] at found
    have room : IsWord (hour.toInt + 24) := by
      cases reached : onDay? visitor.now.date hour.toInt minute.toInt second.toInt with
      | none => rw [reached] at found; cases found
      | some _ => exact isWord_nextDay reached
    exact ⟨room, plus_nextDay mode room⟩
  case dates =>
    intro key text now given missing
    rw [readDate_eq, toOption_ofOption] at missing
    rw [bound_eq, Period.bound, given, Option.bind_some, missing, Option.getD_none]
  case windows =>
    intro missing
    rw [window_eq inside, toOption_ofOption] at missing
    have hidden : Period.hiddenByClock attributes visitor = true := by
      unfold Period.hiddenByClock
      simp only [Period.date_wholeSecond, missing]
    rw [byClock, hidden]

/-- With the extreme words in the dates and, in the clock times, an hour that leads to the far past
and again to the day after. -/
theorem decides_as_unbounded_at_the_extremes :
    let attributes := Dictionary.ofEntries [("start_date", "2020/-9223372036854775808/01"),
      ("end_date", "9223372036854775807/01/01"), ("start_time", "-2000000000:0"),
      ("end_time", "-2000000000:-9")]
    let visitor := Visitor.anonymous (.ofDate ⟨2024, 3, 13⟩ 12 0 0 0)
    InCalendar visitor.now ∧ hiddenByDate .faults attributes visitor = .ok false ∧
      hiddenByClock .faults attributes visitor = .ok true ∧
      plus .faults 9223372036854775807 24 = .error .overflows := by
  intro attributes visitor
  have inside : InCalendar visitor.now := by decide
  obtain ⟨byDate, byClock, _⟩ := decides_as_unbounded .faults attributes visitor inside
  refine ⟨inside, byDate.trans ?_, byClock.trans ?_, by decide⟩
  · rw [show Period.hiddenByDate attributes visitor = false by decide]
  · rw [show Period.hiddenByClock attributes visitor = true by decide]

end VisibilityRules.MachineWords
