import VisibilityRules.Proofs.QueryStrings
import VisibilityRules.Request.Flags

set_option autoImplicit false

/-!
Query parameters as they may be written in a URL and in flags. Whatever escapes a name or a value is
written with, the visitor has the parameters that were meant, and of those with one name the last.
-/
namespace VisibilityRules

namespace Percent

/-- Bytes written as percent signs, each with two hexadecimal digits. -/
inductive Escapes : List UInt8 → List Char → Prop
  | nil : Escapes [] []
  | cons {b : UInt8} {bytes : List UInt8} {high low : Char} {written : List Char} :
      Text.IsHexDigit high (b.toNat / 16) → Text.IsHexDigit low (b.toNat % 16) →
      Escapes bytes written → Escapes (b :: bytes) ('%' :: high :: low :: written)

theorem decode_escapes {bytes : List UInt8} {written : List Char} (escapes : Escapes bytes written)
    (rest : List UInt8) :
    decode (Text.Utf8.encode written ++ rest) = bytes ++ decode rest := by
  induction escapes with
  | nil => rfl
  | cons first second _ ih => rw [decode_escape first second, ih, List.cons_append]

theorem decode_append_of_free {front : List UInt8} (free : (0x25 : UInt8) ∉ front)
    (rest : List UInt8) : decode (front ++ rest) = front ++ decode rest := by
  induction front with
  | nil => rfl
  | cons b front ih =>
    rw [List.mem_cons, not_or] at free
    rw [List.cons_append, decode_cons (Ne.symm free.1), ih free.2, List.cons_append]

theorem percent_not_mem_utf8EncodeChar {c : Char} (other : c ≠ '%') :
    (0x25 : UInt8) ∉ String.utf8EncodeChar c := by
  intro mem
  by_cases ascii : Text.Utf8.IsAscii c
  · rw [Text.Utf8.utf8EncodeChar_of_isAscii ascii, List.mem_singleton] at mem
    exact other (Text.Utf8.toUInt8_injective ascii (by decide) mem.symm)
  · exact absurd (Text.Utf8.high_of_not_isAscii ascii mem) (by decide)

end Percent

namespace QueryString

/-- A text as a name or a value may be written: a character stands for itself, unless it is a mark,
a plus sign for a space, and any character may be escaped. -/
inductive Writes : List Char → List Char → Prop
  | nil : Writes [] []
  | plain {c : Char} {text written : List Char} :
      c ∉ ['%', '+', '&', '=', '#'] → Writes text written → Writes (c :: text) (c :: written)
  | plus {text written : List Char} : Writes text written → Writes (' ' :: text) ('+' :: written)
  | escaped {c : Char} {escape text written : List Char} :
      Percent.Escapes (String.utf8EncodeChar c) escape → Writes text written →
      Writes (c :: text) (escape ++ written)

theorem mem_of_escapes {bytes : List UInt8} {written : List Char}
    (escapes : Percent.Escapes bytes written) {c : Char} (mem : c ∈ written) :
    c ∈ '%' :: "0123456789abcdefABCDEF".toList := by
  induction escapes with
  | nil => exact absurd mem List.not_mem_nil
  | cons first second _ ih =>
    rcases List.mem_cons.mp mem with rfl | mem
    · exact List.mem_cons_self
    rcases List.mem_cons.mp mem with rfl | mem
    · exact List.mem_cons_of_mem _ first.mem
    rcases List.mem_cons.mp mem with rfl | mem
    · exact List.mem_cons_of_mem _ second.mem
    · exact ih mem

theorem Writes.free {text written : List Char} (writes : Writes text written) {c : Char}
    (mark : c ∈ ['&', '=', '#']) : c ∉ written := by
  have other : ∀ c ∈ ['&', '=', '#'], c ∉ '%' :: "0123456789abcdefABCDEF".toList ∧
      c ∈ ['%', '+', '&', '=', '#'] ∧ c ≠ '+' := by decide
  obtain ⟨unescaped, reserved, plus⟩ := other c mark
  induction writes with
  | nil => exact List.not_mem_nil
  | plain unreserved _ ih =>
    exact List.not_mem_cons_of_ne_of_not_mem (fun same => unreserved (same ▸ reserved)) ih
  | plus _ ih => exact List.not_mem_cons_of_ne_of_not_mem plus ih
  | escaped escapes _ ih =>
    rw [List.mem_append, not_or]
    exact ⟨fun mem => unescaped (mem_of_escapes escapes mem), ih⟩

def spaced (cs : List Char) : List Char := cs.map fun c => if c = '+' then ' ' else c

theorem spaced_of_escapes {bytes : List UInt8} {written : List Char}
    (escapes : Percent.Escapes bytes written) : spaced written = written := by
  have other : ∀ c ∈ '%' :: "0123456789abcdefABCDEF".toList, c ≠ '+' := by decide
  rw [spaced, List.map_congr_left fun c mem => if_neg (other c (mem_of_escapes escapes mem)),
    List.map_id']

theorem decode_spaced {text written : List Char} (writes : Writes text written) :
    Percent.decode (Text.Utf8.encode (spaced written)) = Text.Utf8.encode text := by
  induction writes with
  | nil => rfl
  | @plain c text written unreserved _ ih =>
    simp only [List.mem_cons, not_or] at unreserved
    have same : spaced (c :: written) = c :: spaced written := by simp [spaced, unreserved]
    rw [same, Text.Utf8.encode_cons, Text.Utf8.encode_cons, Percent.decode_append_of_free
      (Percent.percent_not_mem_utf8EncodeChar unreserved.1), ih]
  | @plus text written _ ih =>
    have same : spaced ('+' :: written) = ' ' :: spaced written := rfl
    rw [same, Text.Utf8.encode_cons, Text.Utf8.encode_cons, Percent.decode_append_of_free
      (Percent.percent_not_mem_utf8EncodeChar (by decide)), ih]
  | @escaped c escape text written escapes _ ih =>
    have split : spaced (escape ++ written) = escape ++ spaced written := by
      rw [spaced, List.map_append]
      exact congrArg (· ++ _) (spaced_of_escapes escapes)
    rw [split, Text.Utf8.encode_append, Text.Utf8.encode_cons, Percent.decode_escapes escapes, ih]

theorem decodePart_written {text written : List Char} (writes : Writes text written) :
    decodePart written = String.ofList text := by
  have read : Percent.decodeText? (spaced written) = some text := by
    rw [Percent.decodeText?, decode_spaced writes, Text.Utf8.decode_encode]
  show String.ofList ((Percent.decodeText? (spaced written)).getD (spaced written)) = _
  rw [read, Option.getD_some]

/-! ### Pairs -/

/-- A pair with a name, written with an equality sign. -/
def WritesPair (pair : String × String) (written : List Char) : Prop :=
  pair.1 ≠ "" ∧ ∃ name value, Writes pair.1.toList name ∧ Writes pair.2.toList value ∧
    written = name ++ '=' :: value

/-- Items with at least one ampersand between any two of them, and more at any place. -/
inductive Joins : List (List Char) → List Char → Prop
  | nil : Joins [] []
  | ampersand {items : List (List Char)} {text : List Char} :
      Joins items text → Joins items ('&' :: text)
  | last (item : List Char) : Joins [item] item
  | cons (item : List Char) {items : List (List Char)} {text : List Char} :
      Joins items text → Joins (item :: items) (item ++ '&' :: text)

def WritesQuery (pairs : List (String × String)) (query : List Char) : Prop :=
  ∃ items, List.Forall₂ WritesPair pairs items ∧ Joins items query

theorem WritesPair.readPair {pair : String × String} {written : List Char}
    (writes : WritesPair pair written) : readPair? written = some pair := by
  obtain ⟨named, name, value, first, second, rfl⟩ := writes
  have cut : Text.splitOnce '=' (name ++ '=' :: value) = some (name, value) :=
    Text.splitOnce_eq_some_iff.mpr ⟨rfl, first.free (by simp)⟩
  have name_read := decodePart_written first
  have value_read := decodePart_written second
  rw [String.ofList_toList] at name_read value_read
  simp only [readPair?, cut, Option.getD_some, name_read, value_read, if_neg named]

theorem WritesPair.free {pair : String × String} {written : List Char}
    (writes : WritesPair pair written) {c : Char} (mark : c ∈ ['&', '#']) : c ∉ written := by
  obtain ⟨_, name, value, first, second, rfl⟩ := writes
  have other : ∀ c ∈ ['&', '#'], c ∈ ['&', '=', '#'] ∧ c ≠ '=' := by decide
  obtain ⟨listed, sign⟩ := other c mark
  simp [first.free listed, second.free listed, sign]

theorem Joins.filterMap_split {items : List (List Char)} {text : List Char}
    (joins : Joins items text) (free : ∀ item ∈ items, '&' ∉ item) :
    (Text.split '&' text).filterMap readPair? = items.filterMap readPair? := by
  have nothing : readPair? [] = none := readPair_eq_none_iff.mpr (.inl rfl)
  rw [Text.split_eq_splitOn]
  induction joins with
  | nil => rw [List.splitOn_nil, List.filterMap_cons_none nothing]
  | @ampersand items text _ ih =>
    have first : ('&' :: text).splitOn '&' = [] :: text.splitOn '&' :=
      List.splitOn_append_cons_self_of_not_mem List.not_mem_nil text
    rw [first, List.filterMap_cons_none nothing, ih free]
  | last item => rw [List.splitOn_eq_singleton (free item (by simp))]
  | @cons item items text _ ih =>
    obtain ⟨here, later⟩ := List.forall_mem_cons.mp free
    rw [List.splitOn_append_cons_self_of_not_mem here, List.filterMap_cons, List.filterMap_cons,
      ih later]

theorem Joins.free {items : List (List Char)} {text : List Char} (joins : Joins items text)
    {c : Char} (other : c ≠ '&') (free : ∀ item ∈ items, c ∉ item) : c ∉ text := by
  induction joins with
  | nil => exact List.not_mem_nil
  | ampersand _ ih => exact List.not_mem_cons_of_ne_of_not_mem other (ih free)
  | last item => exact free item (by simp)
  | cons item _ ih =>
    obtain ⟨here, later⟩ := List.forall_mem_cons.mp free
    simp [here, other, ih later]

theorem filterMap_readPair {pairs : List (String × String)} {items : List (List Char)}
    (each : List.Forall₂ WritesPair pairs items) : items.filterMap readPair? = pairs := by
  induction each with
  | nil => rfl
  | cons first _ ih => rw [List.filterMap_cons_some first.readPair, ih]

theorem free_of_forall₂ {pairs : List (String × String)} {items : List (List Char)}
    (each : List.Forall₂ WritesPair pairs items) {c : Char} (mark : c ∈ ['&', '#']) :
    ∀ item ∈ items, c ∉ item := by
  induction each with
  | nil => exact nofun
  | cons first _ ih => exact List.forall_mem_cons.mpr ⟨first.free mark, ih⟩

/-- A URL that asks for these parameters, with a fragment or without one. -/
def WritesUrl (pairs : List (String × String)) (url : List Char) : Prop :=
  ∃ base query tail, ('?' ∉ base ∧ '#' ∉ base) ∧ WritesQuery pairs query ∧
    (tail = [] ∨ tail.head? = some '#') ∧ url = base ++ '?' :: (query ++ tail)

theorem read_of_writes {pairs : List (String × String)} {url : String}
    (writes : WritesUrl pairs url.toList) : read url = .ofEntries pairs := by
  obtain ⟨base, query, tail, ⟨free, _⟩, ⟨items, each, joins⟩, cut, text⟩ := writes
  have whole : '#' ∉ query := joins.free (by decide) (free_of_forall₂ each (by simp))
  rw [read_eq, text, writtenPairs_append free, takeWhile_query whole cut,
    joins.filterMap_split (free_of_forall₂ each (by simp)), filterMap_readPair each]

end QueryString

/-! ### Flags -/

namespace RequestFlags

open QueryString

/-- A flag that sets no parameter: it has no equality sign, or no name in front of it. -/
def IsMalformed (flag : String) : Prop := '=' ∉ flag.toList ∨ flag.toList.head? = some '='

instance (flag : String) : Decidable (IsMalformed flag) := inferInstanceAs (Decidable (_ ∨ _))

def flagText (entry : String × String) : String := entry.1 ++ "=" ++ entry.2

theorem setParameter_flagText {entry : String × String} (named : entry.1 ≠ "")
    (free : '=' ∉ entry.1.toList) (query : Query) :
    setParameter query (flagText entry) = .ok (query.insert entry.1 entry.2) := by
  have cut : Text.splitOnce '=' (flagText entry).toList = some (entry.1.toList, entry.2.toList) :=
    Text.splitOnce_eq_some_iff.mpr ⟨by simp [flagText], free⟩
  obtain ⟨c, name, letters⟩ := List.exists_cons_of_ne_nil (mt String.toList_eq_nil_iff.mp named)
  have whole : String.ofList (c :: name) = entry.1 := by rw [← letters, String.ofList_toList]
  rw [letters] at cut
  simp only [setParameter, cut, whole, String.ofList_toList]

theorem setParameter_malformed {flag : String} (malformed : IsMalformed flag) (query : Query) :
    setParameter query flag = .error (.badQuery flag) := by
  unfold setParameter
  split
  next c name value cut =>
    obtain ⟨text, free⟩ := Text.splitOnce_eq_some_iff.mp cut
    rcases malformed with missing | first
    · simp [text] at missing
    · rw [text, List.cons_append, List.head?_cons, Option.some.injEq] at first
      simp [first] at free
  next => rfl

theorem exists_flagText {flag : String} (sets : ¬ IsMalformed flag) :
    ∃ entry : String × String, entry.1 ≠ "" ∧ '=' ∉ entry.1.toList ∧ flagText entry = flag := by
  rw [IsMalformed, not_or, not_not] at sets
  obtain ⟨name, value, text, free⟩ := List.eq_append_cons_of_mem sets.1
  refine ⟨(String.ofList name, String.ofList value), ?_, ?_, ?_⟩
  · rintro empty
    rw [String.ofList_eq_empty_iff] at empty
    simp [text, empty] at sets
  · simpa using free
  · rw [← String.toList_inj, text]
    simp [flagText]

theorem foldlM_flagText {given : List (String × String)}
    (named : ∀ entry ∈ given, entry.1 ≠ "" ∧ '=' ∉ entry.1.toList) (query : Query) :
    (given.map flagText).foldlM setParameter query =
      .ok (given.foldl (fun d (name, value) => d.insert name value) query) := by
  induction given generalizing query with
  | nil => rfl
  | cons entry given ih =>
    obtain ⟨first, others⟩ := List.forall_mem_cons.mp named
    rw [List.map_cons, List.foldlM_cons, setParameter_flagText first.1 first.2]
    exact ih others _

theorem foldlM_of_first_malformed {flags : List String} {flag : String}
    (first : flags.find? (IsMalformed ·) = some flag) (query : Query) :
    flags.foldlM setParameter query = .error (.badQuery flag) := by
  induction flags generalizing query with
  | nil => exact nomatch first
  | cons front flags ih =>
    rw [List.find?_cons] at first
    by_cases malformed : IsMalformed front
    next =>
      simp only [malformed, decide_true, Option.some.injEq] at first
      rw [List.foldlM_cons, setParameter_malformed malformed, first]
      rfl
    next =>
      simp only [malformed, decide_false] at first
      obtain ⟨entry, named, free, rfl⟩ := exists_flagText malformed
      rw [List.foldlM_cons, setParameter_flagText named free]
      exact ih first _

theorem visitor_of_time {flags : RequestFlags} {current now : Calendar.Instant}
    (timed : flags.time current = .ok now) :
    flags.visitor current = flags.parameters.map fun query =>
      ⟨flags.user, query, now.wholeSecond, flags.requestingDevice⟩ := by
  rw [visitor, timed]
  cases flags.parameters <;> rfl

/-- The parameters that the URL asks for; without a URL there are none. -/
def AsksFor (pairs : List (String × String)) : Option String → Prop
  | none => pairs = []
  | some url => WritesUrl pairs url.toList

theorem read_of_asksFor {pairs : List (String × String)} {url : Option String}
    (asks : AsksFor pairs url) : (url.map read).getD ∅ = .ofEntries pairs := by
  cases url with
  | none =>
    rw [show pairs = [] from asks]
    rfl
  | some url => exact read_of_writes asks

/-- Parameters of the URL and of the flags reach the visitor as they were meant, the last one of a
name winning and flags over the URL. A flag that sets none stops the request. -/
theorem visitor_query (flags : RequestFlags) (current now : Calendar.Instant)
    (timed : flags.time current = .ok now) :
    (∀ pairs given : List (String × String), AsksFor pairs flags.url →
      (∀ entry ∈ given, entry.1 ≠ "" ∧ '=' ∉ entry.1.toList) →
      flags.query = given.map flagText →
      ∃ visitor, flags.visitor current = .ok visitor ∧ ∀ name : String,
        visitor.query[name]? = (given.reverse.lookup name).or (pairs.reverse.lookup name)) ∧
    ∀ flag, flags.query.find? (IsMalformed ·) = some flag →
      flags.visitor current = .error (.badQuery flag) := by
  rw [visitor_of_time timed, parameters]
  constructor
  · intro pairs given asks named written
    rw [read_of_asksFor asks, written, foldlM_flagText named]
    refine ⟨_, rfl, fun name => ?_⟩
    rw [Dictionary.getElem?_foldl_insert, Dictionary.getElem?_ofEntries]
  · intro flag first
    rw [foldlM_of_first_malformed first]
    rfl

def mixedFlags (query : List String) : RequestFlags where
  userId := none
  roles := []
  query := query
  url := some "/a?a=1&&%C3%a9+?=%2B%20&a=2#&b=?"
  now := some " 2024-03-06 12:30 "
  device := none
  userAgent := none
  predicates := []

theorem writesUrl_mixed :
    WritesUrl [("a", "1"), ("é ?", "+ "), ("a", "2")] "/a?a=1&&%C3%a9+?=%2B%20&a=2#&b=?".toList := by
  have a : Writes "a".toList "a".toList := .plain (by decide) .nil
  have one : Writes "1".toList "1".toList := .plain (by decide) .nil
  have two : Writes "2".toList "2".toList := .plain (by decide) .nil
  have accent : Percent.Escapes (String.utf8EncodeChar 'é') "%C3%a9".toList :=
    .cons (by decide) (by decide) (.cons (by decide) (by decide) .nil)
  have plus : Percent.Escapes (String.utf8EncodeChar '+') "%2B".toList :=
    .cons (by decide) (by decide) .nil
  have space : Percent.Escapes (String.utf8EncodeChar ' ') "%20".toList :=
    .cons (by decide) (by decide) .nil
  have pairs : List.Forall₂ WritesPair [("a", "1"), ("é ?", "+ "), ("a", "2")]
      ["a=1".toList, "%C3%a9+?=%2B%20".toList, "a=2".toList] :=
    .cons ⟨by decide, "a".toList, "1".toList, a, one, rfl⟩ <|
    .cons ⟨by decide, "%C3%a9+?".toList, "%2B%20".toList,
      .escaped accent (.plus (.plain (by decide) .nil)), .escaped plus (.escaped space .nil), rfl⟩ <|
    .cons ⟨by decide, "a".toList, "2".toList, a, two, rfl⟩ .nil
  refine ⟨"/a".toList, "a=1&&%C3%a9+?=%2B%20&a=2".toList, "#&b=?".toList, by decide,
    ⟨_, pairs, ?_⟩, .inr rfl, rfl⟩
  exact .cons "a=1".toList (.ampersand (.cons "%C3%a9+?=%2B%20".toList (.last "a=2".toList)))

/-- Escapes in both cases, a question mark in a name, a fragment with pairs, names given twice. -/
theorem visitor_query_mixed :
    let midnight : Calendar.Instant := .ofDate ⟨2000, 1, 1⟩ 0 0 0 0
    (∃ visitor, (mixedFlags ["c=", "c=9=8"]).visitor midnight = .ok visitor ∧
      ["a", "é ?", "c", "b"].map (visitor.query[·]?) = [some "2", some "+ ", some "9=8", none]) ∧
    (mixedFlags ["c=1", "=x", "d"]).visitor midnight = .error (.badQuery "=x") := by
  intro midnight
  let noon : Calendar.Instant := .ofDate ⟨2024, 3, 6⟩ 12 30 0 0
  have timed (query : List String) : (mixedFlags query).time midnight = .ok noon := by rfl
  constructor
  · obtain ⟨visitor, built, held⟩ := (visitor_query (mixedFlags ["c=", "c=9=8"]) midnight noon
      (timed _)).1 _ [("c", ""), ("c", "9=8")] writesUrl_mixed (by decide) (by decide)
    refine ⟨visitor, built, ?_⟩
    simp only [List.map_cons, List.map_nil, held]
    decide
  · exact (visitor_query (mixedFlags ["c=1", "=x", "d"]) midnight noon (timed _)).2 "=x"
      (by decide)

end RequestFlags

end VisibilityRules
