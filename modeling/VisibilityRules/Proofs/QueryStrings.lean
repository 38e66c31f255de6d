import VisibilityRules.Proofs.Encodings
import VisibilityRules.Proofs.Separators
import VisibilityRules.Request.QueryString

set_option autoImplicit false

/-!
Where the query of a URL stands. A fragment is cut off behind the first question mark only, so a URL
without a question mark takes its query from its fragment.
-/
namespace VisibilityRules

theorem Text.Utf8.decode_eq_some_nil_iff {bytes : List UInt8} :
    decode? bytes = some [] ↔ bytes = [] := by
  constructor
  · intro read
    cases bytes with
    | nil => rfl
    | cons b bytes =>
      rw [decode?, pieces, List.mapM_cons] at read
      simp only [Option.bind_eq_bind, Option.bind_eq_some_iff, Option.pure_def, Option.some.injEq,
        List.cons_ne_nil, and_false, exists_false] at read
  · rintro rfl
    exact decode_encode []

theorem Percent.decode_eq_nil_iff {bytes : List UInt8} : decode bytes = [] ↔ bytes = [] := by
  fun_cases decode bytes <;> simp

theorem Percent.decodeText_eq_some_nil_iff {cs : List Char} :
    decodeText? cs = some [] ↔ cs = [] := by
  rw [decodeText?, Text.Utf8.decode_eq_some_nil_iff, decode_eq_nil_iff, ← List.length_eq_zero_iff,
    Text.Utf8.length_encode, Text.Utf8.size_eq_zero_iff]

theorem Percent.decodeText_getD_eq_nil_iff {cs : List Char} :
    (decodeText? cs).getD cs = [] ↔ cs = [] := by
  constructor
  · intro empty
    cases read : decodeText? cs with
    | none => simpa [read] using empty
    | some text =>
      rw [read, Option.getD_some] at empty
      exact decodeText_eq_some_nil_iff.mp (read.trans (congrArg some empty))
  · rintro rfl
    rw [decodeText_eq_some_nil_iff.mpr rfl, Option.getD_some]

namespace QueryString

theorem decodePart_eq_empty_iff {part : List Char} : decodePart part = "" ↔ part = [] := by
  rw [decodePart, String.ofList_eq_empty_iff, Percent.decodeText_getD_eq_nil_iff,
    List.map_eq_nil_iff]

/-- No name stands in front of the equality sign. -/
def IsNameless (pair : List Char) : Prop := pair = [] ∨ pair.head? = some '='

theorem readPair_eq_none_iff {pair : List Char} : readPair? pair = none ↔ IsNameless pair := by
  have unnamed : readPair? pair = none ↔
      decodePart ((Text.splitOnce '=' pair).getD (pair, [])).1 = "" := by
    simp only [readPair?]
    split <;> simp_all
  rw [unnamed, decodePart_eq_empty_iff, IsNameless]
  cases pair with
  | nil => simp [Text.splitOnce]
  | cons c pair =>
    by_cases sign : c = '='
    · simp [Text.splitOnce, sign]
    · cases found : Text.splitOnce '=' pair <;> simp [Text.splitOnce, sign, found]

/-- The pairs of a URL as they are written. -/
def writtenPairs (url : List Char) : List (List Char) :=
  match Text.splitOnce '?' url with
  | none => []
  | some (_, query) => Text.split '&' (query.takeWhile (· ≠ '#'))

theorem pairs_eq (url : List Char) : pairs url = (writtenPairs url).filterMap readPair? := by
  rw [pairs, writtenPairs]
  cases Text.splitOnce '?' url <;> rfl

theorem writtenPairs_of_free {url : List Char} (free : '?' ∉ url) : writtenPairs url = [] := by
  rw [writtenPairs, Text.splitOnce_eq_none_iff.mpr free]

theorem writtenPairs_append {base query : List Char} (free : '?' ∉ base) :
    writtenPairs (base ++ '?' :: query) = Text.split '&' (query.takeWhile (· ≠ '#')) := by
  rw [writtenPairs, Text.splitOnce_eq_some_iff.mpr ⟨rfl, free⟩]

/-- What stands behind a number sign belongs to no query. -/
theorem takeWhile_query {query tail : List Char} (free : '#' ∉ query)
    (cut : tail = [] ∨ tail.head? = some '#') :
    (query ++ tail).takeWhile (· ≠ '#') = query := by
  have within : ∀ c ∈ query, decide (c ≠ '#') = true := by
    intro c mem
    exact decide_eq_true fun same => free (same ▸ mem)
  rw [List.takeWhile_append_of_pos within]
  rcases cut with rfl | sign
  · rw [List.takeWhile_nil, List.append_nil]
  · obtain ⟨rest, rfl⟩ := List.head?_eq_some_iff.mp sign
    simp

/-- A URL without a question mark of its own is read as its fragment would be. -/
theorem writtenPairs_append_fragment {url fragment : List Char} (whole : '#' ∉ url) :
    writtenPairs (url ++ '#' :: fragment) =
      if '?' ∈ url then writtenPairs url else writtenPairs fragment := by
  by_cases asks : '?' ∈ url
  next =>
    obtain ⟨base, query, rfl, free⟩ := List.eq_append_cons_of_mem asks
    have uncut : '#' ∉ query := fun mem => whole (by simp [mem])
    have alone := takeWhile_query uncut (.inl rfl)
    rw [List.append_nil] at alone
    rw [if_pos asks, List.append_assoc, List.cons_append, writtenPairs_append free,
      writtenPairs_append free, takeWhile_query uncut (.inr rfl), alone]
  next =>
    rw [if_neg asks]
    by_cases later : '?' ∈ fragment
    next =>
      obtain ⟨front, query, rfl, free⟩ := List.eq_append_cons_of_mem later
      have first : '?' ∉ url ++ '#' :: front := by simp [asks, free]
      have moved : url ++ '#' :: (front ++ '?' :: query) = url ++ '#' :: front ++ '?' :: query := by
        simp
      rw [moved, writtenPairs_append first, writtenPairs_append free]
    next =>
      have missing : '?' ∉ url ++ '#' :: fragment := by simp [asks, later]
      rw [writtenPairs_of_free missing, writtenPairs_of_free later]

theorem read_eq (url : String) :
    read url = .ofEntries ((writtenPairs url.toList).filterMap readPair?) := by
  rw [read, pairs_eq]

theorem read_append_fragment {url : String} (whole : '#' ∉ url.toList) (fragment : String) :
    read (url ++ "#" ++ fragment) = if '?' ∈ url.toList then read url else read fragment := by
  have split : (url ++ "#" ++ fragment).toList = url.toList ++ '#' :: fragment.toList := by simp
  rw [read_eq, split, writtenPairs_append_fragment whole, read_eq, read_eq]
  split <;> rfl

theorem read_eq_empty_iff {url : String} :
    read url = ∅ ↔ ∀ pair ∈ writtenPairs url.toList, IsNameless pair := by
  rw [read_eq, Dictionary.ofEntries_eq_empty_iff, List.filterMap_eq_nil_iff]
  exact forall₂_congr fun _ _ => readPair_eq_none_iff

/-- A fragment has no say in the parameters of a URL that asks for something, and else none as long
as no pair of the fragment itself has a name. -/
theorem read_append_fragment_eq_iff (url fragment : String) (whole : '#' ∉ url.toList) :
    read (url ++ "#" ++ fragment) = read url ↔
      '?' ∈ url.toList ∨ ∀ pair ∈ writtenPairs fragment.toList, IsNameless pair := by
  rw [read_append_fragment whole]
  by_cases asks : '?' ∈ url.toList
  next => simp [asks]
  next =>
    have nothing : read url = ∅ := by
      rw [read_eq, writtenPairs_of_free asks]
      rfl
    simp [asks, nothing, read_eq_empty_iff]

/-- A question mark in the fragment alone does no harm, a pair with a name behind it does. -/
theorem read_append_fragment_eq_iff_nameless :
    '#' ∉ "/page".toList ∧ read ("/page" ++ "#" ++ "top?=b&") = read "/page" ∧
      read ("/page" ++ "#" ++ "top?b=c") ≠ read "/page" := by
  have whole : '#' ∉ "/page".toList := by decide
  refine ⟨whole, ?_, ?_⟩
  · refine (read_append_fragment_eq_iff "/page" "top?=b&" whole).mpr (.inr ?_)
    unfold IsNameless
    decide
  · rw [ne_eq, read_append_fragment_eq_iff "/page" "top?b=c" whole]
    unfold IsNameless
    decide

theorem read_append_fragment_ne :
    ¬ ∀ url fragment : String, '#' ∉ url.toList →
      read (url ++ "#" ++ fragment) = read url := by
  intro cut
  have same : read "/page#top?b=c" = read "/page" := cut "/page" "top?b=c" (by decide)
  have held : (read "/page#top?b=c")["b"]? = some "c" := by decide_cbv
  rw [same] at held
  exact absurd held (by decide)

end QueryString

end VisibilityRules
