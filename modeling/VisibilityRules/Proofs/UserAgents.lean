import VisibilityRules.Device.UserAgent
import VisibilityRules.Proofs.LetterCase
import VisibilityRules.Proofs.Separators

set_option autoImplicit false

/-!
What a user agent tells of the device. A mobile device is one whose agent holds one of the words or
one of the numbered series, whatever stands around it and in whatever case it is written.
-/
namespace VisibilityRules

namespace Text

theorem contains_iff {text pattern : List Char} :
    contains text pattern = true ↔ pattern <:+: text := by
  rw [contains, Option.isSome_iff_ne_none, ne_eq, breakOn_eq_none_iff, not_not]

/-! ### Letters of either case -/

section

variable {α : Type} {f : Char → α} (capitals : ∀ {c d : Char}, IsCapitalOf c d → f c = f d)
include capitals

theorem SameLetter.apply_eq {c d : Char} (same : SameLetter c d) : f c = f d := by
  rcases same with rfl | capital | small
  · rfl
  · exact capitals capital
  · exact (capitals small).symm

theorem map_eq_of_sameLetter {cs ds : List Char} (same : List.Forall₂ SameLetter cs ds) :
    cs.map f = ds.map f := by
  induction same with
  | nil => rfl
  | cons first _ ih => rw [List.map_cons, List.map_cons, first.apply_eq capitals, ih]

end

theorem lowerFrom_small {n : Nat} (small : 0x61 ≤ n ∧ n ≤ 0x7A) : lowerFrom n caseRuns = n := by
  rw [caseRuns, lowerFrom, if_neg (by simp only; omega), if_neg (by simp; omega), lowerFrom,
    if_pos (by simp only; omega)]

theorem lowerChar_of_isCapitalOf {c d : Char} (capital : IsCapitalOf c d) :
    lowerChar c = lowerChar d := by
  obtain ⟨letter, code⟩ := capital
  have bounds := isCapital_iff.mp letter
  have dotted : '\u0130'.toNat = 0x130 := rfl
  have undotted {e : Char} (ascii : e.toNat ≤ 0x7A) : e ≠ '\u0130' := by
    rintro rfl
    omega
  rw [lowerChar, if_neg (undotted (by omega)), lowerFrom_capital bounds, lowerChar,
    if_neg (undotted (by omega)), lowerFrom_small (by omega), code]

theorem lowerChars_congr {cs ds : List Char} (same : List.Forall₂ SameLetter cs ds) :
    lowerChars cs = lowerChars ds := by
  rw [lowerChars, lowerChars, List.flatMap_def, List.flatMap_def,
    map_eq_of_sameLetter lowerChar_of_isCapitalOf same]

end Text

namespace UserAgent

theorem foldCase_of_isCapitalOf {c d : Char} (capital : Text.IsCapitalOf c d) :
    foldCase c = foldCase d := by
  have bounds := Text.isCapital_iff.mp capital.1
  have code := capital.2
  have kelvin : '\u212A'.toNat = 0x212A := rfl
  have long : '\u017F'.toNat = 0x17F := rfl
  have ascii {e : Char} (small : e.toNat ≤ 0x7A) : foldCase e = Text.lowerAscii e := by
    rw [foldCase, if_neg (by rintro rfl; omega), if_neg (by rintro rfl; omega)]
  rw [ascii (by omega), ascii (by omega)]
  exact Text.lowerAscii_eq_iff.mpr (.inr (.inl capital))

theorem classify_congr {agent other : String}
    (same : List.Forall₂ Text.SameLetter agent.toList other.toList) :
    classify agent = classify other := by
  have folded := Text.map_eq_of_sameLetter foldCase_of_isCapitalOf same
  have words : names agent.toList = names other.toList := by
    funext word
    rw [names, names, folded]
  have series : namesSeries agent.toList = namesSeries other.toList := by
    funext word
    rw [namesSeries, namesSeries, folded]
  have android : isAndroidTablet agent.toList = isAndroidTablet other.toList := by
    rw [isAndroidTablet, isAndroidTablet, Text.lowerChars_congr same]
  rw [classify, classify, isMobile, isMobile, isTablet, isTablet, words, series, android]

/-! ### Words and series -/

theorem names_iff {agent : List Char} {word : String} :
    names agent word = true ↔ word.toList <:+: agent.map foldCase := Text.contains_iff

theorem numberedFront_iff {word text : List Char} :
    numberedFront word text = true ↔ ∃ d, Text.isDecimalDigit d = true ∧ word ++ [d] <+: text := by
  constructor
  · intro numbered
    unfold numberedFront at numbered
    split at numbered
    next c rest found =>
      refine ⟨c, numbered, rest, ?_⟩
      rw [Text.dropFront_eq_some_iff.mp found, List.append_assoc, List.singleton_append]
    next => exact absurd numbered Bool.false_ne_true
  · rintro ⟨d, digit, rest, rfl⟩
    have found : Text.dropFront word (word ++ [d] ++ rest) = some (d :: rest) :=
      Text.dropFront_eq_some_iff.mpr (by rw [List.append_assoc, List.singleton_append])
    rw [numberedFront, found]
    exact digit

theorem numbered_iff {word text : List Char} :
    numbered word text = true ↔ ∃ d, Text.isDecimalDigit d = true ∧ word ++ [d] <:+: text := by
  induction text with
  | nil => simp [numbered]
  | cons c text ih =>
    rw [numbered, Bool.or_eq_true, numberedFront_iff, ih, ← exists_or]
    simp only [List.infix_cons_iff, and_or_left]

/-- Something in a folded agent tells a mobile device: a word or a series with its number. -/
def TellsMobile (folded : List Char) : Prop :=
  (∃ word ∈ tabletWords ++ mobileWords, word.toList <:+: folded) ∨
    ∃ word ∈ tabletSeries, ∃ d, Text.isDecimalDigit d = true ∧ word.toList ++ [d] <:+: folded

theorem TellsMobile.mono {folded text : List Char} (tells : TellsMobile folded)
    (inside : folded <:+: text) : TellsMobile text := by
  rcases tells with ⟨word, listed, here⟩ | ⟨word, listed, d, digit, here⟩
  · exact .inl ⟨word, listed, here.trans inside⟩
  · exact .inr ⟨word, listed, d, digit, here.trans inside⟩

/-! ### Android -/

theorem foldCase_of_lowerChar {c d : Char} (small : Text.IsWordChar d)
    (lowered : Text.lowerChar c = [d]) : foldCase c = d := by
  have bounds := Text.isWordChar_iff.mp small
  have kelvin : '\u212A'.toNat = 0x212A := rfl
  have long : '\u017F'.toNat = 0x17F := rfl
  have same := (Text.lowerChar_eq_iff small).mp lowered
  rw [same.apply_eq foldCase_of_isCapitalOf, foldCase,
    if_neg (by rintro rfl; omega), if_neg (by rintro rfl; omega), ← Char.toNat_inj,
    Text.toNat_lowerAscii, if_neg (by rw [Text.isCapital_iff]; omega)]

theorem lowerChar_cases (c : Char) :
    Text.lowerChar c = ['i', '\u0307'] ∨ ∃ d, Text.lowerChar c = [d] := by
  unfold Text.lowerChar
  split
  next => exact .inl rfl
  next => exact .inr ⟨_, rfl⟩

section

variable {word agent : List Char} (small : ∀ d ∈ word, Text.IsWordChar d)
  (last : word.getLast? ≠ some 'i')
include small last

/-- A word found in a lowered text is found in the folded one as well. Only a word that ends with
an i need not be, since a dotted capital is lowered to one with a dot behind it. -/
theorem prefix_folded (front : word <+: Text.lowerChars agent) : word <+: agent.map foldCase := by
  induction agent generalizing word with
  | nil => exact front
  | cons c agent ih =>
    have whole : Text.lowerChars (c :: agent) = Text.lowerChar c ++ Text.lowerChars agent :=
      List.flatMap_cons
    rw [whole] at front
    cases word with
    | nil => exact List.nil_prefix
    | cons d word =>
      obtain ⟨first, others⟩ := List.forall_mem_cons.mp small
      rcases lowerChar_cases c with dotted | ⟨e, lowered⟩
      · rw [dotted] at front
        cases word with
        | nil =>
          have ends : d = 'i' := (List.cons_prefix_cons.mp front).1
          exact absurd (congrArg some ends) last
        | cons e word =>
          have dot : e = '\u0307' :=
            (List.cons_prefix_cons.mp (List.cons_prefix_cons.mp front).2).1
          exact absurd (others e List.mem_cons_self) (by rw [dot]; decide)
      · rw [lowered, List.singleton_append, List.cons_prefix_cons] at front
        obtain ⟨rfl, rest⟩ := front
        have last : word.getLast? ≠ some 'i' := by
          cases word with
          | nil => nofun
          | cons e word => rwa [List.getLast?_cons_cons] at last
        rw [List.map_cons, foldCase_of_lowerChar first lowered, List.cons_prefix_cons]
        exact ⟨rfl, ih others last rest⟩

theorem infix_folded (inside : word <:+: Text.lowerChars agent) : word <:+: agent.map foldCase := by
  induction agent with
  | nil => exact inside
  | cons c agent ih =>
    have whole : Text.lowerChars (c :: agent) = Text.lowerChar c ++ Text.lowerChars agent :=
      List.flatMap_cons
    have later (here : word <:+: Text.lowerChars agent) : word <:+: (c :: agent).map foldCase :=
      List.infix_cons (ih here)
    have first (front : word <+: Text.lowerChars (c :: agent)) :
        word <:+: (c :: agent).map foldCase := (prefix_folded small last front).isInfix
    rcases lowerChar_cases c with dotted | ⟨e, lowered⟩
    · rw [whole, dotted, List.cons_append, List.infix_cons_iff] at inside
      rw [whole, dotted] at first
      rcases inside with front | inside
      · exact first front
      -- The dot behind the letter begins no word.
      rcases List.infix_cons_iff.mp inside with dot | inside
      · cases word with
        | nil => exact List.nil_infix
        | cons d word =>
          have dot : d = '\u0307' := (List.cons_prefix_cons.mp dot).1
          exact absurd (small d List.mem_cons_self) (by rw [dot]; decide)
      · exact later inside
    · rw [whole, lowered] at inside first
      exact (List.infix_cons_iff.mp inside).elim first later

end

theorem names_android {agent : List Char} (tablet : isAndroidTablet agent = true) :
    names agent "android" = true := by
  rw [isAndroidTablet, Bool.and_eq_true, Text.contains_iff] at tablet
  exact names_iff.mpr (infix_folded (by decide) (by decide) tablet.1)

theorem isMobile_iff {agent : List Char} :
    isMobile agent = true ↔ TellsMobile (agent.map foldCase) := by
  have android : isAndroidTablet agent = true → mobileWords.any (names agent) = true :=
    fun tablet => List.any_eq_true.mpr ⟨"android", by decide, names_android tablet⟩
  have series : tabletSeries.any (namesSeries agent) = true ↔ ∃ word ∈ tabletSeries, ∃ d,
      Text.isDecimalDigit d = true ∧ word.toList ++ [d] <:+: agent.map foldCase := by
    simp only [List.any_eq_true, namesSeries, numbered_iff]
  simp only [isMobile, isTablet, Bool.or_eq_true, TellsMobile, List.mem_append, ← series,
    or_and_right, exists_or, ← names_iff, ← List.any_eq_true]
  tauto

/-! ### Classes -/

/-- The class of a device does not depend on the case of letters, and whatever stands around the
agent of a mobile device, it is still one. Tablets are mobile. -/
theorem classify_stable (agent : String) :
    (∀ other : String, List.Forall₂ Text.SameLetter agent.toList other.toList →
      classify other = classify agent) ∧
    (∀ front back : String, (classify agent).isMobile = true →
      (classify (front ++ agent ++ back)).isMobile = true) ∧
    ((classify agent).isTablet = true → (classify agent).isMobile = true) := by
  refine ⟨fun other same => (classify_congr same).symm, ?_, ?_⟩
  · intro front back mobile
    have told : TellsMobile (agent.toList.map foldCase) := isMobile_iff.mp mobile
    refine isMobile_iff.mpr (told.mono ?_)
    rw [String.toList_append, String.toList_append, List.map_append, List.map_append]
    exact List.infix_append _ _ _
  · intro tablet
    exact Bool.or_eq_true_iff.mpr (.inl tablet)

/-- The agent of a tablet becomes that of a phone by what is added to it. -/
theorem classify_stable_android :
    List.Forall₂ Text.SameLetter "Android 13; X700".toList "aNDROID 13; x700".toList ∧
      classify "aNDROID 13; x700" = classify "Android 13; X700" ∧
      classify "Android 13; X700" = .tablet ∧
      (classify ("Linux; " ++ "Android 13; X700" ++ " Mobile")).isMobile = true ∧
      classify "Linux; Android 13; X700 Mobile" = .phone := by
  have same : List.Forall₂ Text.SameLetter "Android 13; X700".toList "aNDROID 13; x700".toList :=
    Text.eqIgnoringAsciiCase_iff.mp (by decide)
  have tablet : classify "Android 13; X700" = .tablet := by decide
  obtain ⟨cases, around, whole⟩ := classify_stable "Android 13; X700"
  have mobile := whole (by rw [tablet]; rfl)
  exact ⟨same, cases _ same, tablet, around "Linux; " " Mobile" mobile, by decide⟩

end UserAgent

end VisibilityRules
