import VisibilityRules.Proofs.Opening

set_option autoImplicit false

/-!
The first tag of a text. Its name stands behind the first bracket that a name follows; no element
has a tag before it, and the element of that name has its first one there.
-/
namespace VisibilityRules.Shortcode

open Text.Utf8 (size encode ofString IsAscii)

/-! ### Brackets in front of names -/

def NameFollows (rest : List Char) : Prop := ∃ c, rest.head? = some c ∧ isNameChar c = true

theorem nameFollows_iff {rest : List Char} :
    (rest.head?.map isNameChar).getD false = true ↔ NameFollows rest := by
  cases rest <;> simp [NameFollows]

theorem not_nameFollows_of_firstName_eq_none {text : List Char} {position : Nat}
    (missing : firstName position text = none) {front later : List Char}
    (whole : text = front ++ '[' :: later) : ¬ NameFollows later := by
  induction text generalizing position front with
  | nil => simp at whole
  | cons c text ih =>
    rw [firstName] at missing
    split at missing
    next => exact nomatch missing
    next other =>
      rw [nameFollows_iff] at other
      cases front with
      | nil =>
        obtain ⟨rfl, rfl⟩ := List.cons.inj whole
        exact fun follows => other ⟨rfl, follows⟩
      | cons d front => exact ih missing (List.cons.inj whole).2

theorem firstName_eq_some {text name : List Char} {position k : Nat}
    (found : firstName position text = some (k, name)) :
    ∃ before rest, text = before ++ '[' :: rest ∧ NameFollows rest ∧
      k = position + size before + 1 ∧ name = rest.takeWhile isNameChar ∧
      ∀ front later, text = front ++ '[' :: later → NameFollows later →
        size before ≤ size front := by
  induction text generalizing position with
  | nil => exact nomatch found
  | cons c text ih =>
    rw [firstName] at found
    split at found
    next here =>
      obtain ⟨rfl, follows⟩ := here
      obtain ⟨rfl, rfl⟩ := Prod.mk.inj (Option.some.inj found)
      exact ⟨[], text, rfl, nameFollows_iff.mp follows, rfl, rfl, fun _ _ _ _ => Nat.zero_le _⟩
    next other =>
      rw [nameFollows_iff] at other
      obtain ⟨before, rest, rfl, follows, rfl, rfl, least⟩ := ih found
      refine ⟨c :: before, rest, rfl, follows, by simp only [Text.Utf8.size_cons]; omega, rfl, ?_⟩
      intro front later whole behind
      cases front with
      | nil =>
        obtain ⟨rfl, rfl⟩ := List.cons.inj whole
        exact absurd ⟨rfl, behind⟩ other
      | cons d front =>
        obtain ⟨rfl, tails⟩ := List.cons.inj whole
        exact Nat.add_le_add_left (least front later tails behind) _

/-! ### Openings -/

section

variable {element text : String} (name : IsName element.toList)

include name

/-- The bracket right in front of the name of a tag. -/
theorem exists_nameFollows_of_opensAt {i : Nat}
    (opens : OpensAt (ofString element) (ofString text) i) :
    ∃ front later, text.toList = front ++ '[' :: later ∧ NameFollows later ∧
      nameStart (ofString text) i = size front + 1 := by
  obtain ⟨before, rest, whole, rfl, leading, more, rfl, _⟩ := (opensAt_iff name).mp opens
  have start : nameStart (encode (before ++ '[' :: (extra '[' leading ++ (element.toList ++ more))))
      (size before) = size (before ++ '[' :: extra '[' leading) :=
    nameStart_encode before fun _ => name.head_append_ne more
  have follows : NameFollows (element.toList ++ more) := by
    obtain ⟨c, tag, front⟩ := List.exists_cons_of_ne_nil name.1
    exact ⟨c, by simp [front], name.2 c (by simp [front])⟩
  rw [ofString, whole, start]
  cases leading with
  | false => exact ⟨before, _, rfl, follows, by simp [extra]⟩
  | true => exact ⟨before ++ ['['], _, by simp [extra], follows, by simp [extra]⟩

theorem nameStart_of_mem_findAll {o : Occurrence} (mem : o ∈ findAll element text) :
    nameStart (ofString text) o.start = o.start + 1 + if o.leading then 1 else 0 := by
  have parsed := isParsed_of_mem name mem
  obtain ⟨before, after, whole, start, _⟩ := parsed.stands
  have inner : text.toList = before.toList ++ '[' :: (extra '[' o.leading ++
      (element.toList ++ (o.tail.text element.toList ++ after.toList))) := by
    rw [whole, String.toList_append, String.toList_append, o.toList_text, parsed.named]
    simp
  rw [ofString, inner, ← start, nameStart_encode before.toList fun _ => name.head_append_ne _]
  cases o.leading <;> simp [extra]

/-- Where the first tag opens the first occurrence starts. -/
theorem head_findAll_of_first_opening {i : Nat}
    (opens : OpensAt (ofString element) (ofString text) i)
    (first : ∀ j, OpensAt (ofString element) (ofString text) j → i ≤ j) :
    ∃ o, (findAll element text).head? = some o ∧ o.start = i := by
  obtain ⟨before, rest, whole, rfl, here⟩ := (opensAt_iff name).mp opens
  obtain ⟨o, mem, starts, stops⟩ := exists_occurrence_of_opens 0 whole here
  rw [Nat.zero_add] at starts stops
  rw [← name.findAll_eq] at mem
  have behind (o : Occurrence) (mem : o ∈ findAll element text) : size before ≤ o.start :=
    first _ (isParsed_of_mem name mem).opens
  have ordered := findAll_pairwise element text
  cases found : findAll element text with
  | nil =>
    rw [found] at mem
    exact absurd mem List.not_mem_nil
  | cons head later =>
    rw [found] at mem ordered behind
    refine ⟨head, rfl, ?_⟩
    rcases List.mem_cons.mp mem with rfl | mem
    · exact Nat.le_antisymm starts (behind o (List.mem_cons_self ..))
    · -- An occurrence in front of this one would have to end before the first opening.
      have apart := (List.pairwise_cons.mp ordered).1 o mem
      have reached := behind head (List.mem_cons_self ..)
      have := head.start_lt_stop
      omega

end

/-! ### The first tag -/

theorem nameStart_le {bytes : List UInt8} {i : Nat} : nameStart bytes i ≤ i + 2 := by
  unfold nameStart
  split
  next => exact Nat.le_refl _
  next => exact Nat.le_succ _

/-- A bracket and a whole name behind it, at byte `k`. -/
structure NameStandsAt (name bytes : List UInt8) (k : Nat) : Prop where
  bracket : 0 < k ∧ bytes[k - 1]? = some '['.toUInt8
  single : bytes[k]? ≠ some '['.toUInt8
  named : name <+: bytes.drop k
  name_ends : ∀ b, bytes[k + name.length]? = some b → isNameByte b = false

namespace NameStandsAt

variable {name bytes : List UInt8} {k : Nat} (stands : NameStandsAt name bytes k)

include stands

/-- The tag may open with the bracket in front of the name or with one more before it. -/
theorem nameStart_eq {i : Nat} (near : i + 1 = k ∨ i + 2 = k) : nameStart bytes i = k := by
  rcases near with rfl | rfl
  · exact if_neg stands.single
  · exact if_pos stands.bracket.2

theorem opensAt {i : Nat} (near : i + 1 = k ∨ i + 2 = k) (bracket : bytes[i]? = some '['.toUInt8)
    (closed : ∃ j, k + name.length ≤ j ∧ bytes[j]? = some ']'.toUInt8) : OpensAt name bytes i := by
  have start := stands.nameStart_eq near
  exact ⟨bracket, start ▸ stands.named, start ▸ stands.name_ends, start ▸ closed⟩

end NameStandsAt

section

variable {text name : String} {k : Nat} (found : firstTag text = some (k, name))

include found

theorem firstTag_eq_some :
    ∃ before rest, text.toList = before ++ '[' :: rest ∧ NameFollows rest ∧
      k = size before + 1 ∧ name.toList = rest.takeWhile isNameChar ∧
      ∀ front later, text.toList = front ++ '[' :: later → NameFollows later →
        size before ≤ size front := by
  rw [firstTag, Option.map_eq_some_iff] at found
  obtain ⟨⟨start, chars⟩, found, same⟩ := found
  obtain ⟨rfl, rfl⟩ := Prod.mk.inj same
  simpa using firstName_eq_some found

theorem isName_of_firstTag : IsName name.toList := by
  obtain ⟨_, rest, _, ⟨c, head, char⟩, _, chars, _⟩ := firstTag_eq_some found
  obtain ⟨rest, rfl⟩ := List.head?_eq_some_iff.mp head
  rw [chars]
  refine ⟨?_, fun d mem => List.mem_takeWhile_imp mem⟩
  rw [List.takeWhile_cons_of_pos char]
  exact List.cons_ne_nil _ _

theorem nameStandsAt_of_firstTag : NameStandsAt (ofString name) (ofString text) k := by
  obtain ⟨before, rest, whole, ⟨c, head, char⟩, rfl, chars, _⟩ := firstTag_eq_some found
  have ascii : IsAscii '[' := by decide
  have behind : ofString text = encode ((before ++ ['[']) ++ rest) := by simp [ofString, whole]
  have split : rest = name.toList ++ rest.dropWhile isNameChar := by
    rw [chars, List.takeWhile_append_dropWhile]
  have start : size before + 1 = size (before ++ ['[']) := by simp
  have shift (n : Nat) : (ofString text)[size before + 1 + n]? = (encode rest)[n]? := by
    rw [behind, start, Text.Utf8.getElem?_encode_append]
  constructor
  case bracket =>
    refine ⟨Nat.succ_pos _, ?_⟩
    rw [ofString, whole]
    exact (Text.Utf8.getElem?_encode_append before ('[' :: rest) 0).trans
      ((Text.Utf8.getElem?_encode_zero_iff ascii).mpr rfl)
  case single =>
    intro bracket
    rw [← Nat.add_zero (size before + 1), shift, Text.Utf8.getElem?_encode_zero_iff ascii,
      head] at bracket
    obtain rfl := Option.some.inj bracket
    exact absurd char (by decide)
  case named =>
    rw [behind, start, Text.Utf8.drop_encode_append, split, Text.Utf8.encode_append]
    exact List.prefix_append _ _
  case name_ends =>
    have ends : ∀ c, (rest.dropWhile isNameChar).head? = some c → isNameChar c = false := by
      intro c next
      have := List.head?_dropWhile_not isNameChar rest
      rw [next] at this
      simpa using this
    have after := Text.Utf8.getElem?_encode_append name.toList (rest.dropWhile isNameChar) 0
    rw [← split, Nat.add_zero] at after
    rw [shift, ofString, Text.Utf8.length_encode, after]
    exact name_ends_iff.mpr ends

theorem le_nameStart_of_firstTag {element : String} (valid : IsName element.toList) {i : Nat}
    (opens : OpensAt (ofString element) (ofString text) i) : k ≤ nameStart (ofString text) i := by
  obtain ⟨before, rest, _, _, rfl, _, least⟩ := firstTag_eq_some found
  obtain ⟨front, later, split, follows, start⟩ := exists_nameFollows_of_opensAt valid opens
  have := least front later split follows
  omega

/-- Where the first opening is one bracket or two in front of the name, the first occurrence starts,
with an escaping bracket in the second case. -/
theorem head_findAll_of_near {i : Nat} (near : i + 1 = k ∨ i + 2 = k)
    (bracket : (ofString text)[i]? = some '['.toUInt8)
    (closed : ∃ j, k + (ofString name).length ≤ j ∧ (ofString text)[j]? = some ']'.toUInt8)
    (first : ∀ j, OpensAt (ofString name) (ofString text) j → i ≤ j) :
    ∃ o, (findAll name text).head? = some o ∧ o.start = i ∧ (o.leading = true ↔ i + 2 = k) := by
  have valid := isName_of_firstTag found
  have stands := nameStandsAt_of_firstTag found
  obtain ⟨o, head, rfl⟩ :=
    head_findAll_of_first_opening valid (stands.opensAt near bracket closed) first
  have named := nameStart_of_mem_findAll valid (List.mem_of_head? head)
  rw [stands.nameStart_eq near] at named
  refine ⟨o, head, rfl, ?_⟩
  by_cases leading : o.leading = true
  next =>
    rw [if_pos leading] at named
    exact iff_of_true leading named.symm
  next =>
    rw [if_neg leading] at named
    exact iff_of_false leading (by omega)

/-- If a closing bracket stands behind the name, its first tag opens with the doubled bracket in
front, or else with the single one. -/
theorem head_findAll_of_firstTag
    (closed : ∃ j, k + (ofString name).length ≤ j ∧ (ofString text)[j]? = some ']'.toUInt8) :
    ∃ o, (findAll name text).head? = some o ∧
      if 2 ≤ k ∧ (ofString text)[k - 2]? = some '['.toUInt8 then
        o.start = k - 2 ∧ o.leading = true
      else o.start = k - 1 ∧ o.leading = false := by
  have behind {j : Nat} (opens : OpensAt (ofString name) (ofString text) j) : k ≤ j + 2 :=
    Nat.le_trans (le_nameStart_of_firstTag found (isName_of_firstTag found) opens) nameStart_le
  obtain ⟨positive, bracket⟩ := (nameStandsAt_of_firstTag found).bracket
  split
  next doubled =>
    have near : (k - 2) + 2 = k := Nat.sub_add_cancel doubled.1
    obtain ⟨o, head, start, leading⟩ := head_findAll_of_near found (.inr near) doubled.2 closed
      fun j opens => Nat.sub_le_of_le_add (behind opens)
    exact ⟨o, head, start, leading.mpr near⟩
  next single =>
    have near : (k - 1) + 1 = k := Nat.sub_add_cancel positive
    obtain ⟨o, head, start, leading⟩ := head_findAll_of_near found (.inl near) bracket closed
      fun j opens => by
        by_contra early
        obtain rfl : k = j + 2 := by have := behind opens; omega
        exact single ⟨Nat.le_add_left .., opens.bracket⟩
    exact ⟨o, head, start, Bool.eq_false_iff.mpr fun leads => by have := leading.mp leads; omega⟩

end

/-- A name at byte `k` is that of the first tag: it is the name of an element and has a bracket in
front. The element has tags if a closing bracket stands behind, and then its first one is here; no
element has an earlier one. -/
structure IsFirstTag (text : String) (k : Nat) (name : String) : Prop where
  valid : ElementName.problem? name = none
  bracket : 0 < k ∧ (ofString text)[k - 1]? = some '['.toUInt8
  stands : ofString name <+: (ofString text).drop k
  found_iff : findAll name text ≠ [] ↔
    ∃ j, k + (ofString name).length ≤ j ∧ (ofString text)[j]? = some ']'.toUInt8
  first : ∀ o ∈ (findAll name text).head?,
    if 2 ≤ k ∧ (ofString text)[k - 2]? = some '['.toUInt8 then
      o.start = k - 2 ∧ o.leading = true
    else o.start = k - 1 ∧ o.leading = false
  none_before : ∀ element, ElementName.problem? element = none →
    ∀ o ∈ findAll element text, k ≤ o.start + 2

theorem isFirstTag_of_firstTag {text name : String} {k : Nat}
    (found : firstTag text = some (k, name)) : IsFirstTag text k name := by
  have valid := isName_of_firstTag found
  have stands := nameStandsAt_of_firstTag found
  have closed (nonempty : findAll name text ≠ []) :
      ∃ j, k + (ofString name).length ≤ j ∧ (ofString text)[j]? = some ']'.toUInt8 := by
    obtain ⟨o, later, occurs⟩ := List.exists_cons_of_ne_nil nonempty
    have opens := (isParsed_of_mem valid (occurs ▸ List.mem_cons_self : o ∈ findAll name text)).opens
    have behind := le_nameStart_of_firstTag found valid opens
    obtain ⟨j, after, bracket⟩ := opens.closed
    exact ⟨j, Nat.le_trans (Nat.add_le_add_right behind _) after, bracket⟩
  constructor
  case valid => exact isName_iff.mp valid
  case bracket => exact stands.bracket
  case stands => exact stands.named
  case found_iff =>
    refine ⟨closed, fun closed empty => ?_⟩
    obtain ⟨o, head, _⟩ := head_findAll_of_firstTag found closed
    rw [empty] at head
    exact nomatch head
  case first =>
    intro o head
    have nonempty : findAll name text ≠ [] := fun empty => by simp [empty] at head
    obtain ⟨o', head', placed⟩ := head_findAll_of_firstTag found (closed nonempty)
    obtain rfl := Option.some.inj (head'.symm.trans head)
    exact placed
  case none_before =>
    intro element valid' o mem
    have valid' := isName_iff.mpr valid'
    have opens := (isParsed_of_mem valid' mem).opens
    exact Nat.le_trans (le_nameStart_of_firstTag found valid' opens) nameStart_le

theorem findAll_eq_nil_of_firstTag {text element : String} (missing : firstTag text = none)
    (valid : ElementName.problem? element = none) : findAll element text = [] := by
  have valid := isName_iff.mpr valid
  rw [firstTag, Option.map_eq_none_iff] at missing
  rw [List.eq_nil_iff_forall_not_mem]
  intro o mem
  obtain ⟨front, later, whole, follows, _⟩ :=
    exists_nameFollows_of_opensAt valid (isParsed_of_mem valid mem).opens
  exact not_nameFollows_of_firstName_eq_none missing whole follows

/-- The first tag is where the search for tags begins to find them, and a text without a first tag
has no tags of any element. -/
theorem firstTag_agrees (text : String) :
    match firstTag text with
    | some (k, name) => IsFirstTag text k name
    | none => ∀ element, ElementName.problem? element = none → findAll element text = [] := by
  cases found : firstTag text with
  | some first => exact isFirstTag_of_firstTag found
  | none => exact fun element valid => findAll_eq_nil_of_firstTag found valid

/-- Behind a closing tag and a lone bracket stands a tag with three brackets in front. -/
theorem firstTag_agrees_bracket_run :
    let text := "é[/b] [ [[[tag]"
    firstTag text = some (12, "tag") ∧ IsFirstTag text 12 "tag" ∧
      (findAll "tag" text).head?.map (fun o => (o.start, o.leading)) = some (10, true) ∧
      firstTag "[/b] [[" = none ∧
      ∀ element, ElementName.problem? element = none → findAll element "[/b] [[" = [] := by
  intro text
  have found : firstTag text = some (12, "tag") := by decide
  have missing : firstTag "[/b] [[" = none := by decide
  have first : IsFirstTag text 12 "tag" := by simpa only [found] using firstTag_agrees text
  have nonempty : findAll "tag" text ≠ [] := first.found_iff.mpr ⟨15, by decide⟩
  obtain ⟨o, later, occurs⟩ := List.exists_cons_of_ne_nil nonempty
  have placed := first.first o (by simp [occurs])
  rw [if_pos (by decide)] at placed
  refine ⟨found, first, by simp [occurs, placed], missing, ?_⟩
  simpa only [missing] using firstTag_agrees "[/b] [["

end VisibilityRules.Shortcode
