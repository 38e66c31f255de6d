import VisibilityRules.Proofs.Grammar

set_option autoImplicit false

/-!
Going through a text. The occurrences found stand one behind another, each begins where a tag
opens, and where a tag opens an occurrence begins or one has not ended yet.
-/
namespace VisibilityRules.Shortcode

open Text.Utf8 (size encode)

variable {tag : List Char}

theorem Occurrence.stop_movedTo (o : Occurrence) (start : Nat) :
    (o.movedTo start).stop = start + size o.text.toList := rfl

@[simp] theorem Occurrence.start_span (o : Occurrence) : o.span.start = o.start := rfl

@[simp] theorem Occurrence.stop_span (o : Occurrence) : o.span.stop = o.stop := rfl

theorem Occurrence.size_text_pos (o : Occurrence) : 0 < size o.text.toList := by
  rw [toList_text, Text.Utf8.size_cons]
  exact Nat.lt_add_right _ (Char.utf8Size_pos _)

theorem Occurrence.start_lt_stop (o : Occurrence) : o.start < o.stop :=
  Nat.lt_add_of_pos_right o.size_text_pos

@[simp] theorem occurrences_nil (position : Nat) : occurrences tag position [] = [] := by
  rw [occurrences]

def Skipped (tag : List Char) (c : Char) (rest : List Char) : Prop :=
  c = '[' → readOccurrence tag 0 rest = none

theorem occurrences_skipped {position : Nat} {c : Char} {rest : List Char}
    (skipped : Skipped tag c rest) :
    occurrences tag position (c :: rest) = occurrences tag (position + c.utf8Size) rest := by
  rw [occurrences]
  by_cases bracket : c = '['
  · subst bracket
    rw [if_pos rfl, readOccurrence_movedTo, skipped rfl]
    rfl
  · rw [if_neg bracket]

theorem occurrences_found {position : Nat} {rest after : List Char} {o : Occurrence}
    (found : readOccurrence tag 0 rest = some (o, after)) :
    occurrences tag position ('[' :: rest) =
      o.movedTo position :: occurrences tag (position + size o.text.toList) after := by
  rw [occurrences, if_pos rfl, readOccurrence_movedTo, found]
  rfl

theorem occurrences_append {position : Nat} {front text : List Char} (plain : '[' ∉ front) :
    occurrences tag position (front ++ text) = occurrences tag (position + size front) text := by
  induction front generalizing position with
  | nil => rfl
  | cons c front ih =>
    rw [List.mem_cons, not_or] at plain
    rw [List.cons_append, occurrences_skipped fun bracket => absurd bracket.symm plain.1,
      ih plain.2, Text.Utf8.size_cons, Nat.add_assoc]

/-- Induction along the search: a character is passed over, or a tag is read and left behind. -/
@[elab_as_elim]
theorem scan_induction (tag : List Char) {motive : List Char → Prop} (text : List Char)
    (nil : motive [])
    (skipped : ∀ c rest, Skipped tag c rest → motive rest → motive (c :: rest))
    (found : ∀ rest o after, readOccurrence tag 0 rest = some (o, after) → motive after →
      motive ('[' :: rest)) : motive text := by
  refine occurrences.induct tag (fun _ text => motive text) (fun _ => nil) ?_ ?_ ?_ 0 text
  · intro position rest o after read ih
    rw [readOccurrence_movedTo] at read
    simp only [Option.map_eq_some_iff, Prod.mk.injEq, Prod.exists] at read
    obtain ⟨o, after, read, rfl, rfl⟩ := read
    exact found rest o after read ih
  · intro position rest read ih
    rw [readOccurrence_movedTo, Option.map_eq_none_iff] at read
    exact skipped '[' rest (fun _ => read) ih
  · intro position c rest other ih
    exact skipped c rest (fun bracket => absurd bracket other) ih

theorem mem_occurrences {text : List Char} {position : Nat} {o : Occurrence}
    (mem : o ∈ occurrences tag position text) :
    ∃ before rest after o', text = before ++ '[' :: rest ∧
      readOccurrence tag 0 rest = some (o', after) ∧ o = o'.movedTo (position + size before) := by
  induction text using scan_induction tag generalizing position with
  | nil => simp at mem
  | skipped c rest skipped ih =>
    rw [occurrences_skipped skipped] at mem
    obtain ⟨before, rest, after, o', rfl, read, rfl⟩ := ih mem
    exact ⟨c :: before, rest, after, o', rfl, read, by simp [Nat.add_assoc]⟩
  | found rest o' after read ih =>
    rw [occurrences_found read, List.mem_cons] at mem
    rcases mem with rfl | mem
    · exact ⟨[], rest, after, o', rfl, read, by simp⟩
    · obtain ⟨before, rest, later, o', rfl, read', rfl⟩ := ih mem
      rw [readOccurrence_text read]
      exact ⟨_, rest, later, o', (List.append_assoc ..).symm, read', by simp [Nat.add_assoc]⟩

def Occurrence.StandsIn (o : Occurrence) (text : List Char) : Prop :=
  ∃ before after, text = before ++ (o.text.toList ++ after) ∧ size before = o.start

theorem occurrences_standIn {text : List Char} {o : Occurrence}
    (mem : o ∈ occurrences tag 0 text) : o.StandsIn text := by
  obtain ⟨before, rest, after, o', rfl, read, rfl⟩ := mem_occurrences mem
  exact ⟨before, after, by rw [Occurrence.text_movedTo, ← readOccurrence_text read],
    (Nat.zero_add _).symm⟩

theorem le_start_of_mem_occurrences {text : List Char} {position : Nat} {o : Occurrence}
    (mem : o ∈ occurrences tag position text) : position ≤ o.start := by
  obtain ⟨before, _, _, o', _, _, rfl⟩ := mem_occurrences mem
  exact Nat.le_add_right ..

theorem occurrences_pairwise (position : Nat) (text : List Char) :
    (occurrences tag position text).Pairwise fun a b => a.stop ≤ b.start := by
  induction text using scan_induction tag generalizing position with
  | nil => simp
  | skipped c rest skipped ih => rw [occurrences_skipped skipped]; exact ih _
  | found rest o after read ih =>
    rw [occurrences_found read, List.pairwise_cons]
    exact ⟨fun later mem => le_start_of_mem_occurrences mem, ih _⟩

/-- No opening is passed over. -/
theorem exists_occurrence_of_opens (position : Nat) {text before rest : List Char}
    (here : text = before ++ '[' :: rest) (opens : Opens tag rest) :
    ∃ o ∈ occurrences tag position text,
      o.start ≤ position + size before ∧ position + size before < o.stop := by
  induction text using scan_induction tag generalizing position before with
  | nil => simp at here
  | skipped c more skipped ih =>
    rw [occurrences_skipped skipped]
    cases before with
    | nil =>
      obtain ⟨rfl, rfl⟩ := List.cons.inj here
      have read : (readOccurrence tag 0 more).isSome := readOccurrence_isSome_iff.mpr opens
      simp [skipped rfl] at read
    | cons b before =>
      obtain ⟨rfl, rfl⟩ := List.cons.inj here
      simpa [Nat.add_assoc] using ih (position + c.utf8Size) rfl
  | found more o after read ih =>
    rw [occurrences_found read]
    rw [readOccurrence_text read] at here
    have later (passed : List Char) (behind : after = passed ++ '[' :: rest)
        (front : before = o.text.toList ++ passed) :
        ∃ o' ∈ occurrences tag (position + size o.text.toList) after,
          o'.start ≤ position + size before ∧ position + size before < o'.stop := by
      subst front
      simpa [Nat.add_assoc] using ih (position + size o.text.toList) behind
    -- The bracket stands behind the tag that is read, or in it.
    rcases List.append_eq_append_iff.mp here with ⟨passed, front, behind⟩ | ⟨left, own, left_after⟩
    · obtain ⟨o', mem, bounds⟩ := later passed behind front
      exact ⟨o', by simp [mem], bounds⟩
    · cases left with
      | nil =>
        obtain ⟨o', mem, bounds⟩ := later [] (by simpa using left_after.symm)
          (by simpa using own.symm)
        exact ⟨o', by simp [mem], bounds⟩
      | cons c left =>
        refine ⟨o.movedTo position, by simp, Nat.le_add_right .., ?_⟩
        rw [Occurrence.stop_movedTo, own, Text.Utf8.size_append, Text.Utf8.size_cons]
        have := c.utf8Size_pos
        omega

theorem IsName.findAll_eq {element : String} (name : IsName element.toList) (text : String) :
    findAll element text = occurrences element.toList 0 text.toList := by
  have nonempty : element ≠ "" := fun empty => name.1 (by rw [empty]; rfl)
  rw [findAll, if_neg nonempty]

theorem mem_findAll {element text : String} {o : Occurrence} (mem : o ∈ findAll element text) :
    o ∈ occurrences element.toList 0 text.toList := by
  unfold findAll at mem
  split at mem
  next => simp at mem
  next => exact mem

theorem findAll_pairwise (element text : String) :
    (findAll element text).Pairwise fun a b => a.stop ≤ b.start := by
  unfold findAll
  split
  next => exact .nil
  next => exact occurrences_pairwise 0 _

theorem findAll_apart {element text : String} {o o' : Occurrence}
    (mem : o ∈ findAll element text) (mem' : o' ∈ findAll element text) (other : o ≠ o') :
    o.stop ≤ o'.start ∨ o'.stop ≤ o.start := by
  have apart := findAll_pairwise element text
  exact List.Pairwise.forall_of_forall_of_flip
    (R := fun a b => a ≠ b → a.stop ≤ b.start ∨ b.stop ≤ a.start)
    (fun _ _ differs => absurd rfl differs) (apart.imp fun ordered _ => .inl ordered)
    (apart.imp fun ordered _ => .inr ordered) mem mem' other

end VisibilityRules.Shortcode
