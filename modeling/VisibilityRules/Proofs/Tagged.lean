import VisibilityRules.Proofs.Deletion

set_option autoImplicit false

/-!
Texts in which every opening bracket belongs to a tag that is read. Dropping tags from such a text
joins nothing to a new tag; the most that a tag that is kept can gain is a bracket behind it.
-/
namespace VisibilityRules.Shortcode

open Text.Utf8 (size encode)

variable {tag : List Char}

inductive Tagged (tag : List Char) : List Char → Prop
  | nil : Tagged tag []
  | plain {c : Char} {rest : List Char} : c ≠ '[' → Tagged tag rest → Tagged tag (c :: rest)
  | read {rest after : List Char} {o : Occurrence} :
      readOccurrence tag 0 rest = some (o, after) → Tagged tag after → Tagged tag ('[' :: rest)

theorem tagged_of_covered {position : Nat} {text : List Char}
    (covered : ∀ before rest, text = before ++ '[' :: rest →
      ∃ o ∈ occurrences tag position text,
        o.start ≤ position + size before ∧ position + size before < o.stop) :
    Tagged tag text := by
  induction text using scan_induction tag generalizing position with
  | nil => exact .nil
  | skipped c rest skipped ih =>
    rw [occurrences_skipped skipped] at covered
    have plain : c ≠ '[' := by
      rintro rfl
      obtain ⟨o, mem, start, _⟩ := covered [] rest rfl
      have := le_start_of_mem_occurrences mem
      rw [utf8Size_bracket] at this
      exact absurd start (by simpa using this)
    refine .plain plain (@ih (position + c.utf8Size) fun before more whole => ?_)
    obtain ⟨o, mem, inside⟩ := covered (c :: before) more (by rw [whole]; rfl)
    rw [Text.Utf8.size_cons, ← Nat.add_assoc] at inside
    exact ⟨o, mem, inside⟩
  | found rest o after read ih =>
    rw [occurrences_found read, readOccurrence_text read] at covered
    refine .read read (@ih (position + size o.text.toList) fun before more whole => ?_)
    obtain ⟨o', mem, inside⟩ := covered (o.text.toList ++ before) more (by rw [whole]; simp)
    rw [Text.Utf8.size_append, ← Nat.add_assoc] at inside
    rcases List.mem_cons.mp mem with rfl | mem
    · have := inside.2
      rw [Occurrence.stop_movedTo] at this
      omega
    · exact ⟨o', mem, inside⟩

theorem IsName.bracket_ends_closing {front back : List Char} (name : IsName tag)
    (split : closing tag = front ++ ']' :: back) : back = [] := by
  rcases List.eq_nil_or_concat back with empty | ⟨inner, last, rfl⟩
  · exact empty
  · have whole : ('[' :: '/' :: tag) ++ [']'] = (front ++ ']' :: inner) ++ [last] := by
      simpa [closing] using split
    have mem : ']' ∈ '[' :: '/' :: tag := by
      rw [List.append_inj_left' whole rfl]
      simp
    exact absurd (by simpa using mem) (name.free (c := ']') (by decide))

theorem Tail.text_ends (tag : List Char) (tail : Tail) :
    ∃ inner, tail.text tag = inner ++ [']'] := by
  obtain ⟨attributes, form, trailing⟩ := tail
  cases trailing with
  | true => exact ⟨attributes ++ form.text tag, by simp [Tail.text, extra]⟩
  | false =>
    cases form with
    | selfClosing => exact ⟨attributes ++ ['/'], by simp [Tail.text, Form.text, extra]⟩
    | lone => exact ⟨attributes, by simp [Tail.text, Form.text, extra]⟩
    | enclosing body =>
      exact ⟨attributes ++ ']' :: (body.toList ++ '[' :: '/' :: tag),
        by simp [Tail.text, Form.text, extra, closing]⟩

theorem Occurrence.getLast?_text (o : Occurrence) : o.text.toList.getLast? = some ']' := by
  obtain ⟨inner, ends⟩ := o.tail.text_ends o.tag.toList
  rw [toList_text, ends, List.getLast?_eq_some_iff]
  exact ⟨'[' :: (extra '[' o.leading ++ (o.tag.toList ++ inner)), by simp⟩

variable {picked : Occurrence → Bool}

/-- No closing tag comes up when tags are dropped: it would begin in a tag that is kept and go on
behind its end, which is a bracket that closing tags have only at their own end. -/
theorem closing_infix_of_without {text : List Char} (name : IsName tag) (tagged : Tagged tag text)
    (closed : closing tag <:+: without picked tag text) : closing tag <:+: text := by
  induction tagged with
  | nil => simpa using closed
  | @plain c rest plain tagged ih =>
    rw [without_skipped fun bracket => absurd bracket plain, List.infix_cons_iff] at closed
    rcases closed with ⟨more, first⟩ | later
    · exact absurd (List.cons.inj first).1.symm plain
    · exact List.infix_cons (ih later)
  | @read rest after o found tagged ih =>
    rw [readOccurrence_text found]
    cases pick : picked o with
    | true =>
      rw [without_picked found pick] at closed
      exact List.infix_append_of_infix_right (ih closed)
    | false =>
      rw [without_kept found pick, List.infix_append_iff_ne_nil] at closed
      rcases closed with own | later | ⟨front, back, front_ne, back_ne, split, ends, begins⟩
      · exact List.infix_append_of_infix_left own
      · exact List.infix_append_of_infix_right (ih later)
      · obtain ⟨before, whole⟩ := ends
        have last := o.getLast?_text
        rw [← whole, List.getLast?_append_of_ne_nil _ front_ne] at last
        obtain ⟨inner, rfl⟩ := List.getLast?_eq_some_iff.mp last
        rw [List.append_assoc] at split
        exact absurd (name.bracket_ends_closing split) back_ne

/-- Before another text a tag is read as it was, or with a bracket more that stands there now. -/
theorem readOccurrence_before {rest after later : List Char} {o : Occurrence} (name : IsName tag)
    (read : readOccurrence tag 0 rest = some (o, after))
    (closed : closing tag <:+: later → closing tag <:+: after) :
    ∃ inner, o.text.toList ++ later = '[' :: inner ∧
      (readOccurrence tag 0 inner = some (o, later) ∨
        ∃ behind, later = ']' :: behind ∧
          readOccurrence tag 0 inner = some ({ o with trailing := true }, behind)) := by
  obtain ⟨leading, tail, rfl, rfl, well, stops⟩ := readOccurrence_sound read
  refine ⟨extra '[' leading ++ (tag ++ (tail.text tag ++ later)), by simp, ?_⟩
  by_cases gains : tail.trailing = false ∧ later.head? = some ']'
  · obtain ⟨single, head⟩ := gains
    obtain ⟨behind, rfl⟩ := List.head?_eq_some_iff.mp head
    have longer : tail.text tag ++ ']' :: behind =
        Tail.text tag { tail with trailing := true } ++ behind := by
      simp [Tail.text, extra, single]
    have well : Tail.WellFormed tag { tail with trailing := true } :=
      ⟨well.name_ends, well.unclosed, well.no_slash, well.first_closing⟩
    have stops : Tail.StopsAt tag { tail with trailing := true } behind :=
      ⟨fun lone inside => stops.no_closing lone (closed (List.infix_cons inside)), by simp⟩
    refine .inr ⟨behind, rfl, ?_⟩
    rw [longer]
    exact readOccurrence_complete name well stops
  · have stops : tail.StopsAt tag later :=
      ⟨fun lone inside => stops.no_closing lone (closed inside),
        fun single head => gains ⟨single, head⟩⟩
    exact .inl (readOccurrence_complete name well stops)

theorem not_picked_of_tagged {place : Nat} {text : List Char} {o : Occurrence} (name : IsName tag)
    (tagged : Tagged tag text)
    (anywhere : ∀ o start, picked (Occurrence.movedTo start o) = picked o)
    (bracketed : ∀ o : Occurrence, picked o = false → picked { o with trailing := true } = false)
    (mem : o ∈ occurrences tag place (without picked tag text)) : picked o = false := by
  induction tagged generalizing place with
  | nil => simp at mem
  | @plain c rest plain tagged ih =>
    have skipped {rest : List Char} : Skipped tag c rest := fun bracket => absurd bracket plain
    rw [without_skipped skipped, occurrences_skipped skipped] at mem
    exact ih mem
  | @read rest after found read tagged ih =>
    cases pick : picked found with
    | true =>
      rw [without_picked read pick] at mem
      exact ih mem
    | false =>
      obtain ⟨inner, own, again⟩ := readOccurrence_before name read
        (closing_infix_of_without name tagged)
      rw [without_kept read pick, own] at mem
      rcases again with again | ⟨behind, gained, again⟩
      · rw [occurrences_found again] at mem
        rcases List.mem_cons.mp mem with rfl | mem
        · rw [anywhere, pick]
        · exact ih mem
      · rw [occurrences_found again] at mem
        rcases List.mem_cons.mp mem with rfl | mem
        · rw [anywhere, bracketed found pick]
        · have text : Occurrence.text { found with trailing := true } =
              String.ofList (found.text.toList ++ [']']) := by
            rw [gained, readOccurrence_text again] at own
            apply String.toList_inj.mp
            rw [String.toList_ofList]
            exact List.append_cancel_right (by simpa using own.symm)
          have plain : Skipped tag ']' behind := fun bracket => absurd bracket (by decide)
          rw [text, String.toList_ofList, Text.Utf8.size_append, ← Nat.add_assoc] at mem
          refine @ih (place + size found.text.toList) ?_
          rw [gained, occurrences_skipped plain]
          exact mem

end VisibilityRules.Shortcode
