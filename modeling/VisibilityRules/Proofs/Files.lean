import VisibilityRules.Files.Tree
import VisibilityRules.Proofs.Characters
import VisibilityRules.Proofs.Paths

set_option autoImplicit false

/-!
What is in a tree after it has been changed. A file that is written reads back, the other files stay
as they were, and making directories touches no file.
-/
namespace VisibilityRules

theorem ok_bind {ε α β : Type} (a : α) (f : α → Except ε β) : (Except.ok a >>= f) = f a := rfl

theorem bind_eq_ok_iff {ε α β : Type} {x : Except ε α} {f : α → Except ε β} {b : β} :
    (x >>= f) = .ok b ↔ ∃ a, x = .ok a ∧ f a = .ok b := by
  cases x with
  | error e => exact ⟨nofun, nofun⟩
  | ok a => exact ⟨fun done => ⟨a, rfl, done⟩, fun ⟨_, same, done⟩ => Except.ok.inj same ▸ done⟩

namespace Tree

variable {t t' : Tree} {start here there l : Location} {name path : String} {names : List String}

/-- Where a name leads from a place, whatever is there. -/
def descend (here : Location) (name : String) : Location :=
  if name = "." then here else if name = ".." then here.dropLast else here ++ [name]

def location (t : Tree) (path : String) : Location := (Path.steps path).foldl descend (t.origin path)

theorem location_congr {path path' : String} (steps : Path.steps path = Path.steps path')
    (absolute : Path.isAbsolute path = Path.isAbsolute path') :
    t.location path = t.location path' := by
  rw [location, origin, steps, absolute]
  rfl

def fileAt (t : Tree) (l : Location) : Option (List UInt8) :=
  match t.node? l with
  | some (.file bytes) => some bytes
  | _ => none

theorem fileAt_of_node {bytes : List UInt8} (node : t.node? l = some (.file bytes)) :
    t.fileAt l = some bytes := by
  rw [fileAt, node]

theorem node_put (outside : l ≠ []) (other : Location) (n : Node) :
    (t.put l n).node? other = if other = l then some n else t.node? other := by
  by_cases same : other = l
  next =>
    subst same
    rw [if_pos rfl, node?, if_neg outside]
    exact Std.ExtTreeMap.getElem?_insert_self
  next =>
    have apart : ¬ compare l other = .eq := by
      rw [Std.LawfulEqCmp.compare_eq_iff_eq]
      exact Ne.symm same
    rw [if_neg same, node?, node?, put, Std.ExtTreeMap.getElem?_insert, if_neg apart]

/-! ### Following a path -/

/-- A name that an entry of a directory can have. -/
structure IsPlain (name : String) : Prop where
  not_here : name ≠ "."
  not_above : name ≠ ".."
  short : Text.Utf8.size name.toList ≤ longestName

theorem enter_plain (plain : IsPlain name) :
    t.enter here name =
      match t.node? (here ++ [name]) with
      | some n => .ok (here ++ [name], n)
      | none => .error .notFound := by
  rw [enter, if_neg plain.not_here, if_neg plain.not_above]
  exact if_neg (Nat.not_lt.mpr plain.short)

theorem descend_plain (plain : IsPlain name) : descend here name = here ++ [name] := by
  rw [descend, if_neg plain.not_here, if_neg plain.not_above]

/-- A name that no entry can have leads to the same place in every tree, or nowhere. -/
theorem enter_not_plain (special : ¬ IsPlain name) (here : Location) :
    (∀ t : Tree, t.enter here name = .ok (descend here name, .directory)) ∨
      ∀ t : Tree, t.enter here name = .error .nameTooLong := by
  unfold enter descend
  split
  next => exact .inl fun _ => rfl
  next not_here =>
    split
    next => exact .inl fun _ => rfl
    next not_above =>
      split
      next => exact .inr fun _ => rfl
      next short => exact absurd ⟨not_here, not_above, Nat.le_of_not_lt short⟩ special

theorem descend_of_enter {n : Node} (entered : t.enter here name = .ok (there, n)) :
    there = descend here name := by
  by_cases plain : IsPlain name
  next =>
    rw [enter_plain plain] at entered
    rw [descend_plain plain]
    split at entered
    next => exact (Prod.mk.inj (Except.ok.inj entered)).1.symm
    next => exact nomatch entered
  next =>
    rcases enter_not_plain plain here with fixed | long
    · rw [fixed] at entered
      exact (Prod.mk.inj (Except.ok.inj entered)).1.symm
    · rw [long] at entered
      exact nomatch entered

theorem location_of_walk (walked : t.walk here names = .ok l) : l = names.foldl descend here := by
  induction names generalizing here with
  | nil => exact (Except.ok.inj walked).symm
  | cons name names ih =>
    rw [walk] at walked
    split at walked
    next => exact nomatch walked
    next there entered =>
      rw [List.foldl_cons, ← descend_of_enter entered]
      exact ih walked
    next => exact nomatch walked

theorem walk_append (front back : List String) :
    t.walk here (front ++ back) = (t.walk here front).bind fun there => t.walk there back := by
  induction front generalizing here with
  | nil => rfl
  | cons name front ih =>
    rw [List.cons_append, walk, walk]
    split
    next => rfl
    next => exact ih
    next => rfl

/-- Dots lead nowhere. -/
theorem walk_filter (names : List String) :
    t.walk here (names.filter (· ≠ ".")) = t.walk here names := by
  induction names generalizing here with
  | nil => rfl
  | cons name names ih =>
    by_cases dot : name = "."
    next =>
      have stays : t.enter here name = .ok (here, .directory) := by rw [enter, if_pos dot]
      rw [List.filter_cons_of_neg (by simp [dot]), ih, walk, stays]
    next =>
      rw [List.filter_cons_of_pos (by simp [dot]), walk, walk]
      split
      next => rfl
      next => exact ih
      next => rfl

/-- The path ends in a plain name within a directory that it leads to; whether there is anything of
that name in it is left open. -/
structure Leads (t : Tree) (path : String) (here : Location) (last : String) : Prop where
  checked : check path = .ok ()
  bare : endsInSlash path = false
  names : ∃ above, Path.names path = above ++ [last] ∧ t.walk (t.origin path) above = .ok here
  plain : IsPlain last

theorem enter_file_iff {bytes : List UInt8} :
    t.enter here name = .ok (there, .file bytes) ↔
      IsPlain name ∧ there = here ++ [name] ∧ t.node? there = some (.file bytes) := by
  by_cases plain : IsPlain name
  next =>
    rw [enter_plain plain]
    constructor
    · intro entered
      split at entered
      next n node =>
        obtain ⟨rfl, rfl⟩ := Prod.mk.inj (Except.ok.inj entered)
        exact ⟨plain, rfl, node⟩
      next => exact nomatch entered
    · rintro ⟨_, rfl, node⟩
      rw [node]
  next =>
    refine iff_of_false ?_ fun named => plain named.1
    rcases enter_not_plain plain here with fixed | long
    · rw [fixed]
      exact nofun
    · rw [long]
      exact nofun

theorem enter_notFound_iff :
    t.enter here name = .error .notFound ↔ IsPlain name ∧ t.node? (here ++ [name]) = none := by
  by_cases plain : IsPlain name
  next =>
    rw [enter_plain plain]
    split
    next n node => simp [node]
    next missing => simp [plain, missing]
  next =>
    refine iff_of_false ?_ fun named => plain named.1
    rcases enter_not_plain plain here with fixed | long
    · rw [fixed]
      exact nofun
    · rw [long]
      exact nofun

theorem find_file_iff {bytes : List UInt8} :
    t.find path = .ok (.file bytes) ↔
      ∃ here last, t.Leads path here last ∧ t.node? (here ++ [last]) = some (.file bytes) := by
  constructor
  · intro found
    obtain ⟨_, checked, found⟩ := bind_eq_ok_iff.mp found
    obtain ⟨here, walked, found⟩ := bind_eq_ok_iff.mp found
    split at found
    next => exact nomatch found
    next last ends =>
      obtain ⟨⟨there, n⟩, entered, found⟩ := bind_eq_ok_iff.mp found
      obtain ⟨above, whole⟩ := List.getLast?_eq_some_iff.mp ends
      rw [whole, List.dropLast_concat] at walked
      cases n with
      | directory => exact nomatch found
      | file content =>
        simp only at found
        split at found
        next => exact nomatch found
        next bare =>
          obtain rfl := Node.file.inj (Except.ok.inj found)
          obtain ⟨plain, rfl, node⟩ := enter_file_iff.mp entered
          exact ⟨here, last, ⟨checked, by simpa using bare, ⟨above, whole, walked⟩, plain⟩, node⟩
  · rintro ⟨here, last, ⟨checked, bare, ⟨above, whole, walked⟩, plain⟩, node⟩
    have entered : t.enter here last = .ok (here ++ [last], .file bytes) :=
      enter_file_iff.mpr ⟨plain, rfl, node⟩
    simp only [find, checked, whole, List.dropLast_concat, walked, List.getLast?_concat, bare,
      ok_bind, entered]
    rfl

theorem target_eq_ok_iff :
    t.target path = .ok l ↔
      ∃ here last, t.Leads path here last ∧ l = here ++ [last] ∧ t.node? l ≠ some .directory := by
  constructor
  · intro found
    obtain ⟨_, checked, found⟩ := bind_eq_ok_iff.mp found
    obtain ⟨here, walked, found⟩ := bind_eq_ok_iff.mp found
    split at found
    next => exact nomatch found
    next last ends =>
      obtain ⟨above, whole⟩ := List.getLast?_eq_some_iff.mp ends
      rw [whole, List.dropLast_concat] at walked
      split at found
      next => exact nomatch found
      next bare =>
        have leads (plain : IsPlain last) : t.Leads path here last :=
          ⟨checked, by simpa using bare, ⟨above, whole, walked⟩, plain⟩
        split at found
        next there content entered =>
          obtain rfl := Except.ok.inj found
          obtain ⟨plain, rfl, node⟩ := enter_file_iff.mp entered
          exact ⟨here, last, leads plain, rfl, by simp [node]⟩
        next => exact nomatch found
        next entered =>
          obtain rfl := Except.ok.inj found
          obtain ⟨plain, missing⟩ := enter_notFound_iff.mp entered
          exact ⟨here, last, leads plain, rfl, by simp [missing]⟩
        next => exact nomatch found
  · rintro ⟨here, last, ⟨checked, bare, ⟨above, whole, walked⟩, plain⟩, rfl, free⟩
    simp only [target, checked, whole, List.dropLast_concat, walked, List.getLast?_concat, bare,
      ok_bind, Bool.false_eq_true, if_false]
    cases node : t.node? (here ++ [last]) with
    | none =>
      have entered : t.enter here last = .error .notFound := enter_notFound_iff.mpr ⟨plain, node⟩
      rw [entered]
    | some n =>
      cases n with
      | directory => exact absurd node free
      | file bytes =>
        have entered : t.enter here last = .ok (here ++ [last], .file bytes) :=
          enter_file_iff.mpr ⟨plain, rfl, node⟩
        rw [entered]

theorem Leads.location {last : String} (leads : t.Leads path here last) :
    t.location path = here ++ [last] := by
  obtain ⟨above, whole, walked⟩ := leads.names
  have here_eq := location_of_walk (walk_filter above ▸ walked)
  rw [Tree.location, Path.steps, whole, List.filter_append, List.foldl_append, ← here_eq,
    List.filter_cons_of_pos (by simp [leads.plain.not_here])]
  exact descend_plain leads.plain

theorem target_of_find_file {bytes : List UInt8} (found : t.find path = .ok (.file bytes)) :
    t.target path = .ok (t.location path) := by
  obtain ⟨here, last, leads, node⟩ := find_file_iff.mp found
  exact target_eq_ok_iff.mpr ⟨here, last, leads, leads.location, by simp [leads.location, node]⟩

theorem fileAt_of_find_file {bytes : List UInt8} (found : t.find path = .ok (.file bytes)) :
    t.fileAt (t.location path) = some bytes := by
  obtain ⟨here, last, leads, node⟩ := find_file_iff.mp found
  rw [leads.location]
  exact fileAt_of_node node

theorem read_eq_ok_iff {content : String} :
    t.read path = .ok content ↔
      ∃ bytes, t.find path = .ok (.file bytes) ∧ Text.Utf8.toString? bytes = some content := by
  constructor
  · intro read
    obtain ⟨n, found, read⟩ := bind_eq_ok_iff.mp read
    cases n with
    | directory => exact nomatch read
    | file bytes =>
      simp only at read
      split at read
      next decoded =>
        rw [← Except.ok.inj read]
        exact ⟨bytes, found, decoded⟩
      next => exact nomatch read
  · intro ⟨bytes, found, decoded⟩
    simp only [read, found, ok_bind, decoded]

/-! ### Changing a tree -/

structure KeepsDirectories (t t' : Tree) : Prop where
  working : t'.working = t.working
  directories : ∀ l, t.node? l = some .directory → t'.node? l = some .directory

namespace KeepsDirectories

theorem trans {t'' : Tree} (first : t.KeepsDirectories t') (second : t'.KeepsDirectories t'') :
    t.KeepsDirectories t'' :=
  ⟨second.working.trans first.working, fun l directory =>
    second.directories l (first.directories l directory)⟩

theorem origin (keeps : t.KeepsDirectories t') (path : String) : t'.origin path = t.origin path := by
  rw [Tree.origin, Tree.origin, keeps.working]

theorem location (keeps : t.KeepsDirectories t') (path : String) :
    t'.location path = t.location path := by
  rw [Tree.location, Tree.location, keeps.origin]

theorem enter (keeps : t.KeepsDirectories t') (entered : t.enter here name = .ok (there, .directory)) :
    t'.enter here name = .ok (there, .directory) := by
  by_cases plain : IsPlain name
  next =>
    rw [enter_plain plain] at entered ⊢
    split at entered
    next n node =>
      obtain ⟨rfl, rfl⟩ := Prod.mk.inj (Except.ok.inj entered)
      rw [keeps.directories _ node]
    next => exact nomatch entered
  next =>
    rcases enter_not_plain plain here with fixed | long
    · rw [fixed] at entered ⊢
      exact entered
    · rw [long] at entered
      exact nomatch entered

theorem walk (keeps : t.KeepsDirectories t') (walked : t.walk here names = .ok l) :
    t'.walk here names = .ok l := by
  induction names generalizing here with
  | nil => exact walked
  | cons name names ih =>
    rw [Tree.walk] at walked
    split at walked
    next => exact nomatch walked
    next there entered =>
      rw [Tree.walk, keeps.enter entered]
      exact ih walked
    next => exact nomatch walked

theorem leads {last : String} (keeps : t.KeepsDirectories t') (leads : t.Leads path here last) :
    t'.Leads path here last := by
  obtain ⟨above, whole, walked⟩ := leads.names
  exact ⟨leads.checked, leads.bare, ⟨above, whole, keeps.origin path ▸ keeps.walk walked⟩, leads.plain⟩

end KeepsDirectories

theorem keepsDirectories_put {n : Node} (outside : l ≠ []) (free : t.node? l ≠ some .directory) :
    t.KeepsDirectories (t.put l n) := by
  refine ⟨rfl, fun other directory => ?_⟩
  rw [node_put outside, if_neg]
  · exact directory
  · rintro rfl
    exact free directory

theorem fileAt_put_of_ne {n : Node} {other : Location} (outside : l ≠ []) (apart : other ≠ l) :
    (t.put l n).fileAt other = t.fileAt other := by
  rw [fileAt, node_put outside, if_neg apart, fileAt]

theorem writeBytes_eq_ok_iff {bytes : List UInt8} :
    t.writeBytes path bytes = .ok t' ↔
      ∃ l, t.target path = .ok l ∧ t' = t.put l (.file bytes) := by
  unfold writeBytes
  cases t.target path with
  | error e => exact ⟨nofun, nofun⟩
  | ok l =>
    constructor
    · exact fun written => ⟨l, rfl, (Except.ok.inj written).symm⟩
    · intro ⟨_, same, put⟩
      rw [Except.map, Except.ok.inj same, put]

section

variable {bytes : List UInt8} (written : t.writeBytes path bytes = .ok t')
include written

theorem exists_target_of_write :
    ∃ here last, t.Leads path here last ∧ t.node? (here ++ [last]) ≠ some .directory ∧
      t' = t.put (here ++ [last]) (.file bytes) := by
  obtain ⟨l, found, rfl⟩ := writeBytes_eq_ok_iff.mp written
  obtain ⟨here, last, leads, rfl, free⟩ := target_eq_ok_iff.mp found
  exact ⟨here, last, leads, free, rfl⟩

theorem keepsDirectories_of_write : t.KeepsDirectories t' := by
  obtain ⟨here, last, _, free, rfl⟩ := exists_target_of_write written
  exact keepsDirectories_put (by simp) free

theorem find_of_write : t'.find path = .ok (.file bytes) := by
  have keeps := keepsDirectories_of_write written
  obtain ⟨here, last, leads, _, rfl⟩ := exists_target_of_write written
  refine find_file_iff.mpr ⟨here, last, keeps.leads leads, ?_⟩
  rw [node_put (by simp), if_pos rfl]

theorem fileAt_of_write (l : Location) :
    t'.fileAt l = if l = t.location path then some bytes else t.fileAt l := by
  obtain ⟨here, last, leads, _, rfl⟩ := exists_target_of_write written
  rw [leads.location]
  split
  next same =>
    subst same
    exact fileAt_of_node (by rw [node_put (by simp), if_pos rfl])
  next apart => exact fileAt_put_of_ne (by simp) apart

end

/-- Whether a text can be written does not depend on the text. -/
theorem exists_write {content : String} (written : t.write path content = .ok t')
    (other : String) : ∃ t'', t.write path other = .ok t'' := by
  obtain ⟨l, found, _⟩ := writeBytes_eq_ok_iff.mp written
  exact ⟨_, writeBytes_eq_ok_iff.mpr ⟨l, found, rfl⟩⟩

theorem exists_write_of_read {content : String} (read : t.read path = .ok content)
    (other : String) : ∃ t', t.write path other = .ok t' := by
  obtain ⟨bytes, found, _⟩ := read_eq_ok_iff.mp read
  exact ⟨_, writeBytes_eq_ok_iff.mpr ⟨_, target_of_find_file found, rfl⟩⟩

theorem read_of_write {content : String} (written : t.write path content = .ok t') :
    t'.read path = .ok content :=
  read_eq_ok_iff.mpr ⟨_, find_of_write written, Text.Utf8.toString_ofString content⟩

/-! ### Making directories -/

structure OnlyAddsDirectories (t t' : Tree) : Prop extends KeepsDirectories t t' where
  files : ∀ l, t'.fileAt l = t.fileAt l

namespace OnlyAddsDirectories

theorem refl (t : Tree) : t.OnlyAddsDirectories t := ⟨⟨rfl, fun _ => id⟩, fun _ => rfl⟩

theorem trans {t'' : Tree} (first : t.OnlyAddsDirectories t') (second : t'.OnlyAddsDirectories t'') :
    t.OnlyAddsDirectories t'' :=
  ⟨first.toKeepsDirectories.trans second.toKeepsDirectories,
    fun l => (second.files l).trans (first.files l)⟩

end OnlyAddsDirectories

theorem onlyAddsDirectories_put (outside : l ≠ []) (missing : t.node? l = none) :
    t.OnlyAddsDirectories (t.put l .directory) := by
  refine ⟨keepsDirectories_put outside (by simp [missing]), fun other => ?_⟩
  by_cases same : other = l
  next =>
    subst same
    rw [fileAt, node_put outside, if_pos rfl, fileAt, missing]
  next => exact fileAt_put_of_ne outside same

theorem makeDirectory_ok {made : Tree} (done : t.makeDirectory start names = .ok made) :
    t.OnlyAddsDirectories made ∧ (made.walk start names).isOk = true := by
  obtain ⟨here, walked, done⟩ := bind_eq_ok_iff.mp done
  split at done
  next => exact nomatch done
  next last ends =>
    split at done
    next => exact nomatch done
    next entered =>
      obtain ⟨plain, missing⟩ := enter_notFound_iff.mp entered
      obtain rfl := Except.ok.inj done
      have adds := onlyAddsDirectories_put (by simp) missing
      obtain ⟨above, rfl⟩ := List.getLast?_eq_some_iff.mp ends
      rw [List.dropLast_concat] at walked
      have made : (t.put (here ++ [last]) .directory).enter here last =
          .ok (here ++ [last], .directory) := by
        rw [enter_plain plain, node_put (by simp), if_pos rfl]
      refine ⟨adds, ?_⟩
      rw [walk_append, adds.walk walked]
      simp only [Except.bind, walk, made]
      rfl
    next => exact nomatch done

theorem ensureDirectory_ok {made : Tree} (done : t.ensureDirectory start names = .ok made) :
    t.OnlyAddsDirectories made ∧ (made.walk start names).isOk = true := by
  unfold ensureDirectory at done
  split at done
  next made' here =>
    obtain rfl := Except.ok.inj done
    exact makeDirectory_ok here
  next =>
    split at done
    next there =>
      obtain rfl := Except.ok.inj done
      exact ⟨.refl t, there⟩
    next => exact nomatch done

theorem ensureDirectory_error {e : FileError} (failed : t.ensureDirectory start names = .error e) :
    (t.walk start names).isOk = false := by
  unfold ensureDirectory at failed
  split at failed
  next => exact nomatch failed
  next =>
    split at failed
    next => exact nomatch failed
    next missing => simpa using missing

/-- Making a directory and those above it succeeds just if it is there in the end. -/
theorem makeAll_spec (t : Tree) (start : Location) (names : List String) :
    t.OnlyAddsDirectories (t.makeAll start names).2 ∧
      (t.makeAll start names).1.isOk = ((t.makeAll start names).2.walk start names.reverse).isOk := by
  induction names with
  | nil => exact ⟨.refl t, rfl⟩
  | cons name above ih =>
    obtain ⟨adds, reached⟩ := ih
    rw [makeAll]
    split
    next made done => exact ⟨(ensureDirectory_ok done).1, (ensureDirectory_ok done).2.symm⟩
    next =>
      split
      next e made failed =>
        rw [failed] at adds reached
        refine ⟨adds, ?_⟩
        -- Nothing is within a directory that is not there.
        cases walked : made.walk start above.reverse with
        | error e => rw [List.reverse_cons, walk_append, walked]; rfl
        | ok there => rw [walked] at reached; exact nomatch reached
      next made done =>
        rw [done] at adds
        split
        next made' done =>
          obtain ⟨more, reached⟩ := ensureDirectory_ok done
          exact ⟨adds.trans more, reached.symm⟩
        next failed => exact ⟨adds, (ensureDirectory_error failed).symm⟩
    next failed => exact ⟨.refl t, (ensureDirectory_error failed).symm⟩

theorem makeParents_adds (t : Tree) (path : String) :
    t.OnlyAddsDirectories (t.makeParents path).2 := by
  unfold makeParents makeDirectories
  split
  next => exact .refl t
  next =>
    split
    next => exact .refl t
    next => exact (makeAll_spec t _ _).1

/-- A path whose directories cannot be made leads to no file, unless nothing was made. -/
theorem find_of_makeParents_error {e : FileError} {made : Tree} {bytes : List UInt8}
    (failed : t.makeParents path = (.error e, made)) (found : made.find path = .ok (.file bytes)) :
    made = t := by
  obtain ⟨here, last, leads, _⟩ := find_file_iff.mp found
  obtain ⟨above, whole, walked⟩ := leads.names
  have adds := makeParents_adds t path
  rw [failed] at adds
  have steps : Path.steps (Path.parent path) = above.filter (· ≠ ".") := by
    rw [Path.steps_parent, Path.steps, whole, List.filter_append,
      List.filter_cons_of_pos (by simp [leads.plain.not_here]), List.filter_nil,
      List.dropLast_concat]
  unfold makeParents makeDirectories at failed
  split at failed
  next => simp at failed
  next =>
    split at failed
    next => exact (Prod.mk.inj failed).2.symm
    next =>
      have reached := (makeAll_spec t (t.origin (Path.parent path))
        (Path.steps (Path.parent path)).reverse).2
      rw [failed, List.reverse_reverse, steps, walk_filter] at reached
      have same : t.origin (Path.parent path) = made.origin path := by
        rw [adds.origin, origin, origin, Path.isAbsolute_parent]
      rw [same, walked] at reached
      exact absurd reached Bool.false_ne_true

/-! ### Ways to one file -/

section

variable {path' last : String} {bytes old : List UInt8}

theorem check_eq_ok_iff :
    check path = .ok () ↔
      '\x00' ∉ path.toList ∧ Text.Utf8.size path.toList ≤ longestPath ∧ path ≠ "" := by
  unfold check
  split
  next nul => simp_all
  next free =>
    split
    next long => simp; omega
    next short =>
      split
      next empty => simp [empty]
      next => simp_all

namespace Leads

theorem mem_pieces (leads : t.Leads path here last) : last ∈ Path.pieces path ∧ last ≠ "" := by
  obtain ⟨above, whole, _⟩ := leads.names
  have mem : last ∈ Path.names path := by simp [whole]
  simpa [Path.names] using mem

theorem steps (leads : t.Leads path here last) :
    ∃ above, Path.steps path = above ++ [last] ∧ t.walk (t.origin path) above = .ok here := by
  obtain ⟨above, whole, walked⟩ := leads.names
  refine ⟨above.filter (· ≠ "."), ?_, (walk_filter above).trans walked⟩
  simp [Path.steps, whole, leads.plain.not_here]

theorem fileName (leads : t.Leads path here last) : Path.fileName? path = some last := by
  obtain ⟨above, steps, _⟩ := leads.steps
  simp [Path.fileName?, steps, leads.plain.not_above]

theorem check_join (leads : t.Leads path here last) :
    check (Path.join (Path.directory path) last) = .ok () := by
  obtain ⟨free, short, _⟩ := check_eq_ok_iff.mp leads.checked
  obtain ⟨above, steps, _⟩ := leads.steps
  have nonempty : Path.join (Path.directory path) last ≠ "" := by
    intro empty
    have same := (Path.join_fileName leads.fileName).1
    rw [empty, steps, Path.steps_empty] at same
    simp at same
  have own := Path.piece_sublist leads.mem_pieces.1
  refine check_eq_ok_iff.mpr ⟨?_, ?_, nonempty⟩
  all_goals rcases Path.join_directory_text leads.fileName with kept | dotted
  · exact mt (fun mem => kept.mem mem) free
  · rw [dotted]
    simpa using mt (fun mem => own.mem mem) free
  · exact Nat.le_trans (Text.Utf8.size_le_of_sublist kept) short
  · have name := leads.plain.short
    have front : Text.Utf8.size "./".toList = 2 := by decide
    rw [dotted, String.toList_append, Text.Utf8.size_append, front]
    unfold longestPath
    unfold longestName at name
    omega

/-- A path to a file goes by the directory of the file as well. -/
theorem by_directory (leads : t.Leads path here last) :
    t.Leads (Path.join (Path.directory path) last) here last := by
  obtain ⟨above, whole, walked⟩ := leads.steps
  obtain ⟨steps, absolute⟩ := Path.join_fileName leads.fileName
  have plain := Path.pieces_of_free (Path.not_mem_of_mem_pieces leads.mem_pieces.1)
  have relative := Path.isAbsolute_of_mem_steps (whole ▸ List.mem_concat_self)
  obtain ⟨front, joined, _⟩ := Path.join_eq relative (Path.directory_facts path).1
  have pieces : Path.pieces (Path.join (Path.directory path) last) = Path.pieces front ++ [last] := by
    rw [joined, Path.pieces_append_slash, plain]
  have names : Path.names (Path.join (Path.directory path) last) = Path.names front ++ [last] := by
    simp [Path.names, pieces, leads.mem_pieces.2]
  refine ⟨leads.check_join, ?_, ⟨Path.names front, names, ?_⟩, leads.plain⟩
  · have bare := Path.not_ends_of_pieces pieces leads.mem_pieces.2
    simpa [endsInSlash] using bare
  · have same : (Path.names front).filter (· ≠ ".") = above := by
      rw [whole, Path.steps, names, List.filter_append,
        List.filter_cons_of_pos (by simp [leads.plain.not_here])] at steps
      exact List.append_inj_left' steps rfl
    rw [← walk_filter, same, origin, absolute]
    exact walked

end Leads

theorem find_by_directory (found : t.find path = .ok (.file bytes)) :
    ∃ post, Path.fileName? path = some post ∧
      t.find (Path.join (Path.directory path) post) = .ok (.file bytes) := by
  obtain ⟨here, last, leads, node⟩ := find_file_iff.mp found
  exact ⟨last, leads.fileName, find_file_iff.mpr ⟨here, last, leads.by_directory, node⟩⟩

/-- A file that is written by another path to its place reads back by its own. -/
theorem find_of_write_at (found : t.find path = .ok (.file old))
    (same : t.location path' = t.location path) (written : t.writeBytes path' bytes = .ok t') :
    t'.find path = .ok (.file bytes) := by
  obtain ⟨here, last, leads, _⟩ := find_file_iff.mp found
  have keeps := keepsDirectories_of_write written
  obtain ⟨here', last', leads', _, rfl⟩ := exists_target_of_write written
  rw [leads.location, leads'.location] at same
  refine find_file_iff.mpr ⟨here, last, keeps.leads leads, ?_⟩
  rw [same, node_put (by simp), if_pos rfl]

end

end Tree

end VisibilityRules
