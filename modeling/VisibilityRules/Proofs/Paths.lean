import Mathlib.Data.List.DropRight
import Mathlib.Data.List.Flatten
import VisibilityRules.Files.Path
import VisibilityRules.Proofs.Separators

set_option autoImplicit false

/-!
The steps of a path, told from its text: a parent lacks the last step, and a child adds its own.
-/
namespace VisibilityRules.Path

def isStep (piece : String) : Bool := piece ≠ "" ∧ piece ≠ "."

theorem steps_eq (path : String) : steps path = (pieces path).filter isStep := by
  rw [steps, names, List.filter_filter]
  congr 1
  funext piece
  simp [isStep, Bool.and_comm]

theorem pieces_empty : pieces "" = [""] := rfl

theorem steps_empty : steps "" = [] := rfl

theorem steps_slash : steps "/" = [] := rfl

theorem isAbsolute_slash : isAbsolute "/" = true := rfl

theorem pieces_append_slash (front back : String) :
    pieces (front ++ "/" ++ back) = pieces front ++ pieces back := by
  simp only [pieces, Text.split_eq_splitOn, String.toList_append]
  rw [show "/".toList = ['/'] from rfl, List.append_assoc, List.singleton_append,
    List.splitOn_append_cons_self, List.map_append]

theorem not_mem_of_mem_pieces {path piece : String} (mem : piece ∈ pieces path) :
    '/' ∉ piece.toList := by
  obtain ⟨text, listed, rfl⟩ := List.mem_map.mp mem
  rw [String.toList_ofList]
  exact Text.not_mem_of_mem_split listed

theorem pieces_intercalate {names : List String} (nonempty : names ≠ [])
    (free : ∀ name ∈ names, '/' ∉ name.toList) : pieces ("/".intercalate names) = names :=
  (Text.split_eq_iff nonempty).mpr ⟨rfl, free⟩

theorem pieces_of_free {name : String} (free : '/' ∉ name.toList) : pieces name = [name] := by
  rw [pieces, Text.split_eq_splitOn, List.splitOn_eq_singleton free]
  simp

theorem exists_pieces (path : String) : ∃ first later, pieces path = first :: later := by
  rw [pieces, Text.split_eq_splitOn]
  exact List.exists_cons_of_ne_nil (by simp)

theorem toList_eq {path first : String} {later : List String}
    (split : pieces path = first :: later) :
    path.toList = first.toList ++ later.flatMap fun piece => '/' :: piece.toList := by
  have texts : Text.split '/' path.toList = first.toList :: later.map String.toList := by
    have back := congrArg (List.map String.toList) split
    simpa [pieces, Function.comp_def] using back
  have whole : ['/'].intercalate (path.toList.splitOn '/') = path.toList :=
    List.intercalate_splitOn '/'
  rw [← Text.split_eq_splitOn, texts, Text.intercalate_cons, List.flatMap_map] at whole
  exact whole.symm

theorem piece_sublist {path piece : String} (listed : piece ∈ pieces path) :
    piece.toList.Sublist path.toList := by
  obtain ⟨first, later, split⟩ := exists_pieces path
  rw [toList_eq split]
  rw [split] at listed
  cases List.mem_cons.mp listed with
  | inl here => exact here ▸ List.sublist_append_left ..
  | inr behind =>
    have part : ('/' :: piece.toList).Sublist (later.flatMap fun piece => '/' :: piece.toList) :=
      List.sublist_flatten_of_mem (List.mem_map.mpr ⟨piece, behind, rfl⟩)
    exact ((List.sublist_cons_self _ _).trans part).trans (List.sublist_append_right ..)

theorem not_ends_of_pieces {path last : String} {before : List String}
    (split : pieces path = before ++ [last]) (nonempty : last ≠ "") :
    path.toList.getLast? ≠ some '/' := by
  intro ends
  obtain ⟨front, text⟩ := List.getLast?_eq_some_iff.mp ends
  have whole : path = String.ofList front ++ "/" ++ "" := String.toList_inj.mp (by simp [text])
  rw [whole, pieces_append_slash, pieces_empty] at split
  exact nonempty (List.singleton_inj.mp (List.append_inj_right' split rfl)).symm

/-- An absolute path begins with an empty piece that a slash ends. -/
theorem isAbsolute_iff {path first : String} {later : List String}
    (split : pieces path = first :: later) : isAbsolute path = true ↔ first = "" ∧ later ≠ [] := by
  rw [isAbsolute, beq_iff_eq]
  cases text : path.toList with
  | nil =>
    simp only [pieces, text, Text.split, List.map_cons, List.map_nil, List.cons.injEq] at split
    simp [← split.2]
  | cons c rest =>
    obtain ⟨piece, pieces, cut⟩ : ∃ piece pieces, Text.split '/' rest = piece :: pieces := by
      rw [Text.split_eq_splitOn]
      exact List.exists_cons_of_ne_nil (by simp)
    by_cases slash : c = '/'
    next =>
      simp only [Path.pieces, text, Text.split, slash, if_true, cut, List.map_cons,
        List.cons.injEq] at split
      simp [slash, ← split.1, ← split.2]
    next =>
      simp only [Path.pieces, text, Text.split, slash, if_false, cut, Text.extendHead,
        List.map_cons, List.cons.injEq] at split
      simp [slash, ← split.1]

/-! ### Parents -/

theorem trim_eq (pieces : List String) :
    trim pieces = pieces.rdropWhile fun piece => !isStep piece := by
  rw [trim, List.rdropWhile]
  congr 2
  funext piece
  simp [isStep]

theorem filter_trim (pieces : List String) : (trim pieces).filter isStep = pieces.filter isStep := by
  rw [trim_eq]
  induction pieces using List.reverseRecOn with
  | nil => rfl
  | append_singleton pieces last ih =>
    by_cases step : isStep last
    next => rw [List.rdropWhile_concat_neg _ _ _ (by simp [step])]
    next =>
      rw [List.rdropWhile_concat_pos _ _ _ (by simp [step]), ih, List.filter_append,
        List.filter_cons_of_neg step, List.filter_nil, List.append_nil]

theorem exists_last_of_trim {pieces : List String} (left : trim pieces ≠ []) :
    ∃ above last, trim pieces = above ++ [last] ∧ isStep last = true := by
  refine ⟨_, _, (List.dropLast_append_getLast left).symm, ?_⟩
  simp only [trim_eq] at left ⊢
  simpa using List.rdropWhile_last_not _ _ left

theorem mem_of_mem_trim {pieces : List String} {piece : String} (mem : piece ∈ trim pieces) :
    piece ∈ pieces := by
  rw [trim_eq] at mem
  exact (List.rdropWhile_prefix _ _).mem mem

theorem trim_sublist (pieces : List String) : (trim pieces).Sublist pieces := by
  rw [trim_eq]
  exact (List.rdropWhile_prefix _ _).sublist

theorem parent_eq {path first : String} {later : List String}
    (split : pieces path = first :: later) :
    parent path =
      if trim later = [] then if isAbsolute path then "/" else ""
      else if trim (trim later).dropLast = [] then if isAbsolute path then "/" else first
      else "/".intercalate (first :: trim (trim later).dropLast) := by
  simp only [parent, split]
  split
  next none => rw [if_pos none]
  next some =>
    rw [if_neg some]
    split
    next none => rw [if_pos none]
    next some => rw [if_neg some]

theorem pieces_parent {path first : String} {later : List String}
    (split : pieces path = first :: later) (more : trim (trim later).dropLast ≠ []) :
    pieces (parent path) = first :: trim (trim later).dropLast := by
  have some : trim later ≠ [] := by
    intro none
    rw [none] at more
    exact more rfl
  rw [parent_eq split, if_neg some, if_neg more]
  have listed : ∀ name ∈ first :: trim (trim later).dropLast, name ∈ pieces path := by
    intro name mem
    rw [split]
    rcases List.mem_cons.mp mem with rfl | mem
    · exact List.mem_cons_self ..
    · have above := List.dropLast_subset _ (mem_of_mem_trim mem)
      exact List.mem_cons_of_mem _ (mem_of_mem_trim above)
  exact pieces_intercalate (List.cons_ne_nil _ _) fun name mem =>
    not_mem_of_mem_pieces (listed name mem)

theorem steps_parent (path : String) : steps (parent path) = (steps path).dropLast := by
  obtain ⟨first, later, split⟩ := exists_pieces path
  rw [steps_eq path, split]
  by_cases none : trim later = []
  next =>
    have idle : later.filter isStep = [] := by rw [← filter_trim, none, List.filter_nil]
    have root : steps (parent path) = [] := by
      rw [parent_eq split, if_pos none]
      split
      next => exact steps_slash
      next => exact steps_empty
    rw [root, List.filter_cons, idle]
    split <;> rfl
  next =>
    -- The last step goes, and what led nowhere in front of it with it.
    obtain ⟨above, last, way, step⟩ := exists_last_of_trim none
    have dropped : ((first :: later).filter isStep).dropLast =
        [first].filter isStep ++ (trim above).filter isStep := by
      rw [← List.singleton_append, List.filter_append, ← filter_trim later, way,
        List.filter_append, List.filter_cons_of_pos step, List.filter_nil, ← List.append_assoc,
        List.dropLast_concat, filter_trim]
    have kept : (trim later).dropLast = above := by rw [way, List.dropLast_concat]
    rw [dropped]
    by_cases alone : trim above = []
    next =>
      rw [parent_eq split, if_neg none, kept, if_pos alone, alone, List.filter_nil, List.append_nil]
      split
      next absolute => rw [steps_slash, ((isAbsolute_iff split).mp absolute).1]; rfl
      next =>
        have free : '/' ∉ first.toList := not_mem_of_mem_pieces (split ▸ List.mem_cons_self ..)
        rw [steps_eq, pieces_of_free free]
    next =>
      rw [← kept] at alone ⊢
      rw [steps_eq, pieces_parent split alone, ← List.filter_append, List.singleton_append]

theorem isAbsolute_parent (path : String) : isAbsolute (parent path) = isAbsolute path := by
  obtain ⟨first, later, split⟩ := exists_pieces path
  by_cases alone : trim (trim later).dropLast = []
  next =>
    have free : '/' ∉ first.toList := not_mem_of_mem_pieces (split ▸ List.mem_cons_self ..)
    have bare : isAbsolute first = false := by simpa using isAbsolute_iff (pieces_of_free free)
    rw [parent_eq split, if_pos alone]
    cases isAbsolute path with
    | true => simp only [if_true, ite_self, isAbsolute_slash]
    | false =>
      simp only [Bool.false_eq_true, if_false]
      split
      next => rfl
      next => exact bare
  next =>
    have more : later ≠ [] := by
      rintro rfl
      exact alone rfl
    rw [Bool.eq_iff_iff, isAbsolute_iff split, isAbsolute_iff (pieces_parent split alone)]
    simp [alone, more]

/-! ### Children -/

theorem join_empty (child : String) : join "" child = child := by
  simp [join]

section

variable {base child : String} (relative : isAbsolute child = false)
include relative

theorem join_eq (named : base ≠ "") :
    ∃ front, join base child = front ++ "/" ++ child ∧ steps front = steps base := by
  rw [join, if_neg (by simp [relative])]
  by_cases ends : base.toList.getLast? = some '/'
  next =>
    obtain ⟨front, text⟩ := List.getLast?_eq_some_iff.mp ends
    have whole : base = String.ofList front ++ "/" := String.toList_inj.mp (by simp [text])
    refine ⟨String.ofList front, by rw [if_pos (.inr ends), whole], ?_⟩
    have pieces := pieces_append_slash (String.ofList front) ""
    rw [String.append_empty, ← whole] at pieces
    rw [steps_eq, steps_eq, pieces, List.filter_append]
    exact (List.append_nil _).symm
  next => exact ⟨base, by rw [if_neg (not_or.mpr ⟨named, ends⟩)], rfl⟩

theorem steps_join : steps (join base child) = steps base ++ steps child := by
  by_cases named : base = ""
  next => rw [named, join_empty, steps_empty, List.nil_append]
  next =>
    obtain ⟨front, joined, same⟩ := join_eq relative named
    rw [joined, ← same, steps_eq, steps_eq, steps_eq, pieces_append_slash, List.filter_append]

theorem isAbsolute_join : isAbsolute (join base child) = isAbsolute base := by
  by_cases named : base = ""
  next =>
    rw [named, join_empty, relative]
    rfl
  have first (behind : String) : isAbsolute (base ++ behind) = isAbsolute base := by
    have some : base.toList ≠ [] := by simpa using named
    rw [isAbsolute, String.toList_append, List.head?_append_of_ne_nil _ some, isAbsolute]
  rw [join, if_neg (by simp [relative])]
  split
  next => exact first child
  next => rw [String.append_assoc]; exact first ("/" ++ child)

end

theorem pieces_join {base child : String} (relative : isAbsolute child = false)
    (named : base ≠ "") (bare : base.toList.getLast? ≠ some '/') :
    pieces (join base child) = pieces base ++ pieces child := by
  rw [join, if_neg (by simp [relative]), if_neg (not_or.mpr ⟨named, bare⟩), pieces_append_slash]

theorem steps_of_mem_steps {path name : String} (mem : name ∈ steps path) : steps name = [name] := by
  rw [steps_eq] at mem
  obtain ⟨listed, step⟩ := List.mem_filter.mp mem
  rw [steps_eq, pieces_of_free (not_mem_of_mem_pieces listed), List.filter_cons_of_pos step,
    List.filter_nil]

theorem isAbsolute_of_mem_steps {path name : String} (mem : name ∈ steps path) :
    isAbsolute name = false := by
  rw [steps_eq] at mem
  have free := not_mem_of_mem_pieces (List.mem_filter.mp mem).1
  rw [isAbsolute, beq_eq_false_iff_ne]
  exact fun head => free (List.mem_of_head? head)

/-! ### Last names -/

section

variable {path name first : String} {later above : List String}

theorem exists_last_name (named : fileName? path = some name) (nonempty : parent path ≠ "") :
    ∃ first later above, pieces path = first :: later ∧ trim later = above ++ [name] := by
  obtain ⟨first, later, split⟩ := exists_pieces path
  have last := (Option.filter_eq_some_iff.mp named).1
  rw [steps_eq, split] at last
  have left : trim later ≠ [] := by
    intro none
    have idle : later.filter isStep = [] := by rw [← filter_trim, none, List.filter_nil]
    rw [List.filter_cons, idle] at last
    rw [parent_eq split, if_pos none] at nonempty
    split at nonempty
    next absolute => simp [((isAbsolute_iff split).mp absolute).1, isStep] at last
    next => exact nonempty rfl
  obtain ⟨above, found, way, step⟩ := exists_last_of_trim left
  rw [← List.singleton_append, List.filter_append, ← filter_trim later, way, List.filter_append,
    List.filter_cons_of_pos step, List.filter_nil, ← List.append_assoc, List.getLast?_concat] at last
  obtain rfl := Option.some.inj last
  exact ⟨first, later, above, split, way⟩

theorem pieces_join_parent (split : pieces path = first :: later)
    (way : trim later = above ++ [name]) (plain : pieces name = [name])
    (relative : isAbsolute name = false) (nonempty : parent path ≠ "") :
    pieces (join (parent path) name) = first :: (trim above ++ [name]) := by
  have left : trim later ≠ [] := by simp [way]
  have kept : (trim later).dropLast = above := by rw [way, List.dropLast_concat]
  by_cases alone : trim above = []
  next =>
    rw [parent_eq split, if_neg left, kept, if_pos alone] at nonempty ⊢
    split
    next absolute =>
      have root : join "/" name = "" ++ "/" ++ name := by simp [join, relative]
      rw [root, pieces_append_slash, pieces_empty, plain, alone, ((isAbsolute_iff split).mp absolute).1]
      rfl
    next inside =>
      rw [if_neg inside] at nonempty
      have free : '/' ∉ first.toList := not_mem_of_mem_pieces (split ▸ List.mem_cons_self ..)
      have lone : pieces first = [] ++ [first] := pieces_of_free free
      have bare := not_ends_of_pieces lone nonempty
      rw [pieces_join relative nonempty bare, lone, plain, alone]
      rfl
  next =>
    obtain ⟨front, last, whole, step⟩ := exists_last_of_trim alone
    rw [← kept] at alone
    have directory := pieces_parent split alone
    have bare : (parent path).toList.getLast? ≠ some '/' := by
      rw [kept, whole, ← List.cons_append] at directory
      apply not_ends_of_pieces directory
      rintro rfl
      exact absurd step (by decide)
    rw [pieces_join relative nonempty bare, directory, plain, kept]
    rfl

/-- The way to a last name is no longer when it goes by its directory: nothing is written but what
the path holds. -/
theorem join_parent_sublist (named : fileName? path = some name) (nonempty : parent path ≠ "") :
    (join (parent path) name).toList.Sublist path.toList := by
  obtain ⟨first, later, above, split, way⟩ := exists_last_name named nonempty
  have mem := List.mem_of_getLast? (Option.filter_eq_some_iff.mp named).1
  have relative := isAbsolute_of_mem_steps mem
  have listed : name ∈ pieces path := (List.mem_filter.mp (steps_eq path ▸ mem)).1
  have joined := pieces_join_parent split way (pieces_of_free (not_mem_of_mem_pieces listed))
    relative nonempty
  have shorter : (trim above ++ [name]).Sublist (trim later) := by
    rw [way]
    exact (trim_sublist above).append_right _
  rw [toList_eq joined, toList_eq split]
  exact ((shorter.trans (trim_sublist later)).flatMap _).append_left _

end

/-- The directory in which a path has its last name. -/
def directory (path : String) : String := if parent path = "" then "." else parent path

theorem directory_facts (path : String) :
    directory path ≠ "" ∧ steps (directory path) = (steps path).dropLast ∧
      isAbsolute (directory path) = isAbsolute path := by
  have above := steps_parent path
  have start := isAbsolute_parent path
  unfold directory
  split
  next empty =>
    rw [empty] at above start
    rw [← above, ← start]
    exact ⟨by decide, rfl, rfl⟩
  next nonempty => exact ⟨nonempty, above, start⟩

/-- A path has the same steps as its last name in its directory, and starts at the same place. -/
theorem join_fileName {path name : String} (named : fileName? path = some name) :
    steps (join (directory path) name) = steps path ∧
      isAbsolute (join (directory path) name) = isAbsolute path := by
  obtain ⟨_, above, start⟩ := directory_facts path
  have last := (Option.filter_eq_some_iff.mp named).1
  have mem := List.mem_of_getLast? last
  have relative := isAbsolute_of_mem_steps mem
  obtain ⟨front, whole⟩ := List.getLast?_eq_some_iff.mp last
  rw [steps_join relative, isAbsolute_join relative, steps_of_mem_steps mem, above, start, whole,
    List.dropLast_concat]
  exact ⟨rfl, rfl⟩

theorem join_directory_text {path name : String} (named : fileName? path = some name) :
    (join (directory path) name).toList.Sublist path.toList ∨
      join (directory path) name = "./" ++ name := by
  by_cases alone : parent path = ""
  next =>
    have relative := isAbsolute_of_mem_steps
      (List.mem_of_getLast? (Option.filter_eq_some_iff.mp named).1)
    right
    rw [directory, if_pos alone, join, if_neg (by simp [relative]), if_neg (by decide)]
    rfl
  next =>
    left
    rw [directory, if_neg alone]
    exact join_parent_sublist named alone

end VisibilityRules.Path
