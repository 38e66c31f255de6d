import VisibilityRules.Proofs.EditDistance
import VisibilityRules.Rule.Kind

set_option autoImplicit false

/-!
Suggestions for misspelled ids. Of the kinds whose ids are at most three edits away the nearest is
suggested; no two ids are so near to each other that one edit could lead to both.
-/
namespace VisibilityRules.Kind

open Text (editDistance Edits)

/-! ### The nearest of several -/

/-- The first element of a list among those at the least distance. -/
def IsFirstNearest {α : Type} (distance : α → Nat) (list : List α) (a : α) : Prop :=
  ∃ before after, list = before ++ a :: after ∧
    (∀ b ∈ before, distance a < distance b) ∧ ∀ b ∈ after, distance a ≤ distance b

section

variable {α : Type} {distance : α → Nat} {list : List α} {a : α}

theorem IsFirstNearest.mem (nearest : IsFirstNearest distance list a) : a ∈ list := by
  obtain ⟨before, after, rfl, _⟩ := nearest
  simp

theorem IsFirstNearest.le (nearest : IsFirstNearest distance list a) {b : α} (mem : b ∈ list) :
    distance a ≤ distance b := by
  obtain ⟨before, after, rfl, strict, least⟩ := nearest
  rcases List.mem_append.mp mem with earlier | later
  · exact Nat.le_of_lt (strict b earlier)
  · rcases List.mem_cons.mp later with rfl | later
    · exact Nat.le_refl _
    · exact least b later

theorem isFirstNearest_foldl (first : Kind × Nat) (others : List (Kind × Nat)) :
    IsFirstNearest Prod.snd (first :: others) (others.foldl nearer first) := by
  induction others generalizing first with
  | nil => exact ⟨[], [], rfl, nofun, nofun⟩
  | cons next others ih =>
    have nearest := ih (nearer first next)
    rw [List.foldl_cons]
    generalize others.foldl nearer (nearer first next) = best at nearest
    unfold nearer at nearest
    split at nearest
    next closer =>
      have reached : best.2 ≤ next.2 := nearest.le (List.mem_cons_self ..)
      obtain ⟨before, after, split, strict, least⟩ := nearest
      exact ⟨first :: before, after, by rw [List.cons_append, split],
        List.forall_mem_cons.mpr ⟨Nat.lt_of_le_of_lt reached closer, strict⟩, least⟩
    next keeps =>
      obtain ⟨before, after, split, strict, least⟩ := nearest
      have keeps := Nat.not_lt.mp keeps
      -- The next one goes right behind the first.
      cases before with
      | nil =>
        obtain ⟨rfl, rfl⟩ := List.cons.inj split
        exact ⟨[], next :: others, rfl, nofun, List.forall_mem_cons.mpr ⟨keeps, least⟩⟩
      | cons b before =>
        obtain ⟨rfl, rfl⟩ := List.cons.inj split
        obtain ⟨further, strict⟩ := List.forall_mem_cons.mp strict
        refine ⟨first :: next :: before, after, rfl, ?_, least⟩
        simp only [List.forall_mem_cons]
        exact ⟨further, Nat.lt_of_lt_of_le further keeps, strict⟩

theorem IsFirstNearest.of_measured {best : α × Nat}
    (nearest : IsFirstNearest Prod.snd (list.map fun a => (a, distance a)) best) :
    IsFirstNearest distance list best.1 := by
  obtain ⟨before, after, split, strict, least⟩ := nearest
  obtain ⟨front, rest, rfl, rfl, later⟩ := List.map_eq_append_iff.mp split
  obtain ⟨a, back, rfl, rfl, rfl⟩ := List.map_eq_cons_iff.mp later
  exact ⟨front, back, rfl, fun b mem => strict _ (List.mem_map_of_mem mem),
    fun b mem => least _ (List.mem_map_of_mem mem)⟩

/-- Whoever is further away than some bound may be left out or put in. -/
theorem IsFirstNearest.of_filter {bound : Nat}
    (nearest : IsFirstNearest distance (list.filter (distance · ≤ bound)) a) :
    IsFirstNearest distance list a := by
  have inside : distance a ≤ bound := by simpa using List.of_mem_filter nearest.mem
  have outside {part : List α} {p : α → Prop} (inner : ∀ b ∈ part.filter (distance · ≤ bound), p b)
      (far : ∀ b, bound < distance b → p b) : ∀ b ∈ part, p b := by
    intro b mem
    by_cases here : distance b ≤ bound
    next => exact inner b (List.mem_filter.mpr ⟨mem, by simpa using here⟩)
    next => exact far b (Nat.not_le.mp here)
  obtain ⟨before, after, split, strict, least⟩ := nearest
  obtain ⟨front, rest, rfl, rfl, later⟩ := List.filter_eq_append_iff.mp split
  obtain ⟨between, back, rfl, skipped, _, rfl⟩ := List.filter_eq_cons_iff.mp later
  refine ⟨front ++ between, back, by simp, ?_, outside least fun b far => by omega⟩
  rw [List.forall_mem_append]
  refine ⟨outside strict fun b far => by omega, fun b mem => ?_⟩
  have far : bound < distance b := by simpa using skipped b mem
  omega

end

/-! ### Suggestions -/

/-- The kinds that can be suggested, in the order of the catalogue. -/
def suggestible : List Kind := catalogue.filter (· ≠ everyone)

theorem mem_suggestible {kind : Kind} : kind ∈ suggestible ↔ kind ≠ everyone := by
  cases kind <;> decide

/-- What is compared with ids: a text without the blanks around it, in lower case. -/
def wordOf (text : String) : List Char := Text.lowerChars (Text.trimChars text.toList)

def edits (text : String) (kind : Kind) : Nat := editDistance (wordOf text) kind.id.toList

variable {text : String} {kind : Kind}

theorem suggest_eq_none_iff :
    suggest text = none ↔ ∀ kind, kind ≠ everyone → 3 < edits text kind := by
  have nothing : suggest text = none ↔
      (suggestible.map fun kind => (kind, edits text kind)).filter (·.2 ≤ 3) = [] := by
    unfold suggest
    simp only
    split
    next empty => exact iff_of_true rfl empty
    next first others measured =>
      exact iff_of_false nofun fun empty => List.cons_ne_nil first others (measured.symm.trans empty)
  simp [nothing, List.filter_eq_nil_iff, mem_suggestible]

theorem isFirstNearest_of_suggest (found : suggest text = some kind) :
    IsFirstNearest (edits text) suggestible kind := by
  unfold suggest at found
  simp only at found
  split at found
  next => exact nomatch found
  next first others measured =>
    obtain rfl := Option.some.inj found
    have nearest := isFirstNearest_foldl first others
    rw [← measured] at nearest
    exact nearest.of_filter.of_measured

/-- Three edits or more lie between any two of the ids. -/
theorem ids_apart {kind other : Kind} (mem : kind ∈ suggestible) (mem' : other ∈ suggestible)
    (differ : kind ≠ other) : 3 ≤ editDistance kind.id.toList other.id.toList := by
  -- Where one id is by three characters longer the distance need not be computed.
  have checked : suggestible.Pairwise fun kind other =>
      kind.id.toList.length + 3 ≤ other.id.toList.length ∨
        other.id.toList.length + 3 ≤ kind.id.toList.length ∨
        3 ≤ editDistance kind.id.toList other.id.toList := by
    decide_cbv
  have apart : suggestible.Pairwise fun kind other =>
      3 ≤ editDistance kind.id.toList other.id.toList := by
    refine checked.imp fun {kind other} checked => ?_
    have longer := Text.length_le_editDistance kind.id.toList other.id.toList
    have shorter := Text.length_le_editDistance other.id.toList kind.id.toList
    rw [Text.editDistance_comm other.id.toList kind.id.toList] at shorter
    omega
  refine List.Pairwise.forall_of_forall_of_flip
    (R := fun kind other => kind ≠ other → 3 ≤ editDistance kind.id.toList other.id.toList)
    (fun _ _ differs => absurd rfl differs) ?_ ?_ mem mem' differ
  · refine apart.imp ?_
    exact fun far _ => far
  · refine apart.imp ?_
    exact fun far _ => by rwa [Text.editDistance_comm]

theorem suggest_of_one_edit (real : kind ≠ everyone) (near : edits text kind ≤ 1) :
    suggest text = some kind := by
  cases found : suggest text with
  | none =>
    have far := suggest_eq_none_iff.mp found kind real
    omega
  | some best =>
    have nearest := isFirstNearest_of_suggest found
    have mem := mem_suggestible.mpr real
    by_contra differ
    have apart := ids_apart nearest.mem mem fun same => differ (congrArg some same)
    have closer := nearest.le mem
    -- The text would lie between two ids, one edit away from either.
    have between := Text.editDistance_triangle best.id.toList (wordOf text) kind.id.toList
    rw [Text.editDistance_comm best.id.toList (wordOf text)] at between
    simp only [edits] at near closer
    omega

/-- The distance of a text's word to an id is the least number of edits from the one to the other.
Nothing is suggested if all ids are more than three edits away, and else the first of the nearest; a
text that is at most one edit away from an id means its kind. -/
theorem suggest_is_nearest (text : String) :
    (∀ kind, IsLeast { n | Edits n (wordOf text) kind.id.toList } (edits text kind)) ∧
    (suggest text = none ↔ ∀ kind, kind ≠ everyone → 3 < edits text kind) ∧
    (∀ kind, suggest text = some kind →
      IsFirstNearest (edits text) (catalogue.filter (· ≠ everyone)) kind) ∧
    ∀ kind, kind ≠ everyone → edits text kind ≤ 1 → suggest text = some kind :=
  ⟨fun _ => Text.isLeast_editDistance _ _, suggest_eq_none_iff,
    fun _ => isFirstNearest_of_suggest, fun _ => suggest_of_one_edit⟩

/-- Two edits lead to either of two ids, of which the first is meant. A word that lacks a letter
means the id it lacks it for, and one with too many letters means nothing. -/
theorem suggest_is_nearest_tie :
    let text := " Dixe_RANGE\n"
    suggest text = some .dateRange ∧
      IsFirstNearest (edits text) (catalogue.filter (· ≠ everyone)) .dateRange ∧
      edits text .timeRange = edits text .dateRange ∧
      suggest "loged_in" = some .loggedIn ∧ suggest "date_rangesssss" = none := by
  intro text
  have found : suggest text = some .dateRange := by decide +kernel
  have far : ∀ kind ∈ suggestible, 3 < edits "date_rangesssss" kind := by decide +kernel
  obtain ⟨_, _, nearest, _⟩ := suggest_is_nearest text
  obtain ⟨_, _, _, meant⟩ := suggest_is_nearest "loged_in"
  obtain ⟨_, nothing, _⟩ := suggest_is_nearest "date_rangesssss"
  have near : edits "loged_in" .loggedIn ≤ 1 := by decide +kernel
  exact ⟨found, nearest _ found, by decide +kernel, meant .loggedIn (by decide) near,
    nothing.mpr fun kind real => far kind (mem_suggestible.mpr real)⟩

end VisibilityRules.Kind
