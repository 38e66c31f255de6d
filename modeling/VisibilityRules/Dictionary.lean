import Std.Data.ExtTreeMap

set_option autoImplicit false

/-!
Finite maps with text keys. Two of them are equal as soon as they hold the same entries, and their
entries come in the order of the code points of the keys.
-/
namespace VisibilityRules

abbrev Dictionary (α : Type) := Std.ExtTreeMap String α

namespace Dictionary

variable {α : Type}

def ofEntries (entries : List (String × α)) : Dictionary α :=
  entries.foldl (fun d (key, value) => d.insert key value) ∅

theorem getElem?_foldl_insert_of_other {entries : List (String × α)} {key : String}
    (d : Dictionary α) (other : ∀ entry ∈ entries, entry.1 ≠ key) :
    (entries.foldl (fun d (key, value) => d.insert key value) d)[key]? = d[key]? := by
  induction entries generalizing d with
  | nil => rfl
  | cons entry entries ih =>
    obtain ⟨first, others⟩ := List.forall_mem_cons.mp other
    rw [List.foldl_cons, ih _ others, Std.ExtTreeMap.getElem?_insert, if_neg]
    simpa using first

theorem getElem?_foldl_insert_of_mem {entries : List (String × α)} {key : String} {value : α}
    (d : Dictionary α) (distinct : entries.Pairwise fun a b => a.1 ≠ b.1)
    (mem : (key, value) ∈ entries) :
    (entries.foldl (fun d (key, value) => d.insert key value) d)[key]? = some value := by
  induction entries generalizing d with
  | nil => simp at mem
  | cons entry entries ih =>
    obtain ⟨first, distinct⟩ := List.pairwise_cons.mp distinct
    cases List.mem_cons.mp mem with
    | inl here =>
      subst here
      rw [List.foldl_cons, getElem?_foldl_insert_of_other _ fun entry mem => (first entry mem).symm]
      exact Std.ExtTreeMap.getElem?_insert_self
    | inr later => exact ih _ distinct later

/-- Of two entries with one key the later counts. -/
theorem getElem?_foldl_insert (entries : List (String × α)) (d : Dictionary α) (key : String) :
    (entries.foldl (fun d (key, value) => d.insert key value) d)[key]? =
      (entries.reverse.lookup key).or d[key]? := by
  induction entries generalizing d with
  | nil => rfl
  | cons entry entries ih =>
    obtain ⟨name, value⟩ := entry
    have first : (d.insert name value)[key]? = ([(name, value)].lookup key).or d[key]? := by
      rw [Std.ExtTreeMap.getElem?_insert, List.lookup_cons]
      by_cases same : name = key
      · simp [same]
      · simp [same, show (key == name) = false from by simp [Ne.symm same]]
    rw [List.foldl_cons, ih, first, List.reverse_cons, List.lookup_append, Option.or_assoc]

theorem getElem?_ofEntries (entries : List (String × α)) (key : String) :
    (ofEntries entries)[key]? = entries.reverse.lookup key := by
  rw [ofEntries, getElem?_foldl_insert, Std.ExtTreeMap.getElem?_empty, Option.or_none]

theorem ofEntries_eq_empty_iff {entries : List (String × α)} :
    ofEntries entries = ∅ ↔ entries = [] := by
  constructor
  · intro empty
    cases turned : entries.reverse with
    | nil => exact List.reverse_eq_nil_iff.mp turned
    | cons last before =>
      have held := getElem?_ofEntries entries last.1
      rw [empty, Std.ExtTreeMap.getElem?_empty, turned, List.lookup_cons, beq_self_eq_true] at held
      exact nomatch held
  · rintro rfl
    rfl

theorem distinct_toList (d : Dictionary α) : d.toList.Pairwise fun a b => a.1 ≠ b.1 := by
  apply d.distinct_keys_toList.imp
  intro a b apart same
  exact apart (Std.LawfulEqCmp.compare_eq_iff_eq.mpr same)

theorem ofEntries_toList (d : Dictionary α) : ofEntries d.toList = d := by
  apply Std.ExtTreeMap.ext_getElem?
  intro key
  cases held : d[key]? with
  | some value =>
    have mem := Std.ExtTreeMap.mem_toList_iff_getElem?_eq_some.mpr held
    exact getElem?_foldl_insert_of_mem ∅ d.distinct_toList mem
  | none =>
    have other : ∀ entry ∈ d.toList, entry.1 ≠ key := by
      intro entry mem same
      have found := Std.ExtTreeMap.mem_toList_iff_getElem?_eq_some.mp mem
      rw [same, held] at found
      exact absurd found nofun
    exact (getElem?_foldl_insert_of_other ∅ other).trans Std.ExtTreeMap.getElem?_empty

end Dictionary

end VisibilityRules
