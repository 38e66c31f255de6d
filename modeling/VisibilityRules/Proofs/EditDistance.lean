import Mathlib.Data.List.Infix
import Mathlib.Order.Bounds.Basic
import VisibilityRules.Text.EditDistance

set_option autoImplicit false

/-!
Edits. The distance computed row by row is the least number of characters to insert, delete or
replace, one after another, on the way from one text to the other.
-/
namespace VisibilityRules.Text

/-- One character is inserted, deleted or replaced. -/
inductive Edit : List Char → List Char → Prop
  | insert (front : List Char) (c : Char) (back : List Char) :
      Edit (front ++ back) (front ++ c :: back)
  | delete (front : List Char) (c : Char) (back : List Char) :
      Edit (front ++ c :: back) (front ++ back)
  | replace (front : List Char) (c d : Char) (back : List Char) :
      Edit (front ++ c :: back) (front ++ d :: back)

/-- So many edits, one after another, lead from one text to another. -/
inductive Edits : Nat → List Char → List Char → Prop
  | refl (text : List Char) : Edits 0 text text
  | tail {n : Nat} {source between target : List Char} :
      Edits n source between → Edit between target → Edits (n + 1) source target

theorem Edit.cons {source target : List Char} (edit : Edit source target) (c : Char) :
    Edit (c :: source) (c :: target) := by
  cases edit with
  | insert front d back => exact .insert (c :: front) d back
  | delete front d back => exact .delete (c :: front) d back
  | replace front d e back => exact .replace (c :: front) d e back

theorem Edit.symm {source target : List Char} (edit : Edit source target) :
    Edit target source := by
  cases edit with
  | insert front c back => exact .delete front c back
  | delete front c back => exact .insert front c back
  | replace front c d back => exact .replace front d c back

namespace Edits

variable {n : Nat} {source between target : List Char}

theorem cons (edits : Edits n source target) (c : Char) : Edits n (c :: source) (c :: target) := by
  induction edits with
  | refl => exact .refl _
  | tail _ edit ih => exact ih.tail (edit.cons c)

theorem trans {m : Nat} (first : Edits m source between) (second : Edits n between target) :
    Edits (m + n) source target := by
  induction second with
  | refl => exact first
  | tail _ edit ih => exact (ih first).tail edit

theorem head (edit : Edit source between) (edits : Edits n between target) :
    Edits (n + 1) source target := by
  have both := ((Edits.refl source).tail edit).trans edits
  rwa [Nat.zero_add, Nat.add_comm] at both

theorem symm (edits : Edits n source target) : Edits n target source := by
  induction edits with
  | refl => exact .refl _
  | tail _ edit ih => exact ih.head edit.symm

end Edits

/-! ### The distance of two texts from those of their tails -/

def distance : List Char → List Char → Nat
  | [], target => target.length
  | c :: source, [] => (c :: source).length
  | c :: source, d :: target =>
    min (min (distance source (d :: target) + 1) (distance (c :: source) target + 1))
      (distance source target + if c = d then 0 else 1)
termination_by source target => source.length + target.length

theorem distance_nil_left (target : List Char) : distance [] target = target.length := by
  rw [distance]

theorem distance_nil_right (source : List Char) : distance source [] = source.length := by
  cases source <;> rw [distance]

theorem distance_cons_cons (c d : Char) (source target : List Char) :
    distance (c :: source) (d :: target) =
      min (min (distance source (d :: target) + 1) (distance (c :: source) target + 1))
        (distance source target + if c = d then 0 else 1) := by
  rw [distance]

theorem tailLengths_eq (target : List Char) : tailLengths target = target.tails.map (distance []) := by
  induction target with
  | nil => simp [tailLengths, distance_nil_left]
  | cons d target ih => simp [tailLengths, ih, distance_nil_left]

theorem map_tails (f : List Char → Nat) (target : List Char) :
    ∃ ds, target.tails.map f = f target :: ds := by
  cases target with
  | nil => exact ⟨[], rfl⟩
  | cons d target => exact ⟨target.tails.map f, by simp⟩

/-- A row holds the distances to all tails of the target. -/
theorem extendDistances_row (c : Char) (source target : List Char) :
    extendDistances c target (target.tails.map (distance source)) =
      target.tails.map (distance (c :: source)) := by
  induction target with
  | nil => simp [extendDistances, distance_nil_right]
  | cons d target ih =>
    obtain ⟨row, tails⟩ := map_tails (distance source) target
    obtain ⟨row', tails'⟩ := map_tails (distance (c :: source)) target
    rw [tails] at ih
    rw [List.tails_cons, List.map_cons, List.map_cons, tails, extendDistances, ih, tails',
      distance_cons_cons]
    rfl

theorem editDistance_eq (source target : List Char) :
    editDistance source target = distance source target := by
  have rows : source.foldr (fun c ds => extendDistances c target ds) (tailLengths target) =
      target.tails.map (distance source) := by
    induction source with
    | nil => exact tailLengths_eq target
    | cons c source ih => rw [List.foldr_cons, ih, extendDistances_row]
  obtain ⟨row, tails⟩ := map_tails (distance source) target
  rw [editDistance, rows, tails, List.headD_cons]

/-! ### No way is shorter -/

theorem distance_self (text : List Char) : distance text text = 0 := by
  induction text with
  | nil => rw [distance_nil_left, List.length_nil]
  | cons c text ih => simp [distance_cons_cons, ih]

theorem distance_cons_left_le (c : Char) (source target : List Char) :
    distance (c :: source) target ≤ distance source target + 1 := by
  cases target with
  | nil => simp [distance_nil_right]
  | cons d target =>
    rw [distance_cons_cons]
    omega

/-- From every text the one is at most one edit further than the other. -/
def Near (text text' : List Char) : Prop :=
  ∀ source, distance source text' ≤ distance source text + 1

theorem near_insert (d : Char) (text : List Char) : Near text (d :: text) := by
  intro source
  cases source with
  | nil => simp [distance_nil_left]
  | cons c source =>
    rw [distance_cons_cons]
    omega

theorem near_delete (d : Char) (text : List Char) : Near (d :: text) text := by
  intro source
  induction source with
  | nil =>
    simp only [distance_nil_left, List.length_cons]
    omega
  | cons c source ih =>
    have left := distance_cons_left_le c source text
    rw [distance_cons_cons]
    omega

theorem near_replace (d e : Char) (text : List Char) : Near (d :: text) (e :: text) := by
  intro source
  induction source with
  | nil => simp [distance_nil_left]
  | cons c source ih =>
    have once : (if c = e then 0 else 1) ≤ 1 := by split <;> decide
    rw [distance_cons_cons, distance_cons_cons]
    omega

theorem Near.cons {text text' : List Char} (near : Near text text') (d : Char) :
    Near (d :: text) (d :: text') := by
  intro source
  induction source with
  | nil => simpa [distance_nil_left] using near []
  | cons c source ih =>
    have here := near (c :: source)
    have later := near source
    rw [distance_cons_cons, distance_cons_cons]
    omega

theorem Near.append {text text' : List Char} (near : Near text text') (front : List Char) :
    Near (front ++ text) (front ++ text') := by
  induction front with
  | nil => exact near
  | cons c front ih => exact ih.cons c

theorem near_of_edit {text text' : List Char} (edit : Edit text text') : Near text text' := by
  cases edit with
  | insert front c back => exact (near_insert c back).append front
  | delete front c back => exact (near_delete c back).append front
  | replace front c d back => exact (near_replace c d back).append front

theorem distance_le_of_edits {n : Nat} {source target : List Char}
    (edits : Edits n source target) : distance source target ≤ n := by
  induction edits with
  | refl => exact Nat.le_of_eq (distance_self _)
  | tail _ edit ih => exact Nat.le_trans (near_of_edit edit _) (Nat.add_le_add_right ih 1)

/-! ### A way of this length -/

theorem edits_from_nil (target : List Char) : Edits target.length [] target := by
  induction target with
  | nil => exact .refl []
  | cons d target ih => exact ih.tail (.insert [] d target)

theorem edits_distance (source target : List Char) :
    Edits (distance source target) source target := by
  induction source, target using distance.induct with
  | case1 target =>
    rw [distance_nil_left]
    exact edits_from_nil target
  | case2 c source =>
    rw [distance_nil_right]
    exact (edits_from_nil _).symm
  | case3 c source d target deleted inserted replaced =>
    have least : distance (c :: source) (d :: target) = distance source (d :: target) + 1 ∨
        distance (c :: source) (d :: target) = distance (c :: source) target + 1 ∨
        distance (c :: source) (d :: target) =
          distance source target + if c = d then 0 else 1 := by
      rw [distance_cons_cons]
      omega
    rcases least with delete | insert | replace
    · rw [delete]
      exact deleted.head (.delete [] c source)
    · rw [insert]
      exact inserted.tail (.insert [] d target)
    · rw [replace]
      by_cases same : c = d
      next =>
        rw [if_pos same, Nat.add_zero, same]
        exact replaced.cons d
      next =>
        rw [if_neg same]
        exact (replaced.cons c).tail (.replace [] c d target)

theorem isLeast_editDistance (source target : List Char) :
    IsLeast { n | Edits n source target } (editDistance source target) := by
  rw [editDistance_eq]
  exact ⟨edits_distance source target, fun n edits => distance_le_of_edits edits⟩

theorem editDistance_triangle (source between target : List Char) :
    editDistance source target ≤ editDistance source between + editDistance between target :=
  (isLeast_editDistance source target).2
    ((isLeast_editDistance source between).1.trans (isLeast_editDistance between target).1)

theorem editDistance_comm (source target : List Char) :
    editDistance source target = editDistance target source :=
  Nat.le_antisymm
    ((isLeast_editDistance source target).2 (isLeast_editDistance target source).1.symm)
    ((isLeast_editDistance target source).2 (isLeast_editDistance source target).1.symm)

theorem Edits.length_le {n : Nat} {source target : List Char} (edits : Edits n source target) :
    target.length ≤ source.length + n := by
  induction edits with
  | refl => exact Nat.le_refl _
  | tail _ edit ih => cases edit <;> simp only [List.length_append, List.length_cons] at * <;> omega

theorem length_le_editDistance (source target : List Char) :
    target.length ≤ source.length + editDistance source target :=
  (isLeast_editDistance source target).1.length_le

end VisibilityRules.Text
