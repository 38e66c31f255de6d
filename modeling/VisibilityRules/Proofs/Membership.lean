import Mathlib.Data.List.Forall2
import Std.Data.String.ToNat
import VisibilityRules.Proofs.WrittenDates
import VisibilityRules.Rule.Policy

set_option autoImplicit false

/-!
Rules that list users or roles. However the items of a list are spaced, a rule asks for one of them
and for nothing else: a listed id says the opposite when it selects and when it discards.
-/
namespace VisibilityRules

/-! ### Written lists -/

namespace Attributes

/-- No comma stands in an item, and no blank at an end of it. -/
structure IsItem (item : String) : Prop where
  no_comma : ',' ∉ item.toList
  front : ∀ c ∈ item.toList.head?, Text.isBlank c = false
  back : ∀ c ∈ item.toList.getLast?, Text.isBlank c = false

/-- An item between blanks. -/
def Pads (item : String) (piece : List Char) : Prop :=
  ∃ front back, (∀ c ∈ front ++ back, Text.isBlank c = true) ∧
    piece = front ++ item.toList ++ back

/-- A rule of this kind with a list of items, which stands under the id of the kind: commas between
the items and any blanks around each. -/
structure Lists (attributes : Attributes) (kind : Kind) (items : List String) : Prop where
  rule : attributes.kind = some kind
  nonempty : items ≠ []
  written : ∃ pieces, List.Forall₂ Pads items pieces ∧
    attributes.get kind.id = some (String.ofList ([','].intercalate pieces))

theorem Pads.trimChars {item : String} {piece : List Char} (pads : Pads item piece)
    (clean : IsItem item) : Text.trimChars piece = item.toList := by
  obtain ⟨front, back, blank, rfl⟩ := pads
  rw [Text.trimChars_append _ blank, Text.trimChars_of_edges clean.front clean.back]

theorem Pads.no_comma {item : String} {piece : List Char} (pads : Pads item piece)
    (clean : IsItem item) : ',' ∉ piece := by
  obtain ⟨front, back, blank, rfl⟩ := pads
  have visible : Text.isBlank ',' = false := by decide
  have around : ',' ∉ front ++ back := fun mem => by simp [blank _ mem] at visible
  rw [List.mem_append, not_or] at around
  simp [around, clean.no_comma]

/-- The items of a list are read back. -/
theorem Lists.list_eq {attributes : Attributes} {kind : Kind} {items : List String}
    (lists : attributes.Lists kind items) (clean : ∀ item ∈ items, IsItem item) :
    attributes.list kind.id = some items := by
  obtain ⟨_, nonempty, pieces, each, given⟩ := lists
  have some_piece : pieces ≠ [] := by
    rintro rfl
    exact nonempty (List.forall₂_nil_right_iff.mp each)
  have read : (∀ piece ∈ pieces, ',' ∉ piece) ∧
      pieces.map (fun piece => String.ofList (Text.trimChars piece)) = items := by
    clear given nonempty some_piece
    induction each with
    | nil => simp
    | @cons item piece items pieces pads _ ih =>
      obtain ⟨first, others⟩ := List.forall_mem_cons.mp clean
      obtain ⟨apart, trimmed⟩ := ih others
      refine ⟨List.forall_mem_cons.mpr ⟨pads.no_comma first, apart⟩, ?_⟩
      rw [List.map_cons, pads.trimChars first, String.ofList_toList, trimmed]
  rw [list, given, Option.map_some, String.toList_ofList,
    Text.split_intercalate read.1 some_piece, read.2]

theorem isItem_toString (n : Nat) : IsItem (toString n) := by
  have visible {c : Char} (mem : c ∈ (toString n).toList) : Text.isBlank c = false :=
    Text.isBlank_of_isDigit (Text.isDigit_of_mem_toString mem)
  constructor
  case no_comma => exact fun mem => absurd (Text.isDigit_of_mem_toString mem) (by decide)
  case front => exact fun c head => visible (List.mem_of_head? head)
  case back => exact fun c last => visible (List.mem_of_getLast? last)

theorem Lists.ids_eq {attributes : Attributes} {kind : Kind} {ids : List Nat}
    (lists : attributes.Lists kind (ids.map toString)) :
    attributes.list kind.id = some (ids.map toString) := by
  refine lists.list_eq fun item mem => ?_
  obtain ⟨id, _, rfl⟩ := List.mem_map.mp mem
  exact isItem_toString id

end Attributes

namespace Audience

open Attributes (IsItem)

variable {attributes : Attributes} {visitor : Visitor}

/-- The id of the user who is logged in, 0 if nobody is. -/
def idOf (visitor : Visitor) : Nat := (visitor.user.map User.id).getD 0

theorem contains_userId (ids : List Nat) :
    (ids.map toString).contains visitor.userId = decide (idOf visitor ∈ ids) := by
  have injective : Function.Injective (toString : Nat → String) := fun _ _ => Nat.repr_injective
  rw [Bool.eq_iff_iff, List.contains_iff_mem, decide_eq_true_iff]
  exact List.mem_map_of_injective injective

theorem hides_of_selected {ids : List Nat} (policy : Policy)
    (lists : attributes.Lists .selectedUsers (ids.map toString)) :
    policy.hides attributes visitor = !decide (idOf visitor ∈ ids) := by
  have read : attributes.list "selected_users" = some (ids.map toString) := lists.ids_eq
  rw [Policy.hides, lists.rule]
  simp only [hiddenBySelection, read, contains_userId]

theorem hides_of_discarded {ids : List Nat} (policy : Policy)
    (lists : attributes.Lists .discardedUsers (ids.map toString)) :
    policy.hides attributes visitor = decide (idOf visitor ∈ ids) := by
  have read : attributes.list "discarded_users" = some (ids.map toString) := lists.ids_eq
  rw [Policy.hides, lists.rule]
  simp only [hiddenByDiscard, read, contains_userId]

theorem hides_of_roles {roles : List String} (policy : Policy)
    (lists : attributes.Lists .selectedUserRoles roles)
    (clean : ∀ role ∈ roles, role ≠ "" ∧ IsItem role) :
    policy.hides attributes visitor = false ↔
      ∃ user, visitor.user = some user ∧ ∃ role ∈ user.roles, role ∈ roles := by
  have read : attributes.list "selected_user_roles" = some roles :=
    lists.list_eq fun role mem => (clean role mem).2
  rw [Policy.hides, lists.rule]
  simp only [hiddenByRoles, read]
  cases visitor.user with
  | none => simp
  | some user =>
    -- A role that is listed has a name.
    have named (role : String) : (role ≠ "" ∧ role ∈ roles) ↔ role ∈ roles :=
      and_iff_right_of_imp fun mem => (clean role mem).1
    simp [named]

/-- A visitor whose id is listed is let through where ids are selected and kept out where they are
discarded, so that just one of two such elements is shown. A list of roles asks for a user who has
one of them, whatever other roles the user has. -/
theorem hides_iff_listed (policy : Policy) (visitor : Visitor) :
    (∀ (attributes : Attributes) (ids : List Nat),
      attributes.Lists .selectedUsers (ids.map toString) →
      (policy.hides attributes visitor = true ↔ idOf visitor ∉ ids)) ∧
    (∀ (attributes : Attributes) (ids : List Nat),
      attributes.Lists .discardedUsers (ids.map toString) →
      (policy.hides attributes visitor = true ↔ idOf visitor ∈ ids)) ∧
    (∀ (selected discarded : Attributes) (ids : List Nat),
      selected.Lists .selectedUsers (ids.map toString) →
      discarded.Lists .discardedUsers (ids.map toString) →
      policy.hides selected visitor = !policy.hides discarded visitor) ∧
    ∀ (attributes : Attributes) (roles : List String),
      attributes.Lists .selectedUserRoles roles →
      (∀ role ∈ roles, role ≠ "" ∧ IsItem role) →
      (policy.hides attributes visitor = false ↔
        ∃ user, visitor.user = some user ∧ ∃ role ∈ user.roles, role ∈ roles) := by
  refine ⟨?_, ?_, ?_, ?_⟩
  · intro attributes ids lists
    simp [hides_of_selected policy lists]
  · intro attributes ids lists
    simp [hides_of_discarded policy lists]
  · intro selected discarded ids lists lists'
    rw [hides_of_selected policy lists, hides_of_discarded policy lists']
  · exact fun attributes roles => hides_of_roles policy

def listing (kind : Kind) (pieces : List (List Char)) : Attributes :=
  .ofEntries [("showfor", kind.id), (kind.id, String.ofList ([','].intercalate pieces))]

theorem lists_listing {kind : Kind} {items : List String} {pieces : List (List Char)}
    (nonempty : items ≠ []) (pads : List.Forall₂ Attributes.Pads items pieces) :
    (listing kind pieces).Lists kind items := by
  have get (key : String) : (listing kind pieces).get key =
      [(kind.id, String.ofList ([','].intercalate pieces)), ("showfor", kind.id)].lookup key :=
    Dictionary.getElem?_ofEntries _ key
  refine ⟨?_, nonempty, pieces, pads, by rw [get]; simp⟩
  have other : ("showfor" == kind.id) = false := by cases kind <;> decide
  have id : (listing kind pieces).kindId = kind.id := by
    rw [Attributes.kindId, get]
    simp [Attributes.kindKey, List.lookup_cons, other]
  rw [Attributes.kind, id]
  cases kind <;> decide

/-- The greatest id, the one of visitors who are not logged in and another, and roles of which one
has a blank inside. A role that only looks like listed ones does not count. -/
theorem hides_iff_listed_spaced :
    let visitor (user : Option User) : Visitor :=
      { Visitor.anonymous (.ofDate ⟨2024, 3, 6⟩ 12 30 0 0) with user }
    let hidden (kind : Kind) (pieces : List String) (user : Option User) : Bool :=
      (Policy.ofPredicates ∅).hides (listing kind (pieces.map String.toList)) (visitor user)
    let ids := ["\n18446744073709551615\t", "\u20030", " 42"]
    let roles := [" editor ", "shop manager"]
    hidden .selectedUsers ids none = false ∧ hidden .discardedUsers ids none = true ∧
      hidden .selectedUsers ids (some ⟨18446744073709551614, []⟩) = true ∧
      hidden .selectedUserRoles roles (some ⟨1, ["", "a,b", "shop manager"]⟩) = false ∧
      hidden .selectedUserRoles roles (some ⟨1, ["", " editor ", "editor,shop manager"]⟩) = true := by
  intro visitor hidden ids roles
  have numbers (kind : Kind) : (listing kind (ids.map String.toList)).Lists kind
      ([18446744073709551615, 0, 42].map toString) := by
    refine lists_listing (by decide) (.cons ⟨['\n'], ['\t'], by decide, by decide⟩ (.cons ?_ ?_))
    · exact ⟨['\u2003'], [], by decide, by decide⟩
    · exact .cons ⟨[' '], [], by decide, by decide⟩ .nil
  have names : (listing .selectedUserRoles (roles.map String.toList)).Lists .selectedUserRoles
      ["editor", "shop manager"] := by
    refine lists_listing (by decide) (.cons ⟨[' '], [' '], by decide, by decide⟩ (.cons ?_ .nil))
    exact ⟨[], [], by decide, by decide⟩
  have clean : ∀ role ∈ ["editor", "shop manager"], role ≠ "" ∧ IsItem role := by
    simp only [List.forall_mem_cons]
    refine ⟨⟨by decide, by decide, ?_, ?_⟩, ⟨by decide, by decide, ?_, ?_⟩, nofun⟩ <;>
      · rintro c ⟨⟩
        decide
  have listed (user : Option User) := hides_iff_listed (.ofPredicates ∅) (visitor user)
  refine ⟨?_, ?_, ?_, ?_, ?_⟩
  · rw [Bool.eq_false_iff, ne_eq, (listed none).1 _ _ (numbers _)]
    decide
  · rw [(listed none).2.1 _ _ (numbers _)]
    decide
  · rw [(listed _).1 _ _ (numbers _)]
    decide
  · rw [(listed _).2.2.2 _ _ names clean]
    decide
  · rw [← Bool.not_eq_false, (listed _).2.2.2 _ _ names clean]
    decide

end Audience

end VisibilityRules
