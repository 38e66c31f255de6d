import VisibilityRules.Content.Post
import VisibilityRules.Proofs.Advanced
import VisibilityRules.Proofs.Files

set_option autoImplicit false

/-!
Stripping posts in place. A pass changes a text just if an advanced element stands hidden in it, and
then makes it shorter, so that passes over one post come to an end.
-/
namespace VisibilityRules

/-! ### What a pass changes -/

namespace Content

open Shortcode

variable (policy : Policy) (visitor : Visitor) (switches : Switches)

/-- An advanced element stands in the text itself, is live and is hidden. -/
def HasHidden (text : String) : Prop :=
  ∃ element ∈ switches.advancedElements, ∃ o ∈ findAll element text,
    isHidden policy visitor o = true

theorem stripEach_sublist (elements : List String) (text : String) :
    (stripEach policy visitor elements text).toList.Sublist text.toList := by
  induction elements generalizing text with
  | nil => exact .refl _
  | cons element elements ih => exact (ih _).trans (strip_sublist policy visitor element text)

/-- No element puts back what another has cut out. -/
theorem stripEach_eq_self_iff (elements : List String) (text : String) :
    stripEach policy visitor elements text = text ↔
      ∀ element ∈ elements, strip policy visitor element text = text := by
  induction elements with
  | nil => exact iff_of_true rfl nofun
  | cons element elements ih =>
    have unfolded : stripEach policy visitor (element :: elements) text =
      stripEach policy visitor elements (strip policy visitor element text) := rfl
    rw [List.forall_mem_cons, unfolded]
    constructor
    · intro same
      have first : strip policy visitor element text = text := by
        have later := stripEach_sublist policy visitor elements (strip policy visitor element text)
        rw [same] at later
        exact String.toList_inj.mp ((strip_sublist policy visitor element text).antisymm later)
      rw [first] at same
      exact ⟨first, ih.mp same⟩
    · intro ⟨first, others⟩
      rw [first]
      exact ih.mpr others

theorem stripAdvanced_sublist (text : String) :
    (stripAdvanced policy visitor switches text).toList.Sublist text.toList :=
  stripEach_sublist policy visitor switches.advancedElements text

theorem stripAdvanced_eq_self_iff (text : String) :
    stripAdvanced policy visitor switches text = text ↔
      ¬ HasHidden policy visitor switches text := by
  rw [stripAdvanced_eq, stripEach_eq_self_iff, HasHidden]
  simp only [strip_eq_self_iff, not_exists, not_and, Bool.not_eq_true]

instance (text : String) : Decidable (HasHidden policy visitor switches text) :=
  inferInstanceAs (Decidable (∃ element ∈ switches.advancedElements,
    ∃ o ∈ findAll element text, isHidden policy visitor o = true))

variable {policy visitor switches}

theorem length_stripAdvanced_lt {text : String} (hidden : HasHidden policy visitor switches text) :
    (stripAdvanced policy visitor switches text).length < text.length := by
  have kept := stripAdvanced_sublist policy visitor switches text
  have changed : ¬ stripAdvanced policy visitor switches text = text :=
    fun same => (stripAdvanced_eq_self_iff ..).mp same hidden
  rw [← String.length_toList, ← String.length_toList]
  refine Nat.lt_of_le_of_ne kept.length_le fun same => changed ?_
  exact String.toList_inj.mp (kept.eq_of_length same)

end Content

/-! ### Stores -/

/-- A store in which a post that can be read can also be written, and reads as written. -/
class LawfulPostStore (σ : Type) [PostStore σ] : Prop where
  exists_write : ∀ {store : σ} {post content : String}, PostStore.read store post = .ok content →
    ∀ new : String, ∃ store', PostStore.write store post new = .ok store'
  read_of_write : ∀ {store store' : σ} {post new : String},
    PostStore.write store post new = .ok store' → PostStore.read store' post = .ok new

theorem MemoryStore.read_eq_ok_iff {store : MemoryStore} {post content : String} :
    store.read post = .ok content ↔ store.posts[post]? = some content := by
  unfold read
  split
  next held => simp [held]
  next missing => simp [missing]

theorem MemoryStore.write_eq_ok_iff {store store' : MemoryStore} {post content : String} :
    store.write post content = .ok store' ↔
      store.posts.contains post = true ∧
        store' = ⟨store.posts.insert post content, store.writes + 1⟩ := by
  unfold write
  split
  next held => simp [held, eq_comm]
  next missing => simp [missing]

instance : LawfulPostStore MemoryStore where
  exists_write := by
    intro store post content stored new
    have held := MemoryStore.read_eq_ok_iff.mp stored
    refine ⟨_, MemoryStore.write_eq_ok_iff.mpr ⟨?_, rfl⟩⟩
    rw [Std.ExtTreeMap.contains_eq_isSome_getElem?, held]
    rfl
  read_of_write := by
    intro store store' post new written
    obtain ⟨_, rfl⟩ := MemoryStore.write_eq_ok_iff.mp written
    exact MemoryStore.read_eq_ok_iff.mpr Std.ExtTreeMap.getElem?_insert_self

theorem FileStore.read_eq_ok_iff {store : FileStore} {post content : String} :
    store.read post = .ok content ↔
      ∃ path, store.pathOf post = .ok path ∧ store.tree.read path = .ok content := by
  unfold read
  cases store.pathOf post with
  | error e => exact ⟨nofun, nofun⟩
  | ok path =>
    cases found : store.tree.read path with
    | ok text => simp [ok_bind, found]
    | error e => cases e <;> simp [ok_bind, found]

theorem FileStore.write_eq_ok_iff {store store' : FileStore} {post content : String} :
    store.write post content = .ok store' ↔
      ∃ path tree, store.pathOf post = .ok path ∧ store.tree.write path content = .ok tree ∧
        store' = ⟨store.root, tree⟩ := by
  unfold write
  cases store.pathOf post with
  | error e => exact ⟨nofun, nofun⟩
  | ok path =>
    cases written : store.tree.write path content with
    | ok tree => simp [ok_bind, written, eq_comm]
    | error e => simp [ok_bind, written]

instance : LawfulPostStore FileStore where
  exists_write := by
    intro store post content stored new
    obtain ⟨path, named, read⟩ := FileStore.read_eq_ok_iff.mp stored
    obtain ⟨tree, written⟩ := Tree.exists_write_of_read read new
    exact ⟨_, FileStore.write_eq_ok_iff.mpr ⟨path, tree, named, written, rfl⟩⟩
  read_of_write := by
    intro store store' post new written
    obtain ⟨path, tree, named, put, rfl⟩ := FileStore.write_eq_ok_iff.mp written
    exact FileStore.read_eq_ok_iff.mpr ⟨path, named, Tree.read_of_write put⟩

/-! ### Passes over a stored post -/

section

variable {σ : Type} [PostStore σ] {policy : Policy} {visitor : Visitor} {switches : Switches}
  {store : σ} {post text : String}

theorem stripPost_of_hidden (stored : PostStore.read store post = .ok text)
    (hidden : Content.HasHidden policy visitor switches text) :
    stripPost policy visitor switches store post =
      (PostStore.write store post (Content.stripAdvanced policy visitor switches text)).map
        (true, ·) := by
  have changed : ¬ Content.stripAdvanced policy visitor switches text = text :=
    fun same => (Content.stripAdvanced_eq_self_iff ..).mp same hidden
  simp only [stripPost, stored, ok_bind, if_neg changed]
  cases PostStore.write store post (Content.stripAdvanced policy visitor switches text) with
  | error e => rfl
  | ok store' => rfl

theorem stripPost_of_not_hidden (stored : PostStore.read store post = .ok text)
    (visible : ¬ Content.HasHidden policy visitor switches text) :
    stripPost policy visitor switches store post = .ok (false, store) := by
  have same := (Content.stripAdvanced_eq_self_iff ..).mpr visible
  simp only [stripPost, stored, ok_bind, if_pos same]

/-- A pass over a file changes no other one, and tells whether it has changed its own. -/
theorem fileAt_of_stripPost {store store' : FileStore} {changed : Bool}
    (done : stripPost policy visitor switches store post = .ok (changed, store')) :
    let own := store.tree.location (Path.join store.root post)
    (∀ l, l ≠ own → store'.tree.fileAt l = store.tree.fileAt l) ∧
      (store'.tree.fileAt own ≠ store.tree.fileAt own ↔ changed = true) := by
  intro own
  obtain ⟨text, stored, done⟩ := bind_eq_ok_iff.mp done
  obtain ⟨path, named, read⟩ := FileStore.read_eq_ok_iff.mp stored
  have path_eq : path = Path.join store.root post := by
    unfold FileStore.pathOf at named
    split at named
    next => exact nomatch named
    next => exact (Except.ok.inj named).symm
  simp only at done
  split at done
  next =>
    obtain ⟨rfl, rfl⟩ := Prod.mk.inj (Except.ok.inj done)
    simp
  next differs =>
    obtain ⟨store'', written, done⟩ := bind_eq_ok_iff.mp done
    obtain ⟨rfl, rfl⟩ := Prod.mk.inj (Except.ok.inj done)
    obtain ⟨path', tree, named', written, rfl⟩ := FileStore.write_eq_ok_iff.mp written
    obtain rfl := Except.ok.inj (named.symm.trans named')
    have after (l : Location) := Tree.fileAt_of_write written l
    rw [path_eq] at after
    refine ⟨fun l other => by rw [after, if_neg other], iff_of_true ?_ rfl⟩
    obtain ⟨bytes, found, decoded⟩ := Tree.read_eq_ok_iff.mp read
    have before := Tree.fileAt_of_find_file found
    rw [path_eq] at before
    rw [after, if_pos rfl, before]
    intro same
    have decoded_again := Text.Utf8.toString_ofString
      (Content.stripAdvanced policy visitor switches text)
    rw [Option.some.inj same, decoded] at decoded_again
    exact differs (Option.some.inj decoded_again).symm

/-- The answers of passes over one post, one after the other, and the store they leave. -/
def stripTimes (policy : Policy) (visitor : Visitor) (switches : Switches) (post : String) :
    Nat → σ → Except StoreError (List Bool × σ)
  | 0, store => .ok ([], store)
  | calls + 1, store => do
    let (changed, store) ← stripPost policy visitor switches store post
    let (later, store) ← stripTimes policy visitor switches post calls store
    .ok (changed :: later, store)

theorem stripTimes_of_not_hidden (stored : PostStore.read store post = .ok text)
    (visible : ¬ Content.HasHidden policy visitor switches text) (calls : Nat) :
    stripTimes policy visitor switches post calls store =
      .ok (List.replicate calls false, store) := by
  induction calls with
  | zero => rfl
  | succ calls ih =>
    simp only [stripTimes, stripPost_of_not_hidden stored visible, ih, ok_bind,
      List.replicate_succ]

/-- Every rewrite shortens the post, so that after some of them nothing is left to cut out. -/
theorem exists_rewrites [LawfulPostStore σ] (policy : Policy) (visitor : Visitor)
    (switches : Switches) {store : σ} {post text : String}
    (stored : PostStore.read store post = .ok text) :
    ∃ rewrites ≤ text.length, ∀ calls, ∃ store',
      stripTimes policy visitor switches post calls store =
        .ok (List.replicate (min calls rewrites) true ++ List.replicate (calls - rewrites) false,
          store') := by
  by_cases hidden : Content.HasHidden policy visitor switches text
  next =>
    -- What is written is shorter, and the passes that follow are passes over it.
    have shorter := Content.length_stripAdvanced_lt hidden
    obtain ⟨store', written⟩ := LawfulPostStore.exists_write stored
      (Content.stripAdvanced policy visitor switches text)
    obtain ⟨rewrites, few, answers⟩ :=
      exists_rewrites policy visitor switches (LawfulPostStore.read_of_write written)
    refine ⟨rewrites + 1, by omega, fun calls => ?_⟩
    cases calls with
    | zero => exact ⟨store, by simp [stripTimes]⟩
    | succ calls =>
      obtain ⟨last, later⟩ := answers calls
      refine ⟨last, ?_⟩
      simp only [stripTimes, stripPost_of_hidden stored hidden, written, Except.map, later, ok_bind,
        Nat.succ_min_succ, Nat.add_sub_add_right, List.replicate_succ, List.cons_append]
  next =>
    refine ⟨0, Nat.zero_le _, fun calls => ⟨store, ?_⟩⟩
    rw [stripTimes_of_not_hidden stored hidden, Nat.min_zero, Nat.sub_zero, List.replicate_zero,
      List.nil_append]
termination_by text.length

/-- A pass only takes characters away, and takes some just if an advanced element stands hidden in
the text itself. Exactly then a stored post is written, and passes over it leave it alone after at
most as many rewrites as it has characters. -/
theorem stripPost_rewrites_hidden [LawfulPostStore σ] (policy : Policy) (visitor : Visitor)
    (switches : Switches) :
    (∀ text : String,
      let stripped := Content.stripAdvanced policy visitor switches text
      stripped.toList.Sublist text.toList ∧
        (stripped = text ↔ ¬ Content.HasHidden policy visitor switches text) ∧
        (Content.HasHidden policy visitor switches text → stripped.length < text.length)) ∧
    ∀ (store : σ) (post text : String), PostStore.read store post = .ok text →
      (Content.HasHidden policy visitor switches text → ∃ store',
        PostStore.write store post (Content.stripAdvanced policy visitor switches text) =
            .ok store' ∧
          stripPost policy visitor switches store post = .ok (true, store')) ∧
      (¬ Content.HasHidden policy visitor switches text →
        stripPost policy visitor switches store post = .ok (false, store)) ∧
      ∃ rewrites ≤ text.length, ∀ calls, ∃ store',
        stripTimes policy visitor switches post calls store =
          .ok (List.replicate (min calls rewrites) true ++
            List.replicate (calls - rewrites) false, store') := by
  constructor
  · intro text
    exact ⟨Content.stripAdvanced_sublist .., Content.stripAdvanced_eq_self_iff ..,
      Content.length_stripAdvanced_lt⟩
  · intro store post text stored
    refine ⟨fun hidden => ?_, stripPost_of_not_hidden stored, exists_rewrites _ _ _ stored⟩
    obtain ⟨store', written⟩ := LawfulPostStore.exists_write stored
      (Content.stripAdvanced policy visitor switches text)
    refine ⟨store', written, ?_⟩
    rw [stripPost_of_hidden stored hidden, written]
    rfl

theorem stripPost_rewrites_hidden_in_memory :
    let text := "a[ad][tag showfor=\"logged_in\"/]"
    let store : MemoryStore := .ofPosts (.ofEntries [("post", text)])
    let switches : Switches := ⟨∅, .ofEntries [("ad", "on"), ("tag", "on")]⟩
    PostStore.read store "post" = .ok text ∧ ∃ store',
      stripPost (.ofPredicates ∅) (.anonymous ⟨0, 0⟩) switches store "post" =
        .ok (true, store') := by
  intro text store switches
  have stored : PostStore.read store "post" = .ok text := by decide +kernel
  have hidden : Content.HasHidden (.ofPredicates ∅) (.anonymous ⟨0, 0⟩) switches text := by
    decide +kernel
  obtain ⟨store', _, changed⟩ := ((stripPost_rewrites_hidden _ _ switches).2 store "post" text
    stored).1 hidden
  exact ⟨stored, store', changed⟩

end

end VisibilityRules
