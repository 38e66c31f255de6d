import VisibilityRules.Proofs.StoreRuns

set_option autoImplicit false

/-!
Posts in files. The id of a post is the rest of a path behind the root of its store. Ids that could
lead elsewhere are refused before any file is looked at, so a post lies below the root.
-/
namespace VisibilityRules

namespace Tree

/-- Where no name is a dot or two, every name leads one step down. -/
theorem foldl_descend {names : List String} (inner : ∀ name ∈ names, name ≠ "." ∧ name ≠ "..")
    (here : Location) : names.foldl descend here = here ++ names := by
  induction names generalizing here with
  | nil => simp
  | cons name names ih =>
    obtain ⟨⟨not_here, not_above⟩, inner⟩ := List.forall_mem_cons.mp inner
    simp [descend, not_here, not_above, ih inner]

theorem origin_congr (t : Tree) {path path' : String}
    (absolute : Path.isAbsolute path = Path.isAbsolute path') : t.origin path = t.origin path' := by
  rw [origin, origin, absolute]

end Tree

/-- What becomes known when the file of a post cannot be read. -/
def StoreError.ofReading (post : String) : FileError → StoreError
  | .notFound => .notFound post
  | e => .failed post e

namespace FileStore

/-- An id that leads down from the root, told from its pieces between the slashes. -/
structure IsInner (post : String) : Prop where
  nonempty : post ≠ ""
  relative : post.toList.head? ≠ some '/'
  no_parent : ".." ∉ Path.pieces post

variable {post : String} {s : FileStore}

theorem refuses_iff :
    (post = "" ∨ Path.isAbsolute post ∨ ".." ∈ Path.names post) ↔ ¬ IsInner post := by
  have parent : ".." ∈ Path.names post ↔ ".." ∈ Path.pieces post := by
    simp [Path.names]
  rw [parent, Path.isAbsolute, beq_iff_eq]
  constructor
  · rintro (empty | absolute | above) inner
    · exact inner.nonempty empty
    · exact inner.relative absolute
    · exact inner.no_parent above
  · intro outer
    by_contra none
    simp only [not_or] at none
    exact outer ⟨none.1, none.2.1, none.2.2⟩

theorem pathOf_of_inner (inner : IsInner post) (s : FileStore) :
    s.pathOf post = .ok (Path.join s.root post) :=
  if_neg (mt refuses_iff.mp (not_not_intro inner))

theorem pathOf_of_not_inner (outer : ¬ IsInner post) (s : FileStore) :
    s.pathOf post = .error (.invalidPost post) :=
  if_pos (refuses_iff.mpr outer)

theorem exists_pathOf_iff : (∃ path, s.pathOf post = .ok path) ↔ IsInner post := by
  constructor
  · intro ⟨path, taken⟩
    by_contra outer
    rw [pathOf_of_not_inner outer] at taken
    exact nomatch taken
  · exact fun inner => ⟨_, pathOf_of_inner inner s⟩

theorem perform_of_not_inner {step : StoreStep} (outer : ¬ IsInner step.post) (s : FileStore) :
    step.perform s = (.error (.invalidPost step.post), s) := by
  have refused := pathOf_of_not_inner outer s
  have unread : PostStore.read s step.post = .error (.invalidPost step.post) := by
    change s.read step.post = _
    simp only [read, refused]
    rfl
  cases step with
  | read post =>
    change PostStore.read s post = _ at unread
    simp [StoreStep.perform, unread, Except.map, StoreStep.post]
  | write post content =>
    have unwritten : PostStore.write s post content = .error (.invalidPost post) := by
      change s.write post content = _
      change s.pathOf post = _ at refused
      simp only [write, refused]
      rfl
    simp [StoreStep.perform, unwritten, StoreStep.post]
  | strip policy visitor switches post =>
    change PostStore.read s post = _ at unread
    have unstripped : stripPost policy visitor switches s post = .error (.invalidPost post) := by
      simp only [stripPost, unread]
      rfl
    simp [StoreStep.perform, unstripped, StoreStep.post]

theorem IsInner.isAbsolute (inner : IsInner post) : Path.isAbsolute post = false := by
  simpa [Path.isAbsolute] using inner.relative

theorem IsInner.steps (inner : IsInner post) : ∀ name ∈ Path.steps post, name ≠ "." ∧ name ≠ ".." := by
  intro name mem
  simp only [Path.steps_eq, List.mem_filter] at mem
  refine ⟨?_, ?_⟩
  · have step := mem.2
    simp [Path.isStep] at step
    exact step.2
  · rintro rfl
    exact inner.no_parent mem.1

theorem location_of_inner (inner : IsInner post) (t : Tree) (root : String) :
    t.location (Path.join root post) = t.location root ++ Path.steps post := by
  rw [Tree.location, Path.steps_join inner.isAbsolute, List.foldl_append,
    Tree.foldl_descend inner.steps,
    t.origin_congr (Path.isAbsolute_join inner.isAbsolute), Tree.location]

section

variable (inner : IsInner post) (s : FileStore)
include inner

theorem read_of_inner :
    s.read post = (s.tree.read (Path.join s.root post)).mapError (.ofReading post) := by
  simp only [read, pathOf_of_inner inner, ok_bind]
  cases s.tree.read (Path.join s.root post) with
  | ok text => rfl
  | error e => cases e <;> rfl

theorem write_of_inner (content : String) :
    s.write post content =
      ((s.tree.write (Path.join s.root post) content).map (FileStore.mk s.root)).mapError
        (.failed post) := by
  simp only [write, pathOf_of_inner inner, ok_bind]
  cases s.tree.write (Path.join s.root post) content <;> rfl

end

/-- A store of files takes an id just if it is not empty, does not begin with a slash and has no
piece that leads up. Reading and writing then go by a path whose steps are those of the root and
after them those of the id, so that no file outside the root is changed. Every other id is refused,
whatever files there are, and the store stays as it is. -/
theorem posts_lie_below_root (root post : String) :
    (∀ t : Tree, (∃ path, (FileStore.mk root t).pathOf post = .ok path) ↔ IsInner post) ∧
    (IsInner post → ∃ path,
      Path.steps path = Path.steps root ++ Path.steps post ∧
      Path.isAbsolute path = Path.isAbsolute root ∧
      ∀ t : Tree,
        t.location path = t.location root ++ Path.steps post ∧
        (FileStore.mk root t).read post = (t.read path).mapError (.ofReading post) ∧
        ∀ content,
          (FileStore.mk root t).write post content =
            ((t.write path content).map (FileStore.mk root)).mapError (.failed post) ∧
          ∀ t', t.write path content = .ok t' → ∀ l, ¬ t.location root <+: l →
            t'.fileAt l = t.fileAt l) ∧
    (¬ IsInner post → ∀ (t : Tree) (step : StoreStep), step.post = post →
      step.perform (FileStore.mk root t) = (.error (.invalidPost post), FileStore.mk root t)) := by
  refine ⟨fun t => exists_pathOf_iff, fun inner => ?_, ?_⟩
  · refine ⟨Path.join root post, Path.steps_join inner.isAbsolute,
      Path.isAbsolute_join inner.isAbsolute, fun t => ?_⟩
    have below := location_of_inner inner t root
    refine ⟨below, read_of_inner inner ⟨root, t⟩, fun content =>
      ⟨write_of_inner inner ⟨root, t⟩ content, fun t' written l outside => ?_⟩⟩
    rw [Tree.fileAt_of_write written, if_neg]
    rintro rfl
    exact outside (below ▸ List.prefix_append ..)
  · rintro outer t step rfl
    exact perform_of_not_inner outer ⟨root, t⟩

theorem posts_lie_below_root_dotted :
    let t : Tree := ⟨∅, ["home"]⟩
    IsInner "./..a//b/." ∧ ¬ IsInner "a/.../../../b" ∧
      (∃ path, Path.steps path = ["srv", "posts", "..a", "b"] ∧
        t.location path = ["srv", "posts", "..a", "b"]) ∧
      StoreStep.perform (.write "a/.../../../b" "text") (FileStore.mk "posts" t) =
        (.error (.invalidPost "a/.../../../b"), FileStore.mk "posts" t) := by
  intro t
  have inner : IsInner "./..a//b/." := ⟨by decide, by decide, by decide⟩
  have outer : ¬ IsInner "a/.../../../b" := by
    intro inner
    exact inner.no_parent (by decide)
  have down : Path.steps "/srv/./posts/" ++ Path.steps "./..a//b/." =
      ["srv", "posts", "..a", "b"] := by decide
  have root : t.location "/srv/./posts/" = Path.steps "/srv/./posts/" := by decide
  obtain ⟨path, steps, _, reached⟩ := (posts_lie_below_root "/srv/./posts/" _).2.1 inner
  refine ⟨inner, outer, ⟨path, steps.trans down, ?_⟩, ?_⟩
  · rw [(reached t).1, root, down]
  · exact (posts_lie_below_root "posts" _).2.2 outer t (.write _ "text") rfl

end FileStore

end VisibilityRules
