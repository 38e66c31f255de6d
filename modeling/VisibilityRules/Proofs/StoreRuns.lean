import VisibilityRules.Proofs.Posts

set_option autoImplicit false

/-!
Stores of posts in use. Posts are read, written and stripped, one step after the other. A store in
memory keeps the posts it began with and counts its writes, and a post reads as it was last written.
-/
namespace VisibilityRules

inductive StoreStep where
  | read (post : String)
  | write (post content : String)
  | strip (policy : Policy) (visitor : Visitor) (switches : Switches) (post : String)

inductive StoreReply where
  | content (text : String)
  | written
  | stripped (changed : Bool)
  deriving DecidableEq, Repr

structure StoreEvent (σ : Type) where
  step : StoreStep
  before : σ
  reply : Except StoreError StoreReply
  after : σ

namespace StoreStep

variable {σ : Type} [PostStore σ]

def post : StoreStep → String
  | read post | write post _ | strip _ _ _ post => post

def perform (step : StoreStep) (store : σ) : Except StoreError StoreReply × σ :=
  -- What a step answers, and the store behind it: a step that fails has changed nothing.
  match step with
  | read post => ((PostStore.read store post).map .content, store)
  | write post content =>
    match PostStore.write store post content with
    | .ok written => (.ok .written, written)
    | .error e => (.error e, store)
  | strip policy visitor switches post =>
    match stripPost policy visitor switches store post with
    | .ok (changed, stripped) => (.ok (.stripped changed), stripped)
    | .error e => (.error e, store)

def event (step : StoreStep) (store : σ) : StoreEvent σ :=
  ⟨step, store, (step.perform store).1, (step.perform store).2⟩

def events (store : σ) : List StoreStep → List (StoreEvent σ)
  | [] => []
  | step :: steps => step.event store :: events (step.event store).after steps

def storeAfter (store : σ) (steps : List StoreStep) : σ :=
  steps.foldl (fun store step => (step.event store).after) store

@[simp] theorem step_event (step : StoreStep) (store : σ) : (step.event store).step = step := rfl

@[simp] theorem before_event (step : StoreStep) (store : σ) : (step.event store).before = store := rfl

theorem events_append (store : σ) (front back : List StoreStep) :
    events store (front ++ back) =
      events store front ++ events (storeAfter store front) back := by
  induction front generalizing store with
  | nil => rfl
  | cons step front ih => exact congrArg (step.event store :: ·) (ih _)

/-- Every event of a run is that of a step, performed on what the earlier steps have left. -/
theorem exists_step_of_events {store : σ} {steps : List StoreStep}
    {earlier later : List (StoreEvent σ)} {event : StoreEvent σ}
    (run : events store steps = earlier ++ event :: later) :
    ∃ front step back, steps = front ++ step :: back ∧ earlier = events store front ∧
      event = step.event (storeAfter store front) := by
  induction steps generalizing store earlier with
  | nil => simp [events] at run
  | cons step steps ih =>
    cases earlier with
    | nil => exact ⟨[], step, steps, rfl, rfl, (List.cons.inj run).1.symm⟩
    | cons first earlier =>
      obtain ⟨rfl, rest⟩ := List.cons.inj run
      obtain ⟨front, next, back, rfl, rfl, rfl⟩ := ih rest
      exact ⟨step :: front, next, back, rfl, rfl, rfl⟩

end StoreStep

namespace StoreEvent

variable {σ : Type} [PostStore σ]

/-- The step was a write, and succeeded. -/
def isWrite (e : StoreEvent σ) : Bool :=
  match e.step, e.reply with
  | .write _ _, .ok _ => true
  | _, _ => false

/-- The step was a pass over a post, and has changed it. -/
def isRewrite (e : StoreEvent σ) : Bool :=
  match e.step, e.reply with
  | .strip _ _ _ _, .ok (.stripped true) => true
  | _, _ => false

/-- The text that has been written into a post: that of a write, or what a pass has left of the
text it found. -/
def put? (post : String) (e : StoreEvent σ) : Option String :=
  match e.step, e.reply with
  | .write own content, .ok _ => if own = post then some content else none
  | .strip policy visitor switches own, .ok (.stripped true) =>
    if own = post then
      (PostStore.read e.before own).toOption.map (Content.stripAdvanced policy visitor switches)
    else none
  | _, _ => none

end StoreEvent

/-! ### Posts in memory -/

namespace MemoryStore

open StoreStep

/-- What can happen in a step on posts in memory. -/
inductive Happens : StoreEvent MemoryStore → Prop
  | missing {s : MemoryStore} {step : StoreStep} (none : s.posts[step.post]? = none) :
    Happens ⟨step, s, .error (.notFound step.post), s⟩
  | read {s : MemoryStore} {post text : String} (held : s.posts[post]? = some text) :
    Happens ⟨.read post, s, .ok (.content text), s⟩
  | write {s : MemoryStore} {post text : String} (held : s.posts[post]? = some text)
    (content : String) :
    Happens ⟨.write post content, s, .ok .written, ⟨s.posts.insert post content, s.writes + 1⟩⟩
  | idle {s : MemoryStore} {post text : String} {policy : Policy} {visitor : Visitor}
    {switches : Switches} (held : s.posts[post]? = some text)
    (visible : ¬ Content.HasHidden policy visitor switches text) :
    Happens ⟨.strip policy visitor switches post, s, .ok (.stripped false), s⟩
  | rewrite {s : MemoryStore} {post text : String} {policy : Policy} {visitor : Visitor}
    {switches : Switches} (held : s.posts[post]? = some text)
    (hidden : Content.HasHidden policy visitor switches text) :
    Happens ⟨.strip policy visitor switches post, s, .ok (.stripped true),
      ⟨s.posts.insert post (Content.stripAdvanced policy visitor switches text), s.writes + 1⟩⟩

theorem read_eq (s : MemoryStore) (post : String) :
    PostStore.read s post = match s.posts[post]? with
      | some text => .ok text
      | none => .error (.notFound post) := rfl

theorem write_eq (s : MemoryStore) (post content : String) :
    PostStore.write s post content =
      if s.posts[post]?.isSome then .ok ⟨s.posts.insert post content, s.writes + 1⟩
      else .error (.notFound post) := by
  rw [← Std.ExtTreeMap.contains_eq_isSome_getElem?]
  rfl

theorem mem_of_held {s : MemoryStore} {post text : String} (held : s.posts[post]? = some text) :
    post ∈ s.posts :=
  Std.ExtTreeMap.isSome_getElem?_iff_mem.mp (Option.isSome_of_eq_some held)

theorem happens_event (step : StoreStep) (s : MemoryStore) : Happens (step.event s) := by
  cases held : s.posts[step.post]? with
  | none =>
    have outcome : step.perform s = (.error (.notFound step.post), s) := by
      cases step with
      | read post => simp_all [perform, read_eq, Except.map, StoreStep.post]
      | write post content => simp_all [perform, write_eq, StoreStep.post]
      | strip policy visitor switches post =>
        have refused : stripPost policy visitor switches s post = .error (.notFound post) := by
          have missing : PostStore.read s post = .error (.notFound post) := by
            simp_all [read_eq, StoreStep.post]
          rw [stripPost, missing]
          rfl
        simp [perform, refused, StoreStep.post]
    rw [event, outcome]
    exact .missing held
  | some text =>
    cases step with
    | read post =>
      change s.posts[post]? = some text at held
      have stored : PostStore.read s post = .ok text := by rw [read_eq, held]
      rw [event, perform, stored]
      exact .read held
    | write post content =>
      change s.posts[post]? = some text at held
      simp only [event, perform, write_eq, held, Option.isSome_some, if_true]
      exact .write held content
    | strip policy visitor switches post =>
      change s.posts[post]? = some text at held
      have stored : PostStore.read s post = .ok text := by rw [read_eq, held]
      by_cases hidden : Content.HasHidden policy visitor switches text
      next =>
        simp only [event, perform, stripPost_of_hidden stored hidden, write_eq, held,
          Option.isSome_some, if_true, Except.map]
        exact .rewrite held hidden
      next =>
        simp only [event, perform, stripPost_of_not_hidden stored hidden]
        exact .idle held hidden

section

variable {e : StoreEvent MemoryStore} (happens : Happens e)
include happens

theorem posts_after (post : String) :
    e.after.posts[post]? = (e.put? post).or e.before.posts[post]? := by
  cases happens with
  | @missing _ step none => cases step <;> rfl
  | read | idle => rfl
  | @write s own text held content =>
    by_cases same : own = post
    next => simp [StoreEvent.put?, same]
    next => simp [StoreEvent.put?, same, Std.ExtTreeMap.getElem?_insert]
  | @rewrite s own text policy visitor switches held hidden =>
    have stored : PostStore.read s own = .ok text := by rw [read_eq, held]
    by_cases same : own = post
    next =>
      subst same
      simp [StoreEvent.put?, stored, Except.toOption]
    next => simp [StoreEvent.put?, same, Std.ExtTreeMap.getElem?_insert]

theorem mem_after (post : String) : post ∈ e.after.posts ↔ post ∈ e.before.posts := by
  cases happens with
  | missing | read | idle => rfl
  | write held | rewrite held =>
    simp only [Std.ExtTreeMap.mem_insert, Std.LawfulEqCmp.compare_eq_iff_eq, or_iff_right_iff_imp]
    exact fun same => same ▸ mem_of_held held

theorem writes_after :
    e.after.writes = e.before.writes + (e.isWrite.toNat + e.isRewrite.toNat) := by
  cases happens with
  | @missing _ step none => cases step <;> rfl
  | read | write | idle | rewrite => rfl

theorem posts_after_of_other {other : String} (apart : other ≠ e.step.post) :
    e.after.posts[other]? = e.before.posts[other]? := by
  cases happens with
  | missing | read | idle => rfl
  | write | rewrite => simp_all [Std.ExtTreeMap.getElem?_insert, StoreStep.post, Ne.symm]

theorem reply_of_mem (mem : e.step.post ∈ e.before.posts) : ∃ reply, e.reply = .ok reply := by
  cases happens with
  | missing none => simp_all
  | read | write | idle | rewrite => exact ⟨_, rfl⟩

theorem refused_of_not_mem (absent : e.step.post ∉ e.before.posts) :
    e.reply = .error (.notFound e.step.post) ∧ e.after = e.before := by
  cases happens with
  | missing => exact ⟨rfl, rfl⟩
  | read held | write held | idle held | rewrite held => exact absurd (mem_of_held held) absent

theorem reply_read {post text : String} (reads : e.step = .read post)
    (held : e.before.posts[post]? = some text) : e.reply = .ok (.content text) := by
  cases happens with
  | missing none => simp_all [StoreStep.post]
  | read => simp_all
  | write | idle | rewrite => exact nomatch reads

end

/-! ### Runs -/

section

variable (s : MemoryStore) (steps : List StoreStep)

theorem posts_storeAfter (post : String) :
    (storeAfter s steps).posts[post]? =
      ((events s steps).filterMap (·.put? post)).getLast?.or s.posts[post]? := by
  induction steps generalizing s with
  | nil => rfl
  | cons step steps ih =>
    have first := posts_after (happens_event step s) post
    have whole : storeAfter s (step :: steps) = storeAfter (step.event s).after steps := rfl
    rw [whole, ih, first, events, List.filterMap_cons]
    cases (step.event s).put? post with
    | none => rfl
    | some text => simp [List.getLast?_cons]

theorem mem_storeAfter (post : String) : post ∈ (storeAfter s steps).posts ↔ post ∈ s.posts := by
  induction steps generalizing s with
  | nil => rfl
  | cons step steps ih => exact (ih _).trans (mem_after (happens_event step s) post)

theorem writes_storeAfter :
    (storeAfter s steps).writes =
      s.writes + ((events s steps).countP (·.isWrite) + (events s steps).countP (·.isRewrite)) := by
  induction steps generalizing s with
  | nil => rfl
  | cons step steps ih =>
    have first := writes_after (happens_event step s)
    have whole : storeAfter s (step :: steps) = storeAfter (step.event s).after steps := rfl
    rw [whole, ih, first, events, List.countP_cons, List.countP_cons, before_event]
    cases (step.event s).isWrite <;> cases (step.event s).isRewrite <;> simp <;> omega

end

/-- Over a run the posts stay the ones of the start, and writes and passes that change a post are
counted. What is read is what has been written last, be it by a write or by a pass. A step touches
no other post, and it fails just if there has been no such post at the start: then it changes
nothing. -/
theorem run_counts_writes (posts : Dictionary String) (steps : List StoreStep) :
    let run := events (ofPosts posts) steps
    let last := storeAfter (ofPosts posts) steps
    (∀ post, post ∈ last.posts ↔ post ∈ posts) ∧
    last.writes = run.countP (·.isWrite) + run.countP (·.isRewrite) ∧
    ∀ earlier event later, run = earlier ++ event :: later →
      (∀ post initial, event.step = .read post → posts[post]? = some initial →
        event.reply =
          .ok (.content ((earlier.filterMap (·.put? post)).getLast?.getD initial))) ∧
      (∀ other, other ≠ event.step.post →
        event.after.posts[other]? = event.before.posts[other]?) ∧
      (event.step.post ∈ posts → ∃ reply, event.reply = .ok reply) ∧
      (event.step.post ∉ posts →
        event.reply = .error (.notFound event.step.post) ∧ event.after = event.before) := by
  intro run last
  refine ⟨mem_storeAfter (ofPosts posts) steps, ?_, ?_⟩
  · exact (writes_storeAfter (ofPosts posts) steps).trans (Nat.zero_add _)
  intro earlier event later split
  obtain ⟨front, step, back, rfl, rfl, rfl⟩ := exists_step_of_events split
  have happens := happens_event step (storeAfter (ofPosts posts) front)
  have same (post : String) : post ∈ (storeAfter (ofPosts posts) front).posts ↔ post ∈ posts :=
    mem_storeAfter (ofPosts posts) front post
  refine ⟨fun post initial reads held => ?_, fun other => posts_after_of_other happens,
    fun mem => reply_of_mem happens ((same _).mpr mem),
    fun absent => refused_of_not_mem happens (mt (same _).mp absent)⟩
  apply reply_read happens reads
  have standing := posts_storeAfter (ofPosts posts) front post
  rw [before_event, standing, ofPosts, held, Option.or_some]

theorem run_counts_writes_interleaved :
    let posts : Dictionary String := .ofEntries [("a", "old"), ("b", "kept")]
    let switches : Switches := ⟨∅, .ofEntries [("tag", "on")]⟩
    let steps : List StoreStep :=
      [.write "a" "x[tag showfor=\"logged_in\"/]é",
        .strip (.ofPredicates ∅) (.anonymous ⟨0, 0⟩) switches "a", .write "c" "new",
        .strip (.ofPredicates ∅) (.anonymous ⟨0, 0⟩) switches "b", .read "a"]
    ∃ earlier event, events (ofPosts posts) steps = earlier ++ [event] ∧
      posts["a"]? = some "old" ∧ event.reply = .ok (.content "xé") ∧
      (storeAfter (ofPosts posts) steps).writes = 2 := by
  intro posts switches steps
  have held : posts["a"]? = some "old" := by decide +kernel
  have facts := run_counts_writes posts steps
  let earlier := events (ofPosts posts) (steps.take 4)
  let event := StoreStep.event (.read "a") (storeAfter (ofPosts posts) (steps.take 4))
  have split : events (ofPosts posts) steps = earlier ++ [event] :=
    events_append (ofPosts posts) (steps.take 4) [.read "a"]
  have last : (earlier.filterMap (·.put? "a")).getLast?.getD "old" = "xé" := by decide +kernel
  have counted : (events (ofPosts posts) steps).countP (·.isWrite) = 1 ∧
      (events (ofPosts posts) steps).countP (·.isRewrite) = 1 := by decide +kernel
  have reply := (facts.2.2 earlier event [] split).1 "a" "old" rfl held
  rw [last] at reply
  refine ⟨earlier, event, split, held, reply, ?_⟩
  rw [facts.2.1, counted.1, counted.2]

end MemoryStore

end VisibilityRules
