import VisibilityRules.Proofs.Editing
import VisibilityRules.Proofs.Grammar
import VisibilityRules.Proofs.LetterCase

set_option autoImplicit false

/-!
Settings after many edits. Each entry is the one that the last edit of it has written, or the one
that was there before. What asks for an edit is told from the key and the value alone, and all else
leaves the settings as they are.
-/
namespace VisibilityRules.Settings

/-- A single entry with its new value. -/
inductive Edit where
  | enabled (element : String) (state : EnabledState)
  | advanced (element : String) (on : Bool)
  | predicate (name : String) (value : Bool)
  deriving DecidableEq, Repr

/-- What an entry holds: a word, or the answer of a predicate. -/
inductive Entry where
  | word (text : String)
  | answer (value : Bool)
  deriving DecidableEq, Repr

def lookup? (s : Settings) : Key → Option Entry
  | .enabled element => s.switches.enabled[element]?.map .word
  | .advanced element => s.switches.advanced[element]?.map .word
  | .predicate name => s.predicates[name]?.map .answer

namespace Edit

def key : Edit → Key
  | enabled element _ => .enabled element
  | advanced element _ => .advanced element
  | predicate name _ => .predicate name

def entry : Edit → Entry
  | enabled _ state => .word state.word
  | advanced _ on => .word (if on then "on" else "off")
  | predicate _ value => .answer value

def apply (s : Settings) : Edit → Settings
  | enabled element state => { s with switches := s.switches.setEnabled element state }
  | advanced element on => { s with switches := s.switches.setAdvanced element on }
  | predicate name value => { s with predicates := s.predicates.insert name value }

theorem map_getElem_insert {α β : Type} (d : Dictionary α) (name other : String) (a : α)
    (f : α → β) :
    (d.insert name a)[other]?.map f = if name = other then some (f a) else d[other]?.map f := by
  rw [Std.ExtTreeMap.getElem?_insert]
  by_cases same : name = other <;> simp [same]

/-- An edit writes its own entry and no other. -/
theorem lookup_apply (edit : Edit) (s : Settings) (k : Key) :
    (edit.apply s).lookup? k = if edit.key = k then some edit.entry else s.lookup? k := by
  cases edit with
  | enabled element state =>
    cases k <;> simp [apply, Switches.setEnabled, lookup?, key, entry, map_getElem_insert]
  | advanced element on =>
    cases k <;> simp [apply, Switches.setAdvanced, lookup?, key, entry, map_getElem_insert]
  | predicate name value => cases k <;> simp [apply, lookup?, key, entry, map_getElem_insert]

end Edit

/-! ### The language of edits -/

/-- One of the words, each letter of it small or capital. -/
def Spells (words : List String) (value : String) : Prop :=
  ∃ word ∈ words, List.Forall₂ Text.SameLetter value.toList word.toList

def truthWords : Bool → List String
  | true => ["true", "1", "yes", "on"]
  | false => ["false", "0", "no", "off"]

def stateWords : EnabledState → List String
  | .disabled => ["disabled"]
  | .enabled => truthWords true
  | .default => truthWords false

inductive Asks : String → String → Edit → Prop
  | enabled {element value : String} {state : EnabledState} :
    Shortcode.IsName element.toList → Spells (stateWords state) value →
      Asks ("settings.enabled." ++ element) value (.enabled element state)
  | advanced {element value : String} {on : Bool} :
    Shortcode.IsName element.toList → Spells (truthWords on) value →
      Asks ("settings.advanced." ++ element) value (.advanced element on)
  | predicate {name value : String} {on : Bool} :
    name ≠ "" → '.' ∉ name.toList → Spells (truthWords on) value →
      Asks ("predicates." ++ name) value (.predicate name on)

section

variable {words : List String} {key value : String} {on : Bool} {state : EnabledState}
  {k : Key} {edit : Edit}

theorem spells_iff (small : ∀ word ∈ words, ∀ c ∈ word.toList, Text.IsWordChar c) :
    Spells words value ↔ Text.lower value ∈ words := by
  constructor
  · rintro ⟨word, mem, same⟩
    rw [(Text.lower_eq_iff (small word mem)).mpr same]
    exact mem
  · exact fun mem => ⟨_, mem, (Text.lower_eq_iff (small _ mem)).mp rfl⟩

theorem spells_truthWords_iff :
    Spells (truthWords on) value ↔ Text.lower value ∈ truthWords on :=
  spells_iff (by cases on <;> simp [truthWords, Text.IsWordChar])

theorem spells_stateWords_iff :
    Spells (stateWords state) value ↔ Text.lower value ∈ stateWords state :=
  spells_iff (by cases state <;> simp [stateWords, truthWords, Text.IsWordChar])

theorem truth_eq_some_iff : Text.truth? value = some on ↔ Text.lower value ∈ truthWords on := by
  rw [Text.truth?]
  generalize Text.lower value = word
  constructor
  · intro read
    split at read <;> simp_all [truthWords]
  · intro listed
    cases on
    all_goals
      simp only [truthWords, List.mem_cons, List.not_mem_nil, or_false] at listed
      rcases listed with rfl | rfl | rfl | rfl <;> rfl

theorem readTruth_eq_ok_iff : readTruth value = .ok on ↔ Spells (truthWords on) value := by
  rw [spells_truthWords_iff, ← truth_eq_some_iff, readTruth]
  split <;> simp_all

theorem readState_eq_ok_iff : readState value = .ok state ↔ Spells (stateWords state) value := by
  have truth (on : Bool) := @readTruth_eq_ok_iff value on
  simp only [spells_truthWords_iff] at truth
  rw [spells_stateWords_iff, readState]
  split
  next same => cases state <;> simp [stateWords, truthWords, same]
  next other =>
    cases read : readTruth value with
    | error e =>
      simp only [read, reduceCtorEq, false_iff] at truth
      cases state <;> simp [stateWords, truth, other, Except.map]
    | ok on =>
      simp only [read, Except.ok.injEq] at truth
      cases state <;> cases on <;> simp [stateWords, ← truth, other, Except.map]

end

/-! ### Keys -/

namespace Key

def parts : Key → List String
  | enabled element => ["settings", "enabled", element]
  | advanced element => ["settings", "advanced", element]
  | predicate name => ["predicates", name]

def front : Key → String
  | enabled _ => "settings.enabled."
  | advanced _ => "settings.advanced."
  | predicate _ => "predicates."

def name : Key → String
  | enabled element | advanced element | predicate element => element

def text (k : Key) : String := k.front ++ k.name

theorem intercalate_parts (k : Key) : ".".intercalate k.parts = k.text := by
  apply String.toList_inj.mp
  cases k <;> simp [parts, text, front, name]

variable {k : Key} {key : String}

theorem ofText_eq_some_iff_parts : Key.ofText? key = some k ↔
    (Text.split '.' key.toList).map String.ofList = k.parts ∧ k ≠ .predicate "" := by
  unfold Key.ofText?
  generalize (Text.split '.' key.toList).map String.ofList = pieces
  constructor
  · intro read
    split at read
    next element =>
      cases read
      exact ⟨rfl, nofun⟩
    next element =>
      cases read
      exact ⟨rfl, nofun⟩
    next name =>
      split at read
      next => exact nomatch read
      next nonempty =>
        cases read
        exact ⟨rfl, by simpa using nonempty⟩
    next => exact nomatch read
  · rintro ⟨rfl, nonempty⟩
    cases k with
    | enabled element => rfl
    | advanced element => rfl
    | predicate name => simpa [parts] using nonempty

theorem ofText_eq_some_iff : Key.ofText? key = some k ↔
    key = k.text ∧ '.' ∉ k.name.toList ∧ k ≠ .predicate "" := by
  have nonempty : k.parts ≠ [] := by cases k <;> exact List.cons_ne_nil _ _
  have free : (∀ part ∈ k.parts, '.' ∉ part.toList) ↔ '.' ∉ k.name.toList := by
    cases k <;> simp [parts, name]
  have dot : String.singleton '.' = "." := rfl
  rw [ofText_eq_some_iff_parts, Text.split_eq_iff nonempty, free, dot, intercalate_parts, and_assoc]

end Key

/-! ### Single calls -/

section

variable {s t : Settings} {key value : String} {edit : Edit}

theorem Asks.ofText (asks : Asks key value edit) : Key.ofText? key = some edit.key := by
  rw [Key.ofText_eq_some_iff]
  cases asks with
  | enabled named _ =>
    exact ⟨rfl, named.free (by decide), nofun⟩
  | advanced named _ =>
    exact ⟨rfl, named.free (by decide), nofun⟩
  | predicate nonempty free _ =>
    exact ⟨rfl, free, by simpa [Edit.key] using nonempty⟩

theorem set_of_asks (asks : Asks key value edit) (s : Settings) :
    s.set key value = .ok (edit.apply s) := by
  have read := asks.ofText
  cases asks with
  | enabled named spelled =>
    simp only [set, read, Edit.key, checkElement_eq_ok_iff.mpr (Shortcode.isName_iff.mp named),
      readState_eq_ok_iff.mpr spelled, ok_bind]
    rfl
  | advanced named spelled =>
    simp only [set, read, Edit.key, checkElement_eq_ok_iff.mpr (Shortcode.isName_iff.mp named),
      readTruth_eq_ok_iff.mpr spelled, ok_bind]
    rfl
  | predicate _ _ spelled =>
    simp only [set, read, Edit.key, readTruth_eq_ok_iff.mpr spelled, ok_bind]
    rfl

theorem exists_asks_of_set (done : s.set key value = .ok t) : ∃ edit, Asks key value edit := by
  unfold set at done
  split at done
  next element read =>
    obtain ⟨rfl, _⟩ := Key.ofText_eq_some_iff.mp read
    obtain ⟨_, checked, done⟩ := bind_eq_ok_iff.mp done
    obtain ⟨state, spelled, _⟩ := bind_eq_ok_iff.mp done
    have named := Shortcode.isName_iff.mpr (checkElement_eq_ok_iff.mp checked)
    exact ⟨_, .enabled named (readState_eq_ok_iff.mp spelled)⟩
  next element read =>
    obtain ⟨rfl, _⟩ := Key.ofText_eq_some_iff.mp read
    obtain ⟨_, checked, done⟩ := bind_eq_ok_iff.mp done
    obtain ⟨on, spelled, _⟩ := bind_eq_ok_iff.mp done
    have named := Shortcode.isName_iff.mpr (checkElement_eq_ok_iff.mp checked)
    exact ⟨_, .advanced named (readTruth_eq_ok_iff.mp spelled)⟩
  next name read =>
    obtain ⟨rfl, free, nonempty⟩ := Key.ofText_eq_some_iff.mp read
    obtain ⟨on, spelled, _⟩ := bind_eq_ok_iff.mp done
    have named : name ≠ "" := by simpa using nonempty
    exact ⟨.predicate name on, .predicate named free (readTruth_eq_ok_iff.mp spelled)⟩
  next => exact nomatch done

/-- Edits settings where they stand: what has been written stays, whatever fails after it. -/
def setInPlace (key value : String) : ExceptT EditError (StateM Settings) Unit :=
  match Key.ofText? key with
  | some (.enabled element) => do
    checkElement element
    let state ← readState value
    modify fun s => { s with switches := s.switches.setEnabled element state }
  | some (.advanced element) => do
    checkElement element
    let on ← readTruth value
    modify fun s => { s with switches := s.switches.setAdvanced element on }
  | some (.predicate name) => do
    let on ← readTruth value
    modify fun s => { s with predicates := s.predicates.insert name on }
  | none => throw (.unknownKey key)

/-- The answer of a call, and the settings it leaves. -/
def call (s : Settings) (key value : String) : Except EditError Unit × Settings :=
  (setInPlace key value).run.run s

theorem call_eq (s : Settings) (key value : String) : s.call key value =
    match s.set key value with
    | .ok t => (.ok (), t)
    | .error e => (.error e, s) := by
  unfold call setInPlace set
  cases Key.ofText? key with
  | none => rfl
  | some k =>
    -- Nothing is written until all the checks are through, in neither form.
    cases k with
    | enabled element =>
      dsimp only
      cases checkElement element <;> cases readState value <;> rfl
    | advanced element =>
      dsimp only
      cases checkElement element <;> cases readTruth value <;> rfl
    | predicate name =>
      dsimp only
      cases readTruth value <;> rfl

end

/-! ### Runs of calls -/

def afterCalls (s : Settings) : List (String × String) → Settings
  | [] => s
  | (key, value) :: calls => (s.call key value).2.afterCalls calls

def Untouched (k : Key) (calls : List (String × String)) : Prop :=
  ∀ c ∈ calls, ∀ edit, Asks c.1 c.2 edit → edit.key ≠ k

/-- One of the calls asks for the edit, and no later one for an edit of the same entry. -/
def IsLastEdit (calls : List (String × String)) (edit : Edit) : Prop :=
  ∃ before key value after, calls = before ++ (key, value) :: after ∧
    Asks key value edit ∧ Untouched edit.key after

section

variable {s : Settings} {key value : String} {calls : List (String × String)} {k : Key}
  {edit : Edit}

theorem lookup_call_of_asks (asks : Asks key value edit) : (s.call key value).2.lookup? k =
    if edit.key = k then some edit.entry else s.lookup? k := by
  rw [call_eq, set_of_asks asks]
  exact edit.lookup_apply s k

theorem lookup_call_of_other (other : ∀ edit, Asks key value edit → edit.key ≠ k) :
    (s.call key value).2.lookup? k = s.lookup? k := by
  cases done : s.set key value with
  | ok t =>
    obtain ⟨edit, asks⟩ := exists_asks_of_set done
    rw [lookup_call_of_asks asks, if_neg (other edit asks)]
  | error e => rw [call_eq, done]

theorem lookup_of_untouched (untouched : Untouched k calls) :
    (s.afterCalls calls).lookup? k = s.lookup? k := by
  induction calls generalizing s with
  | nil => rfl
  | cons c calls ih =>
    obtain ⟨first, later⟩ := List.forall_mem_cons.mp untouched
    exact (ih later).trans (lookup_call_of_other first)

theorem lookup_of_isLastEdit (last : IsLastEdit calls edit) :
    (s.afterCalls calls).lookup? edit.key = some edit.entry := by
  obtain ⟨before, key, value, after, rfl, asks, untouched⟩ := last
  -- Whatever the calls before it do, the edit overwrites the entry.
  induction before generalizing s with
  | nil =>
    rw [List.nil_append, afterCalls, lookup_of_untouched untouched, lookup_call_of_asks asks,
      if_pos rfl]
  | cons c before ih => exact ih

theorem untouched_or_exists_last (k : Key) (calls : List (String × String)) :
    Untouched k calls ∨ ∃ edit, edit.key = k ∧ IsLastEdit calls edit := by
  induction calls with
  | nil => exact .inl nofun
  | cons c calls ih =>
    rcases ih with untouched | ⟨edit, own, before, key, value, after, rfl, last⟩
    · by_cases own : ∃ edit, edit.key = k ∧ Asks c.1 c.2 edit
      next =>
        obtain ⟨edit, rfl, asks⟩ := own
        exact .inr ⟨edit, rfl, [], c.1, c.2, calls, rfl, asks, untouched⟩
      next =>
        refine .inl (List.forall_mem_cons.mpr ⟨fun edit asks same => ?_, untouched⟩)
        exact own ⟨edit, same, asks⟩
    · exact .inr ⟨edit, own, c :: before, key, value, after, rfl, last⟩

theorem untouched_iff : Untouched k calls ↔
    ∀ c ∈ calls, (Settings.empty.set c.1 c.2).isOk = true → Key.ofText? c.1 ≠ some k := by
  refine forall₂_congr fun c _ => ⟨fun untouched done => ?_, fun other edit asks => ?_⟩
  · cases outcome : Settings.empty.set c.1 c.2 with
    | error e => simp [outcome, Except.isOk, Except.toBool] at done
    | ok t =>
      obtain ⟨edit, asks⟩ := exists_asks_of_set outcome
      simpa [asks.ofText] using untouched edit asks
  · simpa [asks.ofText, set_of_asks asks, Except.isOk, Except.toBool] using other

instance : Decidable (Untouched k calls) := decidable_of_iff _ untouched_iff.symm

theorem enabledState_of_lookup {element : String} {state : EnabledState}
    (held : s.lookup? (.enabled element) = some (.word state.word)) :
    s.switches.enabledState element = state := by
  simp only [lookup?, Option.map_eq_some_iff, Entry.word.injEq, exists_eq_right] at held
  rw [Switches.enabledState, held]
  cases state <;> rfl

theorem isAdvanced_of_lookup {element : String} {on : Bool}
    (held : s.lookup? (.advanced element) = some (.word (if on then "on" else "off"))) :
    s.switches.isAdvanced element = on := by
  simp only [lookup?, Option.map_eq_some_iff, Entry.word.injEq, exists_eq_right] at held
  rw [Switches.isAdvanced, held]
  cases on <;> rfl

end

/-- A call fails just if its key and value ask for nothing, and then it leaves the settings as they
are. After any calls each entry is the one that the last edit of it wrote, or the one from before if
there is none. What an edit wrote is read back as it was meant, and the advanced elements are those
for which the switch says so. -/
theorem last_edit_wins (s : Settings) (calls : List (String × String)) :
    (∀ (now : Settings) (key value : String),
      let (answer, left) := now.call key value
      now.set key value = answer.map (fun _ => left) ∧
        ((∃ e, answer = .error e) ↔ ∀ edit, ¬ Asks key value edit) ∧
        ((∃ e, answer = .error e) → left = now)) ∧
    let t := s.afterCalls calls
    (∀ k, (∃ edit, edit.key = k ∧ IsLastEdit calls edit ∧ t.lookup? k = some edit.entry) ∨
      Untouched k calls ∧ t.lookup? k = s.lookup? k) ∧
    (∀ element state, IsLastEdit calls (.enabled element state) →
      t.switches.enabledState element = state) ∧
    (∀ element on, IsLastEdit calls (.advanced element on) →
      t.switches.isAdvanced element = on) ∧
    t.switches.advancedElements.Nodup ∧
      ∀ element, element ∈ t.switches.advancedElements ↔ t.switches.isAdvanced element = true := by
  refine ⟨fun now key value => ?_, fun k => ?_, fun element state last => ?_,
    fun element on last => ?_, Switches.nodup_advancedElements _,
    fun _ => Switches.mem_advancedElements_iff⟩
  · rw [call_eq]
    cases done : now.set key value with
    | ok t =>
      obtain ⟨edit, asks⟩ := exists_asks_of_set done
      refine ⟨rfl, iff_of_false nofun fun none => none edit asks, nofun⟩
    | error e =>
      refine ⟨rfl, iff_of_true ⟨e, rfl⟩ fun edit asks => ?_, fun _ => rfl⟩
      exact nomatch done.symm.trans (set_of_asks asks now)
  · rcases untouched_or_exists_last k calls with untouched | ⟨edit, rfl, last⟩
    · exact .inr ⟨untouched, lookup_of_untouched untouched⟩
    · exact .inl ⟨edit, rfl, last, lookup_of_isLastEdit last⟩
  · exact enabledState_of_lookup (lookup_of_isLastEdit last)
  · exact isAdvanced_of_lookup (lookup_of_isLastEdit last)

theorem last_edit_wins_mixed_case :
    let calls := [("settings.enabled.ad", "on"), ("settings.enabled.ad", "DisAbled"),
      ("settings.advanced.ad", "YES"), ("settings.enabled.ad", "maybe"), ("predicates.", "on")]
    let t := Settings.empty.afterCalls calls
    IsLastEdit calls (.enabled "ad" .disabled) ∧ IsLastEdit calls (.advanced "ad" true) ∧
      t.switches.enabledState "ad" = .disabled ∧ "ad" ∈ t.switches.advancedElements := by
  intro calls t
  have named : Shortcode.IsName "ad".toList := Shortcode.isName_iff.mpr (by decide)
  have disabled : Asks "settings.enabled.ad" "DisAbled" (.enabled "ad" .disabled) :=
    .enabled named (spells_stateWords_iff.mpr (by decide))
  have advanced : Asks "settings.advanced.ad" "YES" (.advanced "ad" true) :=
    .advanced named (spells_truthWords_iff.mpr (by decide))
  have last : IsLastEdit calls (.enabled "ad" .disabled) :=
    ⟨[_], _, _, _, rfl, disabled, by decide⟩
  have last' : IsLastEdit calls (.advanced "ad" true) :=
    ⟨[_, _], _, _, _, rfl, advanced, by decide⟩
  obtain ⟨_, _, states, switches, _, listed⟩ := last_edit_wins Settings.empty calls
  exact ⟨last, last', states "ad" .disabled last, (listed "ad").mpr (switches "ad" true last')⟩

end VisibilityRules.Settings
