import VisibilityRules.Rule.Attributes
import VisibilityRules.Shortcode.Escape
import VisibilityRules.Text.Word

set_option autoImplicit false

/-!
Attribute lists as authored in a tag: `key="v"`, `key='v'`, `key=v` and values without a key, each
ended by a blank or by the end of the list. A value without a key names nothing and is dropped;
what fits none of these forms is dropped up to the next blank.
-/
namespace VisibilityRules.Shortcode

def isInvisible (c : Char) : Bool := c == '\u00A0' || c == '\u200B'

def plainSpaces : List Char → List Char
  | [] => []
  | c :: rest =>
    if isInvisible c then
      if (rest.head?.map isInvisible).getD false then plainSpaces rest else ' ' :: plainSpaces rest
    else c :: plainSpaces rest

inductive Item where
  | named (key value : List Char)
  | unnamed
  deriving DecidableEq, Repr

def afterItem : List Char → Option (List Char)
  | [] => some []
  | c :: rest => if Text.isBlank c then some rest else none

def quotedValue (quote : Char) (cs : List Char) : Option (List Char × List Char) :=
  match Text.splitOnce quote cs with
  | none => none
  | some (value, rest) => (afterItem rest).map fun rest => (value, rest)

def isBareChar (c : Char) : Bool := !(Text.isBlank c || c == '"' || c == '\'')

def bareValue (cs : List Char) : Option (List Char × List Char) :=
  if (cs.takeWhile isBareChar).isEmpty then none
  else (afterItem (cs.dropWhile isBareChar)).map fun rest => (cs.takeWhile isBareChar, rest)

def itemValue : List Char → Option (List Char × List Char)
  | '"' :: rest => quotedValue '"' rest
  | '\'' :: rest => quotedValue '\'' rest
  | cs => bareValue cs

def namedItem (cs : List Char) : Option (Item × List Char) :=
  if (cs.takeWhile Text.isKeyChar).isEmpty then none
  else
    match Text.skipBlanks (cs.dropWhile Text.isKeyChar) with
    | '=' :: rest =>
      (itemValue (Text.skipBlanks rest)).map fun (value, rest) =>
        (.named (cs.takeWhile Text.isKeyChar) value, rest)
    | _ => none

def afterUnnamed (cs : List Char) : List Char :=
  let quoted :=
    match cs with
    | '"' :: rest => quotedValue '"' rest
    | '\'' :: rest => quotedValue '\'' rest
    | _ => none
  match quoted with
  | some (_, rest) => rest
  | none => (cs.dropWhile fun c => !Text.isBlank c).drop 1

def nextItem (cs : List Char) : Item × List Char :=
  (namedItem cs).getD (.unnamed, afterUnnamed cs)

theorem afterItem_length {cs rest : List Char} (h : afterItem cs = some rest) :
    rest.length ≤ cs.length := by
  unfold afterItem at h
  split at h
  next => simp_all
  next => split at h <;> simp_all

theorem splitOnce_length {separator : Char} {cs before after : List Char}
    (h : Text.splitOnce separator cs = some (before, after)) : after.length < cs.length := by
  induction cs generalizing before with
  | nil => simp [Text.splitOnce] at h
  | cons c cs ih =>
    simp only [Text.splitOnce] at h
    split at h
    next => simp_all
    next =>
      simp only [Option.map_eq_some_iff, Prod.mk.injEq, Prod.exists] at h
      obtain ⟨before', after', found, rfl, rfl⟩ := h
      have := ih found
      simp only [List.length_cons]
      omega

theorem quotedValue_length {quote : Char} {cs value rest : List Char}
    (h : quotedValue quote cs = some (value, rest)) : rest.length < cs.length := by
  unfold quotedValue at h
  split at h
  next => simp at h
  next found =>
    simp only [Option.map_eq_some_iff, Prod.mk.injEq] at h
    obtain ⟨_, ended, _, rfl⟩ := h
    have := splitOnce_length found
    have := afterItem_length ended
    omega

theorem itemValue_length {cs value rest : List Char} (h : itemValue cs = some (value, rest)) :
    rest.length ≤ cs.length := by
  unfold itemValue at h
  split at h
  next => have := quotedValue_length h; simp only [List.length_cons]; omega
  next => have := quotedValue_length h; simp only [List.length_cons]; omega
  next =>
    unfold bareValue at h
    split at h
    next => simp at h
    next =>
      simp only [Option.map_eq_some_iff, Prod.mk.injEq] at h
      obtain ⟨_, ended, _, rfl⟩ := h
      have := afterItem_length ended
      have := Text.length_dropWhile_le isBareChar cs
      omega

theorem nextItem_length (cs : List Char) (nonempty : cs ≠ []) :
    (nextItem cs).2.length < cs.length := by
  unfold nextItem
  cases found : namedItem cs with
  | some result =>
    obtain ⟨item, rest⟩ := result
    unfold namedItem at found
    split at found
    next => simp at found
    next =>
      split at found
      next after skipped =>
        simp only [Option.map_eq_some_iff, Prod.mk.injEq, Prod.exists] at found
        obtain ⟨value, rest', read, _, rfl⟩ := found
        have first := itemValue_length read
        have second := Text.length_dropWhile_le Text.isBlank after
        have third := Text.length_dropWhile_le Text.isBlank (cs.dropWhile Text.isKeyChar)
        have fourth := Text.length_dropWhile_le Text.isKeyChar cs
        unfold Text.skipBlanks at first skipped
        rw [skipped, List.length_cons] at third
        simp only [Option.getD_some]
        omega
      next => simp at found
  | none =>
    simp only [Option.getD_none]
    have positive : 0 < cs.length := List.length_pos_iff.mpr nonempty
    unfold afterUnnamed
    simp only
    split
    next value rest quoted =>
      split at quoted
      next => have := quotedValue_length quoted; simp only [List.length_cons]; omega
      next => have := quotedValue_length quoted; simp only [List.length_cons]; omega
      next => simp at quoted
    next =>
      have := Text.length_dropWhile_le (fun c => !Text.isBlank c) cs
      simp only [List.length_drop]
      omega

def items : List Char → List Item
  | [] => []
  | c :: rest =>
    if Text.isBlank c then items rest
    else (nextItem (c :: rest)).1 :: items (nextItem (c :: rest)).2
termination_by cs => cs.length
decreasing_by
  next => simp
  next => exact nextItem_length _ (by simp)

def setItem (attributes : Attributes) : Item → Attributes
  | .named key value =>
    attributes.insert (String.ofList (key.map Text.lowerAscii)) (String.ofList (unescape value))
  | .unnamed => attributes

def readAttributes (text : String) : Attributes :=
  -- The attributes that a tag's text lists; of two items with one key the later counts.
  (items (plainSpaces text.toList)).foldl setItem ∅

end VisibilityRules.Shortcode
