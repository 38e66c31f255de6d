import VisibilityRules.Text.Utf8

set_option autoImplicit false

/-!
Positions in encoded text. An ASCII byte is a character of its own, so what is found among the
bytes of a text stands between characters.
-/
namespace VisibilityRules.Text.Utf8

@[simp] theorem size_nil : size [] = 0 := rfl

@[simp] theorem size_cons (c : Char) (cs : List Char) : size (c :: cs) = c.utf8Size + size cs := rfl

@[simp] theorem size_append (cs ds : List Char) : size (cs ++ ds) = size cs + size ds := by
  induction cs with
  | nil => simp
  | cons c cs ih => rw [List.cons_append, size_cons, size_cons, ih, Nat.add_assoc]

theorem size_le_of_sublist {cs ds : List Char} (sub : cs.Sublist ds) : size cs ≤ size ds := by
  induction sub with
  | slnil => exact Nat.le_refl _
  | cons c _ ih => exact Nat.le_add_left_of_le ih
  | cons_cons c _ ih => exact Nat.add_le_add_left ih _

@[simp] theorem encode_nil : encode [] = [] := rfl

@[simp] theorem encode_cons (c : Char) (cs : List Char) :
    encode (c :: cs) = String.utf8EncodeChar c ++ encode cs := by
  simp [encode]

@[simp] theorem encode_append (cs ds : List Char) : encode (cs ++ ds) = encode cs ++ encode ds := by
  simp [encode]

@[simp] theorem length_encode (cs : List Char) : (encode cs).length = size cs := by
  induction cs with
  | nil => rfl
  | cons c cs ih => simp [ih]

theorem ofString_inj {s t : String} : ofString s = ofString t ↔ s = t := by
  refine ⟨fun same => ?_, congrArg ofString⟩
  have encoded (s : String) : (ofString s).toByteArray = s.toByteArray := by
    rw [← String.utf8Encode_toList]
    rfl
  exact String.toByteArray_inj.mp (by rw [← encoded, same, encoded])

theorem size_eq_zero_iff {cs : List Char} : size cs = 0 ↔ cs = [] := by
  cases cs with
  | nil => simp
  | cons c cs => have := c.utf8Size_pos; simp; omega

abbrev IsAscii (c : Char) : Prop := c.toNat < 0x80

theorem utf8EncodeChar_of_isAscii {c : Char} (ascii : IsAscii c) :
    String.utf8EncodeChar c = [c.toUInt8] := by
  have small : c.val.toNat ≤ 0x7f := Nat.le_of_lt_succ ascii
  simp only [String.utf8EncodeChar, small, if_true]
  rfl

theorem utf8Size_of_isAscii {c : Char} (ascii : IsAscii c) : c.utf8Size = 1 := by
  rw [← String.length_utf8EncodeChar, utf8EncodeChar_of_isAscii ascii, List.length_singleton]

theorem toNat_toUInt8 {c : Char} (ascii : IsAscii c) : c.toUInt8.toNat = c.toNat := by
  have small : c.val.toNat < 0x80 := ascii
  show c.val.toNat % 256 = c.val.toNat
  omega

theorem toNat_ofNat_toNat (b : UInt8) : (Char.ofNat b.toNat).toNat = b.toNat := by
  have valid : b.toNat.isValidChar := .inl (Nat.lt_trans b.toNat_lt (by decide))
  rw [Char.ofNat, dif_pos valid]
  rfl

theorem high_of_not_isAscii {c : Char} {b : UInt8} (high : ¬ IsAscii c)
    (mem : b ∈ String.utf8EncodeChar c) : 0x80 ≤ b.toNat := by
  have large : ¬ c.val.toNat ≤ 0x7f := fun small => high (Nat.lt_succ_of_le small)
  simp only [String.utf8EncodeChar, large, if_false] at mem
  split at mem
  next =>
    rcases (by simpa using mem) with rfl | rfl <;> simp <;> omega
  next =>
    split at mem
    next => rcases (by simpa using mem) with rfl | rfl | rfl <;> simp <;> omega
    next => rcases (by simpa using mem) with rfl | rfl | rfl | rfl <;> simp <;> omega

theorem toUInt8_injective {c d : Char} (hc : IsAscii c) (hd : IsAscii d)
    (same : c.toUInt8 = d.toUInt8) : c = d := by
  have := congrArg UInt8.toNat same
  rw [toNat_toUInt8 hc, toNat_toUInt8 hd] at this
  exact Char.toNat_inj.mp this

theorem getElem?_encode_eq_some {text : List Char} {position : Nat} {c : Char} (ascii : IsAscii c)
    (found : (encode text)[position]? = some c.toUInt8) :
    ∃ before after, text = before ++ c :: after ∧ size before = position := by
  induction text generalizing position with
  | nil => simp at found
  | cons d text ih =>
    rw [encode_cons] at found
    by_cases inside : position < d.utf8Size
    · rw [List.getElem?_append_left (by simpa using inside)] at found
      have mem := List.mem_of_getElem? found
      by_cases single : IsAscii d
      · rw [utf8EncodeChar_of_isAscii single, List.mem_singleton] at mem
        rw [utf8Size_of_isAscii single] at inside
        obtain rfl := toUInt8_injective ascii single mem
        exact ⟨[], text, rfl, by simp; omega⟩
      · have high := high_of_not_isAscii single mem
        rw [toNat_toUInt8 ascii] at high
        exact absurd ascii (Nat.not_lt.mpr high)
    · rw [List.getElem?_append_right (by simpa using inside)] at found
      obtain ⟨before, after, rfl, here⟩ := ih found
      exact ⟨d :: before, after, rfl, by simp at here ⊢; omega⟩

theorem getElem?_encode_append (before after : List Char) (position : Nat) :
    (encode (before ++ after))[size before + position]? = (encode after)[position]? := by
  rw [encode_append, List.getElem?_append_right (by simp)]
  simp

theorem drop_encode_append (before after : List Char) :
    (encode (before ++ after)).drop (size before) = encode after := by
  rw [encode_append, List.drop_left' (length_encode before)]

theorem getElem?_encode_zero_iff {text : List Char} {c : Char} (ascii : IsAscii c) :
    (encode text)[0]? = some c.toUInt8 ↔ text.head? = some c := by
  constructor
  · intro found
    obtain ⟨before, after, rfl, here⟩ := getElem?_encode_eq_some ascii found
    obtain rfl := size_eq_zero_iff.mp here
    rfl
  · intro head
    obtain ⟨rest, rfl⟩ := List.head?_eq_some_iff.mp head
    simp [utf8EncodeChar_of_isAscii ascii]

theorem encode_prefix_encode_iff {name text : List Char} (ascii : ∀ c ∈ name, IsAscii c) :
    encode name <+: encode text ↔ name <+: text := by
  induction name generalizing text with
  | nil => simp
  | cons n name ih =>
    have first : IsAscii n := ascii n (by simp)
    rw [encode_cons, utf8EncodeChar_of_isAscii first, List.singleton_append]
    cases text with
    | nil => simp
    | cons c text =>
      by_cases same : n = c
      · subst same
        rw [encode_cons, utf8EncodeChar_of_isAscii first, List.singleton_append,
          List.cons_prefix_cons, List.cons_prefix_cons, ih fun c mem => ascii c (by simp [mem])]
        simp
      · have differ : ¬ (encode (c :: text))[0]? = some n.toUInt8 := by
          rw [getElem?_encode_zero_iff first]
          simpa [eq_comm] using same
        simp only [List.cons_prefix_cons, same, false_and, iff_false]
        rintro ⟨rest, eq⟩
        exact differ (by rw [← eq]; rfl)

end VisibilityRules.Text.Utf8
