import Mathlib.Tactic.IntervalCases
import VisibilityRules.Proofs.Bytes

set_option autoImplicit false

/-!
Encoded text read back. The bytes of a character are read as that character and no byte behind them
is touched, so a text survives encoding under the strict reader and under the lenient one.
-/
namespace VisibilityRules.Text.Utf8

theorem toNat_ofNat_add {n base : Nat} (small : n + base < 0x100) :
    (UInt8.ofNat (n + base)).toNat = n + base := by
  rw [UInt8.toNat_ofNat', Nat.mod_eq_of_lt small]

theorem lead_two {b : UInt8} {bits : Nat} (byte : b.toNat = bits + 0xC0) (lower : 2 ≤ bits)
    (upper : bits < 0x20) : lead? b = some ⟨bits, 0x80, 0xBF, 1⟩ := by
  simp only [lead?, byte]
  rw [if_neg (by omega), if_neg (by omega), if_pos (by omega), Nat.add_sub_cancel]

theorem lead_three {b : UInt8} {bits : Nat} (byte : b.toNat = bits + 0xE0) (upper : bits < 0x10) :
    lead? b = some ⟨bits, if bits = 0 then 0xA0 else 0x80,
      if bits = 0xD then 0x9F else 0xBF, 2⟩ := by
  simp only [lead?, byte]
  interval_cases bits <;> rfl

theorem lead_four {b : UInt8} {bits : Nat} (byte : b.toNat = bits + 0xF0) (upper : bits < 5) :
    lead? b = some ⟨bits, if bits = 0 then 0x90 else 0x80,
      if bits = 4 then 0x8F else 0xBF, 3⟩ := by
  simp only [lead?, byte]
  interval_cases bits <;> rfl

theorem continuation_end (low high : UInt8) (bits : Nat) (rest : List UInt8) :
    continuation low high 0 bits rest = (some bits, 0) := by
  rw [continuation]

theorem continuation_byte {low high : UInt8} {more bits six : Nat} {rest : List UInt8}
    (small : six < 64) (lower : low.toNat ≤ six + 0x80) (upper : six + 0x80 ≤ high.toNat) :
    continuation low high (more + 1) bits (UInt8.ofNat (six + 0x80) :: rest) =
      ((continuation 0x80 0xBF more (bits * 64 + six) rest).1,
        (continuation 0x80 0xBF more (bits * 64 + six) rest).2 + 1) := by
  have byte : (UInt8.ofNat (six + 0x80)).toNat = six + 0x80 := toNat_ofNat_add (by omega)
  have within : (low ≤ UInt8.ofNat (six + 0x80) && UInt8.ofNat (six + 0x80) ≤ high) = true := by
    simp only [UInt8.le_iff_toNat_le, byte, lower, upper, decide_true, Bool.and_self]
  rw [continuation, if_pos within, byte, Nat.add_sub_cancel]

theorem continuation_six {more bits n : Nat} {rest : List UInt8} :
    continuation 0x80 0xBF (more + 1) bits (UInt8.ofNat (n % 64 + 0x80) :: rest) =
      ((continuation 0x80 0xBF more (bits * 64 + n % 64) rest).1,
        (continuation 0x80 0xBF more (bits * 64 + n % 64) rest).2 + 1) := by
  have small : n % 64 < 64 := Nat.mod_lt n (by decide)
  exact continuation_byte small (by simp) (by simp; omega)

/-- The bytes of a character are read as that character, whatever stands behind them. -/
def ReadsBack (c : Char) (bytes : List UInt8) : Prop :=
  ∃ b tail, bytes = b :: tail ∧ ∀ rest, front b (tail ++ rest) = (some c, tail.length)

theorem readsBack_one {c : Char} (upper : c.toNat ≤ 0x7F) :
    ReadsBack c (String.utf8EncodeChar c) := by
  have ascii : IsAscii c := Nat.lt_succ_of_le upper
  refine ⟨c.toUInt8, [], utf8EncodeChar_of_isAscii ascii, fun rest => ?_⟩
  have lead : lead? c.toUInt8 = some ⟨c.toNat, 0x80, 0xBF, 0⟩ := by
    simp only [lead?, toNat_toUInt8 ascii]
    rw [if_pos ascii]
  simp only [front, lead, continuation_end, Option.map_some, Char.ofNat_toNat, List.length_nil]

theorem readsBack_two {c : Char} (lower : 0x7F < c.toNat) (upper : c.toNat ≤ 0x7FF) :
    ReadsBack c [UInt8.ofNat (c.toNat / 64 % 32 + 0xC0), UInt8.ofNat (c.toNat % 64 + 0x80)] := by
  refine ⟨_, _, rfl, fun rest => ?_⟩
  have whole : c.toNat / 64 % 32 * 64 + c.toNat % 64 = c.toNat := by omega
  rw [front, lead_two (toNat_ofNat_add (by omega)) (by omega) (by omega)]
  simp only [List.singleton_append, continuation_six, continuation_end, whole, Option.map_some,
    Char.ofNat_toNat, List.length_singleton]

theorem readsBack_three {c : Char} (lower : 0x7FF < c.toNat) (upper : c.toNat ≤ 0xFFFF) :
    ReadsBack c [UInt8.ofNat (c.toNat / 4096 % 16 + 0xE0),
      UInt8.ofNat (c.toNat / 64 % 64 + 0x80), UInt8.ofNat (c.toNat % 64 + 0x80)] := by
  refine ⟨_, _, rfl, fun rest => ?_⟩
  have valid : c.toNat < 0xD800 ∨ 0xDFFF < c.toNat ∧ c.toNat < 0x110000 := c.valid
  have whole : (c.toNat / 4096 % 16 * 64 + c.toNat / 64 % 64) * 64 + c.toNat % 64 = c.toNat := by
    omega
  -- The bounds of the second byte shut out what two bytes hold, and the surrogates.
  have least : (if c.toNat / 4096 % 16 = 0 then 0xA0 else 0x80 : UInt8).toNat ≤
      c.toNat / 64 % 64 + 0x80 := by
    split <;> simp
    omega
  have most : c.toNat / 64 % 64 + 0x80 ≤
      (if c.toNat / 4096 % 16 = 0xD then 0x9F else 0xBF : UInt8).toNat := by
    split <;> simp <;> omega
  rw [front, lead_three (toNat_ofNat_add (by omega)) (by omega)]
  simp only [List.cons_append, List.nil_append,
    continuation_byte (Nat.mod_lt _ (by decide)) least most, continuation_six, continuation_end,
    whole, Option.map_some, Char.ofNat_toNat, List.length_cons, List.length_nil]

theorem readsBack_four {c : Char} (lower : 0xFFFF < c.toNat) :
    ReadsBack c [UInt8.ofNat (c.toNat / 262144 % 8 + 0xF0),
      UInt8.ofNat (c.toNat / 4096 % 64 + 0x80), UInt8.ofNat (c.toNat / 64 % 64 + 0x80),
      UInt8.ofNat (c.toNat % 64 + 0x80)] := by
  refine ⟨_, _, rfl, fun rest => ?_⟩
  have valid : c.toNat < 0xD800 ∨ 0xDFFF < c.toNat ∧ c.toNat < 0x110000 := c.valid
  have whole : ((c.toNat / 262144 % 8 * 64 + c.toNat / 4096 % 64) * 64 + c.toNat / 64 % 64) * 64 +
      c.toNat % 64 = c.toNat := by omega
  have least : (if c.toNat / 262144 % 8 = 0 then 0x90 else 0x80 : UInt8).toNat ≤
      c.toNat / 4096 % 64 + 0x80 := by
    split <;> simp
    omega
  have most : c.toNat / 4096 % 64 + 0x80 ≤
      (if c.toNat / 262144 % 8 = 4 then 0x8F else 0xBF : UInt8).toNat := by
    split <;> simp <;> omega
  rw [front, lead_four (toNat_ofNat_add (by omega)) (by omega)]
  simp only [List.cons_append, List.nil_append,
    continuation_byte (Nat.mod_lt _ (by decide)) least most, continuation_six, continuation_end,
    whole, Option.map_some, Char.ofNat_toNat, List.length_cons, List.length_nil]

theorem readsBack_utf8EncodeChar (c : Char) : ReadsBack c (String.utf8EncodeChar c) := by
  have code : c.val.toNat = c.toNat := rfl
  by_cases one : c.toNat ≤ 0x7F
  next => exact readsBack_one one
  by_cases two : c.toNat ≤ 0x7FF
  next =>
    simp only [String.utf8EncodeChar, code, if_neg one, if_pos two]
    exact readsBack_two (Nat.lt_of_not_le one) two
  by_cases three : c.toNat ≤ 0xFFFF
  next =>
    simp only [String.utf8EncodeChar, code, if_neg one, if_neg two, if_pos three]
    exact readsBack_three (Nat.lt_of_not_le two) three
  next =>
    simp only [String.utf8EncodeChar, code, if_neg one, if_neg two, if_neg three]
    exact readsBack_four (Nat.lt_of_not_le three)

theorem pieces_encode (cs : List Char) : pieces (encode cs) = cs.map some := by
  induction cs with
  | nil => rw [encode_nil, pieces, List.map_nil]
  | cons c cs ih =>
    obtain ⟨b, tail, bytes, read⟩ := readsBack_utf8EncodeChar c
    rw [encode_cons, bytes, List.cons_append, pieces, read]
    simp only [List.drop_left, ih, List.map_cons]

theorem decode_encode (cs : List Char) : decode? (encode cs) = some cs := by
  rw [decode?, pieces_encode]
  induction cs with
  | nil => rfl
  | cons c cs ih => simp [ih]

theorem decodeLossy_encode (cs : List Char) : decodeLossy (encode cs) = cs := by
  rw [decodeLossy, pieces_encode, List.map_map]
  exact List.map_id cs

theorem toString_ofString (s : String) : toString? (ofString s) = some s := by
  rw [toString?, ofString, decode_encode, Option.map_some, String.ofList_toList]

end VisibilityRules.Text.Utf8
