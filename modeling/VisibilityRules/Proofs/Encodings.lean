import Mathlib
import VisibilityRules.Encoding.Base64
import VisibilityRules.Encoding.Percent
import VisibilityRules.Proofs.Characters
import VisibilityRules.Proofs.Numerals
import VisibilityRules.Proofs.Separators

set_option autoImplicit false

/-!
Bytes written as text and read back, percent-encoded and in base 64. Padding has no say in what
base 64 is read as: where it is the right one the letters without it give the same bytes.
-/
namespace VisibilityRules

namespace Percent

open Text.Utf8 (IsAscii)

theorem decode_cons {b : UInt8} {rest : List UInt8} (other : b ≠ 0x25) :
    decode (b :: rest) = b :: decode rest := by
  cases rest with
  | nil => rfl
  | cons high rest =>
    cases rest with
    | nil => rfl
    | cons low rest => rw [decode, if_neg other]

/-! ### Escaped bytes -/

theorem isAscii_of_isHexDigit {c : Char} {value : Nat} (digit : Text.IsHexDigit c value) :
    IsAscii c := by
  have ascii : ∀ c ∈ "0123456789abcdefABCDEF".toList, IsAscii c := by decide
  exact ascii c digit.mem

theorem hexValue_of_isHexDigit {c : Char} {value : Nat} (digit : Text.IsHexDigit c value) :
    hexValue? c.toUInt8 = some value := by
  rw [hexValue?, Text.Utf8.toNat_toUInt8 (isAscii_of_isHexDigit digit), Char.ofNat_toNat,
    digit.digitValue]

/-- A percent sign and the two digits of a byte, small or capital ones, are read as the byte. -/
theorem decode_escape {b : UInt8} {high low : Char} (first : Text.IsHexDigit high (b.toNat / 16))
    (second : Text.IsHexDigit low (b.toNat % 16)) (written : List Char) (rest : List UInt8) :
    decode (Text.Utf8.encode ('%' :: high :: low :: written) ++ rest) =
      b :: decode (Text.Utf8.encode written ++ rest) := by
  have whole : b.toNat / 16 * 16 + b.toNat % 16 = b.toNat := by omega
  have byte : byte? high.toUInt8 low.toUInt8 = some b := by
    rw [byte?, hexValue_of_isHexDigit first, hexValue_of_isHexDigit second]
    simp only [Option.bind_eq_bind, Option.bind_some, whole, UInt8.ofNat_toNat]
  have bytes : Text.Utf8.encode ('%' :: high :: low :: written) =
      0x25 :: high.toUInt8 :: low.toUInt8 :: Text.Utf8.encode written := by
    rw [Text.Utf8.encode_cons, Text.Utf8.encode_cons, Text.Utf8.encode_cons,
      Text.Utf8.utf8EncodeChar_of_isAscii (by decide),
      Text.Utf8.utf8EncodeChar_of_isAscii (isAscii_of_isHexDigit first),
      Text.Utf8.utf8EncodeChar_of_isAscii (isAscii_of_isHexDigit second)]
    rfl
  rw [bytes, List.cons_append, List.cons_append, List.cons_append, decode, if_pos rfl, byte]

theorem isHexDigit_hexDigit {n : Nat} (small : n < 16) : Text.IsHexDigit (hexDigit n) n := by
  revert n
  decide

theorem unreserved_bounds {b : UInt8} (unreserved : isUnreserved b) :
    b.toNat < 0x80 ∧ b ≠ 0x25 := by
  simp only [isUnreserved, Bool.or_eq_true, Bool.and_eq_true, decide_eq_true_eq,
    beq_iff_eq] at unreserved
  constructor
  next => omega
  next =>
    intro percent
    subst percent
    simp at unreserved

theorem encode_encodeByte {b : UInt8} (unreserved : isUnreserved b) :
    Text.Utf8.encode (encodeByte b) = [b] := by
  have ascii : IsAscii (Char.ofNat b.toNat) := by
    rw [IsAscii, Text.Utf8.toNat_ofNat_toNat]
    exact (unreserved_bounds unreserved).1
  have byte : (Char.ofNat b.toNat).toUInt8 = b := by
    apply UInt8.toNat_inj.mp
    rw [Text.Utf8.toNat_toUInt8 ascii, Text.Utf8.toNat_ofNat_toNat]
  rw [encodeByte, if_pos unreserved, Text.Utf8.encode_cons,
    Text.Utf8.utf8EncodeChar_of_isAscii ascii, byte]
  rfl

theorem decode_encodeByte (b : UInt8) (rest : List UInt8) :
    decode (Text.Utf8.encode (encodeByte b) ++ rest) = b :: decode rest := by
  by_cases unreserved : isUnreserved b
  next =>
    rw [encode_encodeByte unreserved, List.singleton_append,
      decode_cons (unreserved_bounds unreserved).2]
  next =>
    have bound := b.toNat_lt
    have first := isHexDigit_hexDigit (n := b.toNat / 16) (by omega)
    have second := isHexDigit_hexDigit (n := b.toNat % 16) (by omega)
    rw [encodeByte, if_neg unreserved, decode_escape first second, Text.Utf8.encode_nil,
      List.nil_append]

theorem decode_encode (bytes : List UInt8) : decode (Text.Utf8.encode (encode bytes)) = bytes := by
  induction bytes with
  | nil => rfl
  | cons b bytes ih =>
    rw [encode, List.flatMap_cons, Text.Utf8.encode_append, decode_encodeByte]
    exact congrArg (b :: ·) ih

theorem decodeText_encode (cs : List Char) :
    decodeText? (encode (Text.Utf8.encode cs)) = some cs := by
  rw [decodeText?, decode_encode, Text.Utf8.decode_encode]

end Percent

namespace Base64

theorem value_letter {n : Nat} (small : n < 64) : value? (letter n) = some n := by
  revert n
  decide

theorem letter_ne_padding {n : Nat} (small : n < 64) : letter n ≠ '=' := by
  revert n
  decide

def sextets : List UInt8 → List Nat
  | [] => []
  | [a] => [a.toNat / 4, a.toNat % 4 * 16]
  | [a, b] => [a.toNat / 4, a.toNat % 4 * 16 + b.toNat / 16, b.toNat % 16 * 4]
  | a :: b :: c :: rest =>
    (a.toNat / 4) :: (a.toNat % 4 * 16 + b.toNat / 16) ::
      (b.toNat % 16 * 4 + c.toNat / 64) :: (c.toNat % 64) :: sextets rest

theorem sextets_lt {bytes : List UInt8} {n : Nat} (mem : n ∈ sextets bytes) : n < 64 := by
  induction bytes using sextets.induct with
  | case1 => simp [sextets] at mem
  | case2 a =>
    have := a.toNat_lt
    simp only [sextets, List.mem_cons, List.not_mem_nil, or_false] at mem
    omega
  | case3 a b =>
    have := a.toNat_lt
    have := b.toNat_lt
    simp only [sextets, List.mem_cons, List.not_mem_nil, or_false] at mem
    omega
  | case4 a b c rest ih =>
    have := a.toNat_lt
    have := b.toNat_lt
    have := c.toNat_lt
    simp only [sextets, List.mem_cons] at mem
    rcases mem with first | second | third | fourth | later
    all_goals try omega
    exact ih later

theorem ofSextets_sextets (bytes : List UInt8) : ofSextets? (sextets bytes) = some bytes := by
  induction bytes using sextets.induct with
  | case1 => rfl
  | case2 a =>
    have whole : a.toNat / 4 * 4 + a.toNat % 4 * 16 / 16 = a.toNat := by omega
    rw [sextets, ofSextets?, if_pos (by omega), whole, UInt8.ofNat_toNat]
  | case3 a b =>
    have := b.toNat_lt
    have first : a.toNat / 4 * 4 + (a.toNat % 4 * 16 + b.toNat / 16) / 16 = a.toNat := by omega
    have second : (a.toNat % 4 * 16 + b.toNat / 16) % 16 * 16 + b.toNat % 16 * 4 / 4 = b.toNat := by
      omega
    rw [sextets, ofSextets?, if_pos (by omega), first, second, UInt8.ofNat_toNat, UInt8.ofNat_toNat]
  | case4 a b c rest ih =>
    have := b.toNat_lt
    have := c.toNat_lt
    have first : a.toNat / 4 * 4 + (a.toNat % 4 * 16 + b.toNat / 16) / 16 = a.toNat := by omega
    have second : (a.toNat % 4 * 16 + b.toNat / 16) % 16 * 16 +
        (b.toNat % 16 * 4 + c.toNat / 64) / 4 = b.toNat := by omega
    have third : (b.toNat % 16 * 4 + c.toNat / 64) % 4 * 64 + c.toNat % 64 = c.toNat := by omega
    rw [sextets, ofSextets?, ih, Option.map_some, first, second, third]
    simp only [UInt8.ofNat_toNat]

theorem encode_eq (bytes : List UInt8) :
    ∃ count, encode bytes = (sextets bytes).map letter ++ List.replicate count '=' := by
  induction bytes using sextets.induct with
  | case1 => exact ⟨0, rfl⟩
  | case2 a => exact ⟨2, rfl⟩
  | case3 a b => exact ⟨1, rfl⟩
  | case4 a b c rest ih =>
    obtain ⟨count, letters⟩ := ih
    exact ⟨count, by rw [encode, letters]; rfl⟩

theorem decode_letters {numbers : List Nat} (small : ∀ n ∈ numbers, n < 64) :
    decode? (numbers.map letter) = ofSextets? numbers := by
  have values : (numbers.map letter).mapM value? = some numbers := by
    induction numbers with
    | nil => rfl
    | cons n numbers ih =>
      have later := ih fun n mem => small n (by simp [mem])
      simp [value_letter (small n (by simp)), later]
  rw [decode?, values, Option.bind_some]

theorem dropPadding_append {letters : List Char} (free : '=' ∉ letters) (count : Nat) :
    dropPadding (letters ++ List.replicate count '=') = letters := by
  have first : letters.reverse.dropWhile (· == '=') = letters.reverse := by
    cases ends : letters.reverse with
    | nil => rfl
    | cons c others =>
      have mem : c ∈ letters := by rw [← List.mem_reverse, ends]; simp
      have other : c ≠ '=' := fun same => free (same ▸ mem)
      rw [List.dropWhile_cons_of_neg (by simpa using other)]
  rw [dropPadding, List.reverse_append, List.reverse_replicate, List.dropWhile_append_of_pos
    (by simp), first, List.reverse_reverse]

theorem free_of_values {letters : List Char} {numbers : List Nat}
    (values : letters.mapM value? = some numbers) : '=' ∉ letters := by
  induction letters generalizing numbers with
  | nil => simp
  | cons c letters ih =>
    simp only [List.mapM_cons, Option.bind_eq_bind, Option.bind_eq_some_iff, Option.pure_def,
      Option.some.injEq] at values
    obtain ⟨n, value, later, values, rfl⟩ := values
    rw [List.mem_cons, not_or]
    refine ⟨?_, ih values⟩
    intro padding
    subst padding
    simp [value?] at value

theorem free_of_decode {letters : List Char} {bytes : List UInt8}
    (read : decode? letters = some bytes) : '=' ∉ letters := by
  obtain ⟨numbers, values, _⟩ := Option.bind_eq_some_iff.mp read
  exact free_of_values values

theorem decode_append_four {a b c d : Char} {rest : List Char} {front bytes : List UInt8}
    (first : decode? [a, b, c, d] = some front) (later : decode? rest = some bytes) :
    decode? (a :: b :: c :: d :: rest) = some (front ++ bytes) := by
  obtain ⟨four, values, read⟩ := Option.bind_eq_some_iff.mp first
  obtain ⟨numbers, later_values, later_read⟩ := Option.bind_eq_some_iff.mp later
  simp only [List.mapM_cons, List.mapM_nil, Option.bind_eq_bind, Option.bind_eq_some_iff,
    Option.pure_def, Option.some.injEq] at values
  obtain ⟨w, value_w, _, ⟨x, value_x, _, ⟨y, value_y, _, ⟨z, value_z, _, rfl, rfl⟩, rfl⟩, rfl⟩,
    rfl⟩ := values
  simp only [ofSextets?, Option.map_some, Option.some.injEq] at read
  subst read
  simp [decode?, value_w, value_x, value_y, value_z, later_values, ofSextets?, later_read]

/-- What the strict reader accepts is a run of letters and padding behind it. -/
theorem padded_of_decodePadded {letters : List Char} {bytes : List UInt8}
    (read : decodePadded? letters = some bytes) :
    ∃ front count, letters = front ++ List.replicate count '=' ∧ decode? front = some bytes := by
  fun_induction decodePadded? letters generalizing bytes with
  | case1 => exact ⟨[], 0, rfl, read⟩
  | case2 a b => exact ⟨[a, b], 2, rfl, read⟩
  | case3 a b c => exact ⟨[a, b, c], 1, rfl, read⟩
  | case4 a b c d rest _ _ ih =>
    simp only [Option.bind_eq_bind, Option.bind_eq_some_iff, Option.some.injEq] at read
    obtain ⟨first, four, later, others, rfl⟩ := read
    obtain ⟨front, count, rfl, letters⟩ := ih others
    exact ⟨a :: b :: c :: d :: front, count, rfl, decode_append_four four letters⟩
  | case5 => simp at read

theorem decode_of_decodePadded {letters : List Char} {bytes : List UInt8}
    (read : decodePadded? letters = some bytes) : decode? (dropPadding letters) = some bytes := by
  obtain ⟨front, count, rfl, letters⟩ := padded_of_decodePadded read
  rw [dropPadding_append (free_of_decode letters), letters]

/-- Trying the strict reader first changes nothing. -/
theorem decodePadded_or (letters : List Char) :
    (decodePadded? letters).or (decode? (dropPadding letters)) = decode? (dropPadding letters) := by
  cases strict : decodePadded? letters with
  | none => rfl
  | some bytes => rw [decode_of_decodePadded strict, Option.some_or]

end Base64

end VisibilityRules
