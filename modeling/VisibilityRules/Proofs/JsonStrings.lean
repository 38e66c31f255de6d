import Mathlib
import VisibilityRules.Json.Text
import VisibilityRules.Json.Token
import VisibilityRules.Proofs.Numerals

set_option autoImplicit false

/-!
String literals of any form. A character may stand for itself or be escaped, as UTF-16 if need be,
and a literal is read as the text it stands for, or as none if half of a surrogate pair is left.
-/
namespace VisibilityRules.Json

open Text (IsHexDigit)

/-! ### Literals as they are written -/

/-- The letters that stand for a character behind a backslash. -/
def shortEscapes : List (Char × Char) :=
  [('"', '"'), ('\\', '\\'), ('/', '/'), ('b', '\x08'), ('f', '\x0c'), ('n', '\n'), ('r', '\r'),
   ('t', '\t')]

inductive WritesPiece : Piece → List Char → Prop
  | plain {c : Char} : 0x20 ≤ c.toNat → c ≠ '"' → c ≠ '\\' → WritesPiece (.plain c) [c]
  | short {letter c : Char} : (letter, c) ∈ shortEscapes → WritesPiece (.plain c) ['\\', letter]
  | unit {a b c d : Char} {w x y z : Nat} :
      IsHexDigit a w → IsHexDigit b x → IsHexDigit c y → IsHexDigit d z →
      WritesPiece (.unit (((w * 16 + x) * 16 + y) * 16 + z)) ['\\', 'u', a, b, c, d]

inductive WritesPieces : List Piece → List Char → Prop
  | nil : WritesPieces [] []
  | cons {piece : Piece} {pieces : List Piece} {front text : List Char} :
      WritesPiece piece front → WritesPieces pieces text →
      WritesPieces (piece :: pieces) (front ++ text)

/-- The text of pieces whose units are those of UTF-16. -/
inductive Compose : List Piece → List Char → Prop
  | nil : Compose [] []
  | plain {c : Char} {pieces : List Piece} {cs : List Char} :
      Compose pieces cs → Compose (.plain c :: pieces) (c :: cs)
  | unit {c : Char} {pieces : List Piece} {cs : List Char} :
      Compose pieces cs → Compose (.unit c.toNat :: pieces) (c :: cs)
  | pair {c : Char} {pieces : List Piece} {cs : List Char} :
      0x10000 ≤ c.toNat → Compose pieces cs →
      Compose (.unit (0xD800 + (c.toNat - 0x10000) / 0x400) ::
        .unit (0xDC00 + (c.toNat - 0x10000) % 0x400) :: pieces) (c :: cs)

inductive WritesString : Option String → List Char → Prop
  | text {pieces : List Piece} {cs written : List Char} :
      WritesPieces pieces written → Compose pieces cs →
      WritesString (some (String.ofList cs)) ('"' :: (written ++ ['"']))
  -- Half of a surrogate pair is left.
  | broken {pieces : List Piece} {written : List Char} :
      WritesPieces pieces written → (∀ cs, ¬ Compose pieces cs) →
      WritesString none ('"' :: (written ++ ['"']))

/-! ### Pieces -/

theorem readString_plain {c : Char} {rest : List Char} (quote : c ≠ '"') (slash : c ≠ '\\')
    (control : ¬ c.toNat < 0x20) :
    readString (c :: rest) = prepend (.plain c) (readString rest) := by
  rw [readString.eq_def]
  split
  all_goals simp_all

theorem readString_piece {piece : Piece} {text : List Char} (writes : WritesPiece piece text)
    (rest : List Char) : readString (text ++ rest) = prepend piece (readString rest) := by
  cases writes with
  | plain control quote slash => exact readString_plain quote slash (Nat.not_lt.mpr control)
  | @short letter c listed =>
    simp only [shortEscapes, List.mem_cons, Prod.mk.injEq, List.not_mem_nil, or_false] at listed
    rcases listed with ⟨rfl, rfl⟩ | ⟨rfl, rfl⟩ | ⟨rfl, rfl⟩ | ⟨rfl, rfl⟩ | ⟨rfl, rfl⟩ | ⟨rfl, rfl⟩ |
      ⟨rfl, rfl⟩ | ⟨rfl, rfl⟩
    all_goals rfl
  | @unit a b c d w x y z first second third fourth =>
    have unit : unit? a b c d = some (((w * 16 + x) * 16 + y) * 16 + z) := by
      simp [unit?, first.digitValue, second.digitValue, third.digitValue, fourth.digitValue,
        Text.appendDigits]
    simp only [List.cons_append, List.nil_append, readString, unit]

theorem readString_written {pieces : List Piece} {text : List Char}
    (writes : WritesPieces pieces text) (rest : List Char) :
    readString (text ++ '"' :: rest) = some (pieces, rest) := by
  induction writes with
  | nil => rfl
  | cons first _ ih =>
    rw [List.append_assoc, readString_piece first, ih]
    rfl

theorem WritesPiece.unit_lt {n : Nat} {text : List Char} (writes : WritesPiece (.unit n) text) :
    n < 0x10000 := by
  cases writes with
  | unit first second third fourth =>
    have := first.value_lt
    have := second.value_lt
    have := third.value_lt
    have := fourth.value_lt
    omega

theorem WritesPieces.unit_lt {pieces : List Piece} {text : List Char}
    (writes : WritesPieces pieces text) {n : Nat} (mem : .unit n ∈ pieces) : n < 0x10000 := by
  induction writes with
  | nil => exact absurd mem List.not_mem_nil
  | cons first _ ih =>
    rcases List.mem_cons.mp mem with rfl | later
    · exact first.unit_lt
    · exact ih later

/-! ### Units -/

theorem not_isSurrogate (c : Char) : isHighUnit c.toNat = false ∧ isLowUnit c.toNat = false := by
  have valid : c.toNat < 0xD800 ∨ 0xDFFF < c.toNat ∧ c.toNat < 0x110000 := c.valid
  constructor
  · simp [isHighUnit]
    omega
  · simp [isLowUnit]
    omega

theorem join_unit (c : Char) (rest : List Piece) :
    join? (.unit c.toNat :: rest) = (join? rest).map (c :: ·) := by
  obtain ⟨high, low⟩ := not_isSurrogate c
  cases rest with
  | nil => simp [join?, high, low, Char.ofNat_toNat]
  | cons piece rest => cases piece <;> simp [join?, high, low, Char.ofNat_toNat]

theorem join_of_compose {pieces : List Piece} {cs : List Char} (compose : Compose pieces cs) :
    join? pieces = some cs := by
  induction compose with
  | nil => rfl
  | plain _ ih => rw [join?, ih, Option.map_some]
  | unit _ ih => rw [join_unit, ih, Option.map_some]
  | @pair c pieces cs astral _ ih =>
    have valid : c.toNat < 0xD800 ∨ 0xDFFF < c.toNat ∧ c.toNat < 0x110000 := c.valid
    have high : isHighUnit (0xD800 + (c.toNat - 0x10000) / 0x400) = true := by
      simp [isHighUnit]
      omega
    have low : isLowUnit (0xDC00 + (c.toNat - 0x10000) % 0x400) = true := by
      simp [isLowUnit]
      omega
    have whole : 0x10000 + (0xD800 + (c.toNat - 0x10000) / 0x400 - 0xD800) * 0x400 +
        (0xDC00 + (c.toNat - 0x10000) % 0x400 - 0xDC00) = c.toNat := by omega
    rw [join?, if_pos high, if_pos low, ih, pairChar, whole, Char.ofNat_toNat, Option.map_some]

theorem compose_unit {n : Nat} {pieces : List Piece} {cs : List Char} (small : n < 0x10000)
    (high : isHighUnit n = false) (low : isLowUnit n = false) (compose : Compose pieces cs) :
    Compose (.unit n :: pieces) (Char.ofNat n :: cs) := by
  simp only [isHighUnit, isLowUnit, Bool.and_eq_false_iff, decide_eq_false_iff_not] at high low
  have valid : n.isValidChar := by
    unfold Nat.isValidChar
    omega
  have same : (Char.ofNat n).toNat = n := by rw [Char.toNat_ofNat, if_pos valid]
  have composed := @Compose.unit (Char.ofNat n) _ _ compose
  rwa [same] at composed

theorem compose_pair {high low : Nat} {pieces : List Piece} {cs : List Char}
    (first : isHighUnit high = true) (second : isLowUnit low = true)
    (compose : Compose pieces cs) :
    Compose (.unit high :: .unit low :: pieces) (pairChar high low :: cs) := by
  simp only [isHighUnit, isLowUnit, Bool.and_eq_true, decide_eq_true_eq] at first second
  have valid : (0x10000 + (high - 0xD800) * 0x400 + (low - 0xDC00)).isValidChar := by
    unfold Nat.isValidChar
    omega
  have same : (pairChar high low).toNat = 0x10000 + (high - 0xD800) * 0x400 + (low - 0xDC00) := by
    rw [pairChar, Char.toNat_ofNat, if_pos valid]
  have composed := @Compose.pair (pairChar high low) _ _ (by omega) compose
  have front : 0xD800 + ((pairChar high low).toNat - 0x10000) / 0x400 = high := by omega
  have back : 0xDC00 + ((pairChar high low).toNat - 0x10000) % 0x400 = low := by omega
  rwa [front, back] at composed

theorem compose_of_join {pieces : List Piece} {cs : List Char}
    (small : ∀ n, .unit n ∈ pieces → n < 0x10000) (joined : join? pieces = some cs) :
    Compose pieces cs := by
  fun_induction join? pieces generalizing cs with
  | case1 =>
    obtain rfl := Option.some.inj joined
    exact .nil
  | case2 c rest ih =>
    obtain ⟨later, read, rfl⟩ := Option.map_eq_some_iff.mp joined
    exact .plain (ih (fun n mem => small n (by simp [mem])) read)
  | case3 high low rest first second ih =>
    obtain ⟨later, read, rfl⟩ := Option.map_eq_some_iff.mp joined
    exact compose_pair first second (ih (fun n mem => small n (by simp [mem])) read)
  | case4 => exact nomatch joined
  | case5 => exact nomatch joined
  | case6 high low rest first second ih =>
    obtain ⟨later, read, rfl⟩ := Option.map_eq_some_iff.mp joined
    exact compose_unit (small high (by simp)) (by simpa using first) (by simpa using second)
      (ih (fun n mem => small n (List.mem_cons_of_mem _ mem)) read)
  | case7 => exact nomatch joined
  | case8 n rest _ plain ih =>
    obtain ⟨later, read, rfl⟩ := Option.map_eq_some_iff.mp joined
    simp only [Bool.or_eq_true, not_or, Bool.not_eq_true] at plain
    exact compose_unit (small n (by simp)) plain.1 plain.2
      (ih (fun n mem => small n (List.mem_cons_of_mem _ mem)) read)

/-- A literal is read as what it stands for, whatever follows. -/
theorem readToken_string {s : Option String} {text : List Char} (writes : WritesString s text)
    (rest : List Char) : readToken? (text ++ rest) = some (.string s, rest) := by
  have quoted {pieces : List Piece} {written : List Char} (each : WritesPieces pieces written) :
      readToken? ('"' :: (written ++ ['"']) ++ rest) =
        some (.string ((join? pieces).map String.ofList), rest) := by
    rw [List.cons_append, List.append_assoc, List.singleton_append]
    show (readString _).map _ = _
    rw [readString_written each, Option.map_some]
  cases writes with
  | text each compose => rw [quoted each, join_of_compose compose, Option.map_some]
  | @broken pieces written each broken =>
    have unjoined : join? pieces = none := by
      rw [Option.eq_none_iff_forall_ne_some]
      exact fun cs joined => broken cs (compose_of_join (fun _ => each.unit_lt) joined)
    rw [quoted each, unjoined, Option.map_none]

/-! ### Literals as they are printed -/

theorem isHexDigit_hexDigit {n : Nat} (small : n < 16) : IsHexDigit (hexDigit n) n := by
  revert n
  decide

theorem isHexDigit_zero : IsHexDigit '0' 0 := by decide

/-- However a character is escaped, it is written as a piece that means it. -/
theorem exists_piece (c : Char) : ∃ piece : Piece, WritesPiece piece (escapeChar c) ∧
    ∀ {pieces : List Piece} {cs : List Char},
      Compose pieces cs → Compose (piece :: pieces) (c :: cs) := by
  unfold escapeChar
  split
  all_goals try exact ⟨.plain _, .short (by decide), .plain⟩
  next _ quote slash _ _ _ _ _ =>
    by_cases control : c.toNat < 0x20
    next =>
      have written := WritesPiece.unit isHexDigit_zero isHexDigit_zero
        (isHexDigit_hexDigit (n := c.toNat / 16) (by omega))
        (isHexDigit_hexDigit (n := c.toNat % 16) (by omega))
      have whole : ((0 * 16 + 0) * 16 + c.toNat / 16) * 16 + c.toNat % 16 = c.toNat := by omega
      rw [whole] at written
      rw [if_pos control]
      exact ⟨_, written, .unit⟩
    next =>
      rw [if_neg control]
      exact ⟨_, .plain (Nat.not_lt.mp control) quote slash, .plain⟩

theorem exists_pieces_printed (cs : List Char) :
    ∃ pieces, WritesPieces pieces (cs.flatMap escapeChar) ∧ Compose pieces cs := by
  induction cs with
  | nil => exact ⟨[], .nil, .nil⟩
  | cons c cs ih =>
    obtain ⟨pieces, written, compose⟩ := ih
    obtain ⟨piece, front, means⟩ := exists_piece c
    exact ⟨piece :: pieces, .cons front written, means compose⟩

/-- A string that no text fits is printed as one that no text fits. -/
theorem writesString_print (s : Option String) : WritesString s (printString s) := by
  cases s with
  | some s =>
    obtain ⟨pieces, written, compose⟩ := exists_pieces_printed s.toList
    have text := WritesString.text written compose
    rwa [String.ofList_toList] at text
  | none =>
    have half : WritesPieces [.unit 0xD800] "\\ud800".toList :=
      .cons (.unit (w := 0xD) (x := 8) (y := 0) (z := 0) (by decide) (by decide) (by decide)
        (by decide)) .nil
    have alone : join? [.unit 0xD800] = none := rfl
    exact .broken half fun cs compose => nomatch alone.symm.trans (join_of_compose compose)

end VisibilityRules.Json
