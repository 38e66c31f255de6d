import Mathlib
import VisibilityRules.Text.LowerCase

set_option autoImplicit false

/-!
Letters in either case. Words of small ASCII letters and digits are what a text is lowered to just
if the text differs from them in the case of its ASCII letters: of the letters of other alphabets
only the Kelvin sign becomes an ASCII one.
-/
namespace VisibilityRules.Text

def IsCapitalOf (c d : Char) : Prop := ('A' ≤ c ∧ c ≤ 'Z') ∧ d.toNat = c.toNat + 32

/-- The same character, or the two forms of one ASCII letter. -/
def SameLetter (c d : Char) : Prop := c = d ∨ IsCapitalOf c d ∨ IsCapitalOf d c

theorem isCapital_iff {c : Char} : ('A' ≤ c ∧ c ≤ 'Z') ↔ 0x41 ≤ c.toNat ∧ c.toNat ≤ 0x5A := by
  rfl

theorem toNat_lowerAscii (c : Char) :
    (lowerAscii c).toNat = if 'A' ≤ c ∧ c ≤ 'Z' then c.toNat + 32 else c.toNat := by
  rw [lowerAscii]
  by_cases capital : 'A' ≤ c ∧ c ≤ 'Z'
  next =>
    have bounds := isCapital_iff.mp capital
    have valid : (c.toNat + 32).isValidChar := .inl (by omega)
    rw [if_pos (by simpa using capital), if_pos capital, Char.toNat_ofNat, if_pos valid]
  next => rw [if_neg (by simpa using capital), if_neg capital]

theorem lowerAscii_eq_iff {c d : Char} : lowerAscii c = lowerAscii d ↔ SameLetter c d := by
  rw [← Char.toNat_inj, toNat_lowerAscii, toNat_lowerAscii, SameLetter, IsCapitalOf, IsCapitalOf,
    ← Char.toNat_inj]
  simp only [isCapital_iff]
  split <;> split <;> omega

theorem eqIgnoringAsciiCase_iff {a b : List Char} :
    eqIgnoringAsciiCase a b = true ↔ List.Forall₂ SameLetter a b := by
  rw [eqIgnoringAsciiCase, beq_iff_eq, ← List.forall₂_eq_eq_eq, List.forall₂_map_left_iff,
    List.forall₂_map_right_iff]
  simp only [lowerAscii_eq_iff]

/-! ### Lowered texts -/

theorem lowerFrom_cases (n : Nat) (runs : List CaseRun) :
    lowerFrom n runs = n ∨
      ∃ run ∈ runs, run.first ≤ n ∧ n ≤ run.last ∧ lowerFrom n runs = (n + run.shift).toNat := by
  induction runs with
  | nil => exact .inl rfl
  | cons run later ih =>
    rw [lowerFrom]
    split
    next => exact .inl rfl
    next reached =>
      split
      next within =>
        rw [Bool.and_eq_true, decide_eq_true_eq] at within
        exact .inr ⟨run, List.mem_cons_self, by omega, within.1, rfl⟩
      next =>
        apply ih.imp_right
        rintro ⟨other, mem, lowered⟩
        exact ⟨other, List.mem_cons_of_mem run mem, lowered⟩

set_option maxRecDepth 2048 in
/-- The runs of letters: the ASCII ones, the Kelvin sign, and those that stay outside ASCII. -/
theorem caseRuns_cases : ∀ run ∈ caseRuns,
    run.first = 0x41 ∧ run.last = 0x5A ∧ run.shift = 32 ∨
      run.first = 0x212A ∧ run.last = 0x212A ∧ run.shift = -8383 ∨
      0x80 ≤ run.first ∧ 0x80 ≤ run.first + run.shift := by
  decide

theorem lowerFrom_capital {n : Nat} (capital : 0x41 ≤ n ∧ n ≤ 0x5A) :
    lowerFrom n caseRuns = n + 32 := by
  rw [caseRuns, lowerFrom, if_neg (by simp only; omega), if_pos (by simp; omega)]
  simp only
  omega

/-- A small letter or a digit, and not the `k` that a Kelvin sign becomes as well. -/
def IsWordChar (d : Char) : Prop :=
  (('a' ≤ d ∧ d ≤ 'z') ∨ ('0' ≤ d ∧ d ≤ '9')) ∧ d ≠ 'k'

instance (d : Char) : Decidable (IsWordChar d) := inferInstanceAs (Decidable (_ ∧ _))

theorem isWordChar_iff {d : Char} : IsWordChar d ↔
    ((0x61 ≤ d.toNat ∧ d.toNat ≤ 0x7A) ∨ (0x30 ≤ d.toNat ∧ d.toNat ≤ 0x39)) ∧ d.toNat ≠ 0x6B := by
  rw [IsWordChar, ← Char.toNat_inj.ne]
  rfl

theorem lowerFrom_eq_iff {c d : Char} (small : IsWordChar d) :
    lowerFrom c.toNat caseRuns = d.toNat ↔ SameLetter c d := by
  have bounds := isWordChar_iff.mp small
  rw [SameLetter, IsCapitalOf, IsCapitalOf, isCapital_iff, isCapital_iff, ← Char.toNat_inj]
  by_cases capital : 0x41 ≤ c.toNat ∧ c.toNat ≤ 0x5A
  next =>
    rw [lowerFrom_capital capital]
    omega
  next =>
    rcases lowerFrom_cases c.toNat caseRuns with same | ⟨run, mem, above, below, lowered⟩
    · rw [same]
      omega
    · rw [lowered]
      have apart := caseRuns_cases run mem
      omega

theorem ofNat_eq_iff {n : Nat} {d : Char} (nonzero : d.toNat ≠ 0) :
    Char.ofNat n = d ↔ n = d.toNat := by
  rw [← Char.toNat_inj, Char.toNat_ofNat]
  split
  next => rfl
  next invalid =>
    refine iff_of_false (Ne.symm nonzero) ?_
    rintro rfl
    exact invalid d.valid

theorem lowerChar_eq_iff {c d : Char} (small : IsWordChar d) :
    lowerChar c = [d] ↔ SameLetter c d := by
  have bounds := isWordChar_iff.mp small
  rw [lowerChar]
  split
  next dotted =>
    have code : c.toNat = 0x130 := by rw [dotted]; rfl
    refine iff_of_false (by simp) ?_
    rw [SameLetter, IsCapitalOf, IsCapitalOf, isCapital_iff, isCapital_iff, ← Char.toNat_inj]
    omega
  next => rw [List.singleton_inj, ofNat_eq_iff (by omega), lowerFrom_eq_iff small]

theorem lowerChars_eq_iff {cs ds : List Char} (small : ∀ d ∈ ds, IsWordChar d) :
    lowerChars cs = ds ↔ List.Forall₂ SameLetter cs ds := by
  induction cs generalizing ds with
  | nil => simp [lowerChars, eq_comm]
  | cons c cs ih =>
    have whole : lowerChars (c :: cs) = lowerChar c ++ lowerChars cs := List.flatMap_cons
    rw [whole]
    cases ds with
    | nil =>
      have nonempty : lowerChar c ≠ [] := by
        unfold lowerChar
        split <;> exact List.cons_ne_nil _ _
      simp [nonempty]
    | cons d ds =>
      obtain ⟨first, others⟩ := List.forall_mem_cons.mp small
      rw [List.forall₂_cons, ← ih others, ← lowerChar_eq_iff first, lowerChar]
      split
      next =>
        -- The dot that a dotted capital leaves is in no word.
        refine iff_of_false ?_ (by simp)
        intro same
        rw [List.cons_append, List.cons.injEq] at same
        have dot : IsWordChar '\u0307' := others _ (by simp [← same.2])
        exact absurd dot (by decide)
      next => simp

/-- Lowering tells a word from other texts as reading it in either case does. -/
theorem lower_eq_iff {text word : String} (small : ∀ d ∈ word.toList, IsWordChar d) :
    lower text = word ↔ List.Forall₂ SameLetter text.toList word.toList := by
  rw [lower, ← lowerChars_eq_iff small, ← String.toList_inj, String.toList_ofList]

end VisibilityRules.Text
