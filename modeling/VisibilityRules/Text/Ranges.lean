set_option autoImplicit false

/-!
Sets of code points given as ranges in increasing order, ends included.
-/
namespace VisibilityRules.Text

def inRanges : List (Nat × Nat) → Nat → Bool
  | [], _ => false
  | (low, high) :: later, n => low ≤ n && (n ≤ high || inRanges later n)

end VisibilityRules.Text
