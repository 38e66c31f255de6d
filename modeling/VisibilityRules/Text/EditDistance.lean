set_option autoImplicit false

/-!
Edit distance: the least number of characters to insert, delete or replace to turn one text into
another.
-/
namespace VisibilityRules.Text

/-- From the distances of a text to every tail of `target`, longest tail first, to those of the
text with `c` in front. -/
def extendDistances (c : Char) : List Char → List Nat → List Nat
  | t :: target, d :: d' :: ds =>
    let later := extendDistances c target (d' :: ds)
    let replaced := d' + if c = t then 0 else 1
    min (min (d + 1) (later.headD 0 + 1)) replaced :: later
  | _, ds => ds.map (· + 1)

def tailLengths : List Char → List Nat
  | [] => [0]
  | _ :: target => (target.length + 1) :: tailLengths target

def editDistance (source target : List Char) : Nat :=
  (source.foldr (fun c ds => extendDistances c target ds) (tailLengths target)).headD 0

end VisibilityRules.Text
