/-
  EsFeatures.Text.CodeRange

  Closed ranges of code points, the entries of the character tables.
-/

namespace EsFeatures.Text

/-- The code points from `first` to `last`, both included. -/
structure CodeRange where
  first : Nat
  last : Nat
deriving Repr, DecidableEq

/-- Whether a code point lies in the range. -/
def CodeRange.contains (r : CodeRange) (code : Nat) : Bool :=
  r.first ≤ code && code ≤ r.last

end EsFeatures.Text
