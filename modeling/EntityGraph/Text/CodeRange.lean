/-!
# Ranges of code points

Tables of character properties list stepped ranges: a step of two covers the alphabets whose capital
and small letters alternate.
-/

namespace EntityGraph.Text

/-- Every `step`-th code point from `first` to `last`. -/
structure CodeRange where
  first : Nat
  last : Nat
  step : Nat

/-- Whether a code point is a member of the range. -/
def CodeRange.contains (r : CodeRange) (n : Nat) : Bool :=
  decide (r.first ≤ n) && decide (n ≤ r.last) && (n - r.first) % r.step == 0

/-- Whether a code point is in some range of a table. -/
def inTable (table : List CodeRange) (n : Nat) : Bool :=
  table.any (·.contains n)

/-- The image of a code point under the first range that has it. -/
def image? (table : List (CodeRange × Nat)) (n : Nat) : Option Nat :=
  (table.find? (·.1.contains n)).map fun entry => entry.2 + (n - entry.1.first)

end EntityGraph.Text
