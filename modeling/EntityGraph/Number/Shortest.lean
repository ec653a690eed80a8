import EntityGraph.Number.Binary64

/-!
# Shortest decimals

The text of a floating point number has the fewest digits that read back as the same number, and of
those the digits nearest to it. Where two are equally near, a rule for ties chooses. All comparisons
are exact.
-/

namespace EntityGraph

/-- The decimal `digits * 10 ^ exponent`. -/
structure Decimal where
  digits : Nat
  exponent : Int

/-- Which of two neighbouring decimals stands for a number halfway between them. -/
inductive DecimalTie where
  /-- The one with an even last digit. -/
  | even
  /-- The larger one. -/
  | larger
  deriving DecidableEq

/-- Whether the lower of two neighbouring decimals is chosen, given twice the distance to it against
the distance of both. -/
def DecimalTie.choosesLower (tie : DecimalTie) (lower : Nat) : Ordering → Bool
  | .lt => true
  | .gt => false
  | .eq => tie == .even && lower % 2 == 0

namespace Binary64

/-- A number with the interval of reals that round to it, all as numerators over one denominator. -/
structure Neighbourhood where
  value : Nat
  low : Nat
  high : Nat
  denominator : Nat
  closed : Bool

/-- The interval of reals that round to a positive finite number; its ends do if the significand is
even. -/
def neighbourhood (x : Binary64) : Neighbourhood :=
  let (m, e) := x.decode
  let below := if m = twoPow 52 ∧ -1074 < e then 1 else 2
  let up := twoPow (e - 2).toNat
  { value := 4 * m * up
    low := (4 * m - below) * up
    high := (4 * m + 2) * up
    denominator := twoPow (2 - e).toNat
    closed := m % 2 == 0 }

/-- Whether the decimal `a * 10 ^ k` lies in the interval. -/
def Neighbourhood.holds (v : Neighbourhood) (a : Nat) (k : Int) : Bool :=
  let point := a * tenPow k.toNat * v.denominator
  let unit := tenPow (-k).toNat
  if v.closed then v.low * unit ≤ point && point ≤ v.high * unit
  else v.low * unit < point && point < v.high * unit

/-- The largest multiple of `10 ^ k` that is not above the number, and twice the remainder against
the unit. -/
def Neighbourhood.below (v : Neighbourhood) (k : Int) : Nat × Ordering :=
  let n := v.value * tenPow (-k).toNat
  let d := v.denominator * tenPow k.toNat
  (n / d, compare (2 * (n % d)) d)

/-- The decimal nearest to the number on the grid of `10 ^ k`, if one there reads back. -/
def Neighbourhood.onGrid? (v : Neighbourhood) (tie : DecimalTie) (k : Int) : Option Decimal :=
  let (a, half) := v.below k
  match v.holds a k, v.holds (a + 1) k with
  | true, true => some ⟨if tie.choosesLower a half then a else a + 1, k⟩
  | true, false => some ⟨a, k⟩
  | false, true => some ⟨a + 1, k⟩
  | false, false => none

/-- The first decimal that reads back on ever finer grids, starting from `10 ^ k`. -/
def Neighbourhood.search (v : Neighbourhood) (tie : DecimalTie) : Nat → Int → Decimal
  | 0, k => ⟨(v.below k).1, k⟩
  | steps + 1, k => (v.onGrid? tie k).getD (v.search tie steps (k - 1))

/-- An exponent of ten above every number of the interval. -/
def Neighbourhood.topExponent (v : Neighbourhood) : Int :=
  if v.denominator ≤ v.value then ((v.value / v.denominator).log2 : Int) / 3 + 1
  else -(((v.denominator / v.value).log2 : Int) / 4)

/-- The shortest decimal of a positive finite number. -/
def shortest (tie : DecimalTie) (x : Binary64) : Decimal :=
  let v := x.neighbourhood
  v.search tie 1100 v.topExponent

end Binary64

end EntityGraph
