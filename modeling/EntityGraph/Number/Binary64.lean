/-!
# Binary floating point numbers

The 64-bit format as bit patterns, so that every operation is exact arithmetic on naturals and
integers.

* `Binary64.rank?` places the numbers on the integers: order and equality are those of the ranks,
  both zeros have rank zero and what is not a number has none;
* `Binary64.ofRatio` rounds a quotient to the nearest number, a tie to the even one.
-/

namespace EntityGraph

/-- A power of two. -/
def twoPow (n : Nat) : Nat := Nat.pow 2 n

/-- A power of ten. -/
def tenPow (n : Nat) : Nat := Nat.pow 10 n

/-- A floating point number, given by its bit pattern. -/
structure Binary64 where
  bits : UInt64
  deriving DecidableEq

namespace Binary64

/-- The weight of the sign bit. -/
def signWeight : Nat := twoPow 63

/-- The bit pattern of infinity. -/
def infinityBits : Nat := 2047 * twoPow 52

/-- Whether the sign bit is set. -/
def isNegative (x : Binary64) : Bool :=
  signWeight ≤ x.bits.toNat

/-- The bit pattern without the sign. -/
def magnitude (x : Binary64) : Nat :=
  x.bits.toNat % signWeight

/-- Whether the pattern stands for no number. -/
def isNaN (x : Binary64) : Bool :=
  infinityBits < x.magnitude

/-- Whether the pattern stands for one of the two infinities. -/
def isInfinite (x : Binary64) : Bool :=
  x.magnitude == infinityBits

/-- Whether the pattern stands for a real number. -/
def isFinite (x : Binary64) : Bool :=
  x.magnitude < infinityBits

/-- The significand and the binary exponent of a finite number, without its sign. -/
def decode (x : Binary64) : Nat × Int :=
  let field : Nat := x.magnitude / twoPow 52
  let fraction : Nat := x.magnitude % twoPow 52
  if field = 0 then (fraction, -1074) else (fraction + twoPow 52, (field : Int) - 1075)

/-- The place of a number among all numbers. -/
def rank? (x : Binary64) : Option Int :=
  if x.isNaN then none
  else if x.isNegative then some (-(x.magnitude : Int)) else some x.magnitude

/-- The order of two numbers, if both are numbers. -/
def compare? (x y : Binary64) : Option Ordering :=
  match x.rank?, y.rank? with
  | some a, some b => some (compare a b)
  | _, _ => none

/-- Numerical equality: the zeros are equal, and what is not a number equals nothing. -/
def same (x y : Binary64) : Bool :=
  x.compare? y == some .eq

/-- The number with the given sign and magnitude pattern. -/
def ofMagnitude (negative : Bool) (m : Nat) : Binary64 :=
  ⟨UInt64.ofNat (if negative then signWeight + m else m)⟩

/-- The canonical pattern that stands for no number. -/
def nan : Binary64 := ⟨0x7FF8000000000000⟩

/-- One of the infinities. -/
def infinity (negative : Bool) : Binary64 :=
  ofMagnitude negative infinityBits

/-- The quotient rounded to the nearest natural number, a tie to the even one. -/
def divNearest (n d : Nat) : Nat :=
  let q := n / d
  let r := n % d
  if 2 * r < d then q
  else if d < 2 * r then q + 1
  else q + q % 2

/-- The quotient `n / (d * 2 ^ e)` as a quotient of naturals. -/
def scale (n d : Nat) (e : Int) : Nat × Nat :=
  if 0 ≤ e then (n, d * twoPow e.toNat) else (n * twoPow (-e).toNat, d)

/-- The number nearest to `n / d`, a tie to the even one, overflow to infinity. -/
def ofRatio (negative : Bool) (n d : Nat) : Binary64 :=
  if n = 0 then ofMagnitude negative 0
  else
    let least : Int := max ((n.log2 : Int) - (d.log2 : Int) - 53) (-1074)
    let (a, b) := scale n d least
    let e := if twoPow 53 ≤ a / b then least + 1 else least
    let (a, b) := scale n d e
    let pattern := (e + 1074).toNat * twoPow 52 + divNearest a b
    ofMagnitude negative (min pattern infinityBits)

/-- The number nearest to an integer. -/
def ofInt (i : Int) : Binary64 :=
  ofRatio (decide (i < 0)) i.natAbs 1

/-- The number nearest to `digits * 10 ^ exponent`. -/
def ofDecimal (negative : Bool) (digits : Nat) (exponent : Int) : Binary64 :=
  if 0 ≤ exponent then ofRatio negative (digits * tenPow exponent.toNat) 1
  else ofRatio negative digits (tenPow (-exponent).toNat)

end Binary64

end EntityGraph
