import EntityGraph.Number.Shortest

/-!
# Texts of numbers

A layout says which decimal exponents are written in positional notation, whether a whole number
keeps its point, and which way ties go. `Binary64.text` writes a number by
a layout, and `Binary64.parse?` reads decimals.
-/

namespace EntityGraph

/-- The choices in writing a floating point number. -/
structure DecimalLayout where
  /-- Whether a leading digit of this decimal exponent is written in positional notation. -/
  positional : Int → Bool
  /-- Whether a whole number in positional notation ends in a point and a zero. -/
  keepsPoint : Bool
  /-- Which of two shortest decimals that are equally near is written. -/
  tie : DecimalTie

namespace DecimalLayout

/-- Positional notation with the digits `ds`, the first of which has the exponent `e`. -/
def writePositional (layout : DecimalLayout) (ds : List Char) (e : Int) : List Char :=
  if e < 0 then ['0', '.'] ++ List.replicate (-e - 1).toNat '0' ++ ds
  else
    let whole := e.toNat + 1
    if ds.length ≤ whole then
      ds ++ List.replicate (whole - ds.length) '0' ++ (if layout.keepsPoint then ['.', '0'] else [])
    else ds.take whole ++ ['.'] ++ ds.drop whole

/-- Scientific notation: one digit before the point, a signed exponent without padding. -/
def writeScientific (ds : List Char) (e : Int) : List Char :=
  let fraction := match ds.drop 1 with
    | [] => []
    | rest => '.' :: rest
  let sign := if e < 0 then '-' else '+'
  ds.take 1 ++ fraction ++ ['e', sign] ++ Nat.toDigits 10 e.natAbs

/-- The digits `ds` in the notation that the layout chooses for the exponent `e` of the first. -/
def write (layout : DecimalLayout) (ds : List Char) (e : Int) : List Char :=
  if layout.positional e then layout.writePositional ds e else writeScientific ds e

end DecimalLayout

namespace Binary64

/-- The significant digits of a positive finite number and the exponent of the first. -/
def significant (tie : DecimalTie) (x : Binary64) : List Char × Int :=
  let d := x.shortest tie
  let ds := Nat.toDigits 10 d.digits
  let trimmed := (ds.reverse.dropWhile (· == '0')).reverse
  (trimmed, d.exponent + (ds.length : Int) - 1)

/-- A number written by a layout. -/
def text (layout : DecimalLayout) (x : Binary64) : String :=
  let sign := if x.isNegative then ['-'] else []
  String.ofList <|
    if x.isNaN then ['N', 'a', 'N']
    else if x.isInfinite then sign ++ ['i', 'n', 'f']
    else if x.magnitude = 0 then sign ++ layout.write ['0'] 0
    else
      let (ds, e) := x.significant layout.tie
      sign ++ layout.write ds e

/-- The value of a digit list in base ten. -/
def digitsValue (ds : List Char) : Nat :=
  ds.foldl (fun n c => 10 * n + (c.toNat - '0'.toNat)) 0

/-- The optional exponent at the end of a decimal. -/
def parseExponent? : List Char → Option Int
  | [] => some 0
  | c :: rest =>
    if c = 'e' ∨ c = 'E' then
      let (negative, ds) := match rest with
        | '-' :: ds => (true, ds)
        | '+' :: ds => (false, ds)
        | ds => (false, ds)
      if !ds.isEmpty && ds.all Char.isDigit then
        some (if negative then -(digitsValue ds : Int) else digitsValue ds)
      else none
    else none

/-- The number nearest to an unsigned decimal: digits, a fraction, an exponent. -/
def parseMagnitude? (negative : Bool) (s : List Char) : Option Binary64 :=
  let whole := s.takeWhile Char.isDigit
  let rest := s.dropWhile Char.isDigit
  let (fraction, rest) := match rest with
    | '.' :: more => (more.takeWhile Char.isDigit, more.dropWhile Char.isDigit)
    | more => ([], more)
  if whole.isEmpty && fraction.isEmpty then none
  else (parseExponent? rest).map fun e =>
    ofDecimal negative (digitsValue (whole ++ fraction)) (e - fraction.length)

/-- Read a decimal, an infinity or the text of what is not a number. -/
def parse? (s : String) : Option Binary64 :=
  let (negative, body) := match s.toList with
    | '-' :: rest => (true, rest)
    | rest => (false, rest)
  if body = ['i', 'n', 'f'] then some (infinity negative)
  else if body = ['N', 'a', 'N'] then some nan
  else parseMagnitude? negative body

end Binary64

end EntityGraph
