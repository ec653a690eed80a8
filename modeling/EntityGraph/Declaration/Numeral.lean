import EntityGraph.Declaration.Quotation

/-!
# Numerals

Numbers are written in base ten, or after a sign in base two, eight or sixteen. Underscores may
stand among the digits, and a word after them says the kind of the number.
-/

namespace EntityGraph.Numeral

/-- Whether a character can stand among decimal digits. -/
def isDigitOrSpacer (c : Char) : Bool :=
  c.isDigit || c == '_'

/-- What follows the digits of an exponent with its sign. -/
def exponent? (s : List Char) : Option (List Char) :=
  let digits := fun (s : List Char) =>
    if (s.takeWhile isDigitOrSpacer).any Char.isDigit then some (s.dropWhile isDigitOrSpacer)
    else none
  match s.dropWhile (· == '_') with
  | '+' :: rest => digits rest
  | '-' :: rest => digits rest
  | rest => digits rest

/-- Whether an exponent can follow. -/
def startsExponent (s : List Char) : Bool :=
  s.head?.any fun c => c == 'e' || c == 'E'

/-- What follows a number with a fraction or an exponent. -/
def float? (s : List Char) : Option (List Char) :=
  if !s.head?.any Char.isDigit then none
  else match s.dropWhile isDigitOrSpacer with
    | '.' :: rest =>
      if rest.head?.any fun c => c == '.' || Text.isWordStart c then none
      else
        let rest := rest.dropWhile isDigitOrSpacer
        if startsExponent rest then some ((exponent? (rest.drop 1)).getD rest) else some rest
    | rest => if startsExponent rest then exponent? (rest.drop 1) else none

/-- The base of a whole number, and its digits with what follows them. -/
def base : List Char → Nat × List Char
  | '0' :: 'x' :: rest => (16, rest)
  | '0' :: 'o' :: rest => (8, rest)
  | '0' :: 'b' :: rest => (2, rest)
  | s => (10, s)

/-- What follows the digits of a whole number. A decimal digit beyond the base is an error, but a
letter beyond it ends the digits. -/
def integer? (s : List Char) : Option (List Char) :=
  let (b, s) := base s
  let isDigit := fun (c : Char) =>
    isDigitOrSpacer c || (b == 16 && (Quotation.hexDigit? c).isSome)
  let digits := s.takeWhile isDigit
  if digits.all (· == '_') || digits.any fun c => c.isDigit && b ≤ c.toNat - 48 then none
  else if b = 10 ∧ digits.head? = some '_' then none
  else some (s.dropWhile isDigit)

/-- What follows a number and the word of its kind. -/
def finish (rest : List Char) : Option (List Char) :=
  let rest := Text.dropWord rest
  if rest.head?.any Text.isWordPart then none else some rest

/-- What follows the number at the start of a text. -/
def read? (s : List Char) : Option (List Char) :=
  ((float? s).bind finish).or ((integer? s).bind finish)

end EntityGraph.Numeral
