/-!
# Prefixes and suffixes

Removal of a fixed text from either end of another.
-/

namespace EntityGraph.Text

/-- A text without a given start, if it has that start. -/
def stripStart? : List Char → List Char → Option (List Char)
  | [], s => some s
  | _ :: _, [] => none
  | p :: ps, c :: s => if p = c then stripStart? ps s else none

/-- A text without a given end, if it has that end. -/
def stripEnd? (ending s : List Char) : Option (List Char) :=
  (stripStart? ending.reverse s.reverse).map List.reverse

/-- Remove a start `p` of at least one character as often as it occurs; `n` bounds the number. -/
def stripRepeated (p : List Char) : Nat → List Char → List Char
  | 0, s => s
  | n + 1, s => match stripStart? p s with
    | some rest => stripRepeated p n rest
    | none => s

/-- A text without any number of copies of a start. -/
def stripAll (p : List Char) (s : List Char) : List Char :=
  stripRepeated p s.length s

/-- Whether a text has another in it. -/
def occursIn (p : List Char) : List Char → Bool
  | [] => p.isEmpty
  | c :: s => p.isPrefixOf (c :: s) || occursIn p s

end EntityGraph.Text
