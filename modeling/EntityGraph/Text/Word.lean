import EntityGraph.Text.WordTable

/-!
# Words

The words of a declaration: letters of all scripts, digits and underscores, not starting with a
digit or a mark.
-/

namespace EntityGraph.Text

/-- Whether a word can start with a character. -/
def isWordStart (c : Char) : Bool :=
  c == '_' || (if c.toNat < 128 then c.isAlpha else inTable wordStarts c.toNat)

/-- Whether a word can go on with a character. -/
def isWordPart (c : Char) : Bool :=
  isWordStart c || (if c.toNat < 128 then c.isDigit else inTable wordParts c.toNat)

/-- The word at the start of a text, and what follows it. -/
def word? (s : List Char) : Option (List Char × List Char) :=
  if s.head?.any isWordStart then some (s.takeWhile isWordPart, s.dropWhile isWordPart) else none

/-- What follows the word at the start of a text, if there is one. -/
def dropWord (s : List Char) : List Char :=
  ((word? s).map (·.2)).getD s

/-- What is read of a text, given what follows it. -/
def readPart (s rest : List Char) : List Char :=
  s.take (s.length - rest.length)

end EntityGraph.Text
