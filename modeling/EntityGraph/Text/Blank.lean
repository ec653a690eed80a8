/-!
# Blanks, words and lines

The white space of Unicode, and the three cuts that rest on it: a text without its outer blanks, its
words, and its lines.
-/

namespace EntityGraph.Text

/-- White space: the ASCII blanks from tab to carriage return, and the separators of Unicode. -/
def isBlank (c : Char) : Bool :=
  let n := c.toNat
  (9 ≤ n && n ≤ 13) || n == 32 || n == 0x85 || n == 0xA0 || n == 0x1680 ||
    (0x2000 ≤ n && n ≤ 0x200A) || n == 0x2028 || n == 0x2029 || n == 0x202F || n == 0x205F ||
    n == 0x3000

/-- A text without the blanks at its start. -/
def trimStart (s : List Char) : List Char :=
  s.dropWhile isBlank

/-- A text without the blanks at its end. -/
def trimEnd (s : List Char) : List Char :=
  (s.reverse.dropWhile isBlank).reverse

/-- A text without the blanks at its ends. -/
def trim (s : List Char) : List Char :=
  trimEnd (trimStart s)

/-- The pieces of a text between the characters that satisfy `sep`. -/
def splitBy (sep : Char → Bool) : List Char → List (List Char)
  | [] => [[]]
  | c :: rest =>
    if sep c then [] :: splitBy sep rest
    else match splitBy sep rest with
      | [] => [[c]]
      | piece :: pieces => (c :: piece) :: pieces

/-- The maximal runs without a blank. -/
def words (s : List Char) : List (List Char) :=
  (splitBy isBlank s).filter (!·.isEmpty)

/-- The lines of a text: a line feed ends a line, and a carriage return before it is no part. -/
def lines (s : List Char) : List (List Char) :=
  let pieces := splitBy (· == '\n') s
  let ended := pieces.dropLast.map fun l => if l.getLast? = some '\r' then l.dropLast else l
  ended ++ pieces.getLast?.toList.filter (!·.isEmpty)

end EntityGraph.Text
