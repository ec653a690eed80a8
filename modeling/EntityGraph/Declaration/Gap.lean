import EntityGraph.Text.Blank

/-!
# Gaps

What stands between the words of an attribute without a meaning of its own: blanks and comments. A
comment goes to the end of its line or to its closing mark, and comments of the second kind nest.
Comments that document something are no gaps.

* `Gap.skip` skips a gap;
* `Gap.documentation?` reads a comment that documents something.
-/

namespace EntityGraph.Gap

/-- Whether a character is a blank between words; the two marks of writing direction count. -/
def isBlank (c : Char) : Bool :=
  Text.isBlank c || c == '\u200E' || c == '\u200F'

/-- A line, and what follows it from its line feed on. -/
def line : List Char → List Char × List Char
  | [] => ([], [])
  | '\n' :: rest => ([], '\n' :: rest)
  | '\r' :: '\n' :: rest => ([], '\n' :: rest)
  | c :: rest =>
    let (content, rest) := line rest
    (c :: content, rest)

/-- What follows a comment whose opening marks have been read, so many of them still open. -/
def afterBlock : Nat → List Char → Option (List Char)
  | _, [] => none
  | depth, '/' :: '*' :: rest => afterBlock (depth + 1) rest
  | depth, '*' :: '/' :: rest => if depth ≤ 1 then some rest else afterBlock (depth - 1) rest
  | depth, _ :: rest => afterBlock depth rest

/-- Whether a comment on one line documents something, by what follows its two strokes: the inner
kind documents what it stands in. -/
def lineKind? : List Char → Option Bool
  | '/' :: '/' :: _ => none
  | '/' :: _ => some false
  | '!' :: _ => some true
  | _ => none

/-- Whether a comment between marks documents something, by what follows its opening mark. -/
def blockKind? : List Char → Option Bool
  | '*' :: '/' :: _ => none
  | '*' :: '*' :: _ => none
  | '*' :: _ => some false
  | '!' :: _ => some true
  | _ => none

/-- A text of at most so many characters without the blanks and the plain comments at its start. -/
def skipUpTo : Nat → List Char → List Char
  | 0, s => s
  | n + 1, '/' :: '/' :: rest =>
    if (lineKind? rest).isSome then '/' :: '/' :: rest else skipUpTo n (line rest).2
  | n + 1, '/' :: '*' :: rest =>
    if (blockKind? rest).isSome then '/' :: '*' :: rest
    else match afterBlock 1 rest with
      | some after => skipUpTo n after
      | none => '/' :: '*' :: rest
  | n + 1, c :: rest => if isBlank c then skipUpTo n rest else c :: rest
  | _, [] => []

/-- A text without the gap at its start. -/
def skip (s : List Char) : List Char :=
  skipUpTo s.length s

/-- Whether every carriage return stands before a line feed. -/
def hasFullBreaks : List Char → Bool
  | [] => true
  | '\r' :: '\n' :: rest => hasFullBreaks rest
  | c :: rest => c != '\r' && hasFullBreaks rest

/-- The documenting comment at the start of a text: whether it documents what it stands in, its
content, and what follows it. -/
def comment? : List Char → Option (Bool × List Char × List Char)
  | '/' :: '/' :: rest => do
    let inner ← lineKind? rest
    let (content, after) := line (rest.drop 1)
    return (inner, content, after)
  | '/' :: '*' :: rest => do
    let inner ← blockKind? rest
    let after ← afterBlock 1 rest
    return (inner, (rest.take (rest.length - after.length - 2)).drop 1, after)
  | _ => none

/-- The documenting comment at the start of a text, if its lines end as they should. -/
def documentation? (s : List Char) : Option (Bool × List Char × List Char) :=
  (comment? s).filter fun (_, content, _) => hasFullBreaks content

end EntityGraph.Gap
