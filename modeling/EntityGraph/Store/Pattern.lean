/-!
# Patterns

Matching of a text with a pattern in which a percent sign stands for any run of characters and an
underscore for any single character.
-/

namespace EntityGraph.Pattern

/-- The ends of a text, from the whole text to the empty one. -/
def suffixes : List Char → List (List Char)
  | [] => [[]]
  | c :: rest => (c :: rest) :: suffixes rest

/-- Whether a text starts with a character that satisfies `ok` and goes on as `rest` demands. -/
def consume (ok : Char → Bool) (rest : List Char → Bool) : List Char → Bool
  | [] => false
  | c :: s => ok c && rest s

/-- Whether a pattern matches a text. -/
def accepts : List Char → List Char → Bool
  | [], s => s.isEmpty
  | p :: rest, s =>
    if p = '%' then (suffixes s).any (accepts rest)
    else if p = '_' then consume (fun _ => true) (accepts rest) s
    else consume (· == p) (accepts rest) s

end EntityGraph.Pattern

namespace EntityGraph

/-- Whether a text is like a pattern. -/
def isLike (s pattern : String) : Bool :=
  Pattern.accepts pattern.toList s.toList

end EntityGraph
