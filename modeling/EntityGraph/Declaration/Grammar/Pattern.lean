import EntityGraph.Declaration.Grammar.Path

/-!
# Patterns

A pattern is a name, a constant, a range of constants, or a form with patterns for its parts.

* `Grammar.alternatives` reads patterns of which one has to fit;
* `Grammar.patternRule` reads a pattern.
-/

namespace EntityGraph.Grammar

open Reader

/-- Read patterns of which one has to fit. -/
def alternatives (g : Grammar) : Reader Unit := do
  discard (markIf "|")
  discard (chain g.pattern do
    if ← seesMark "||" then return false else markIf "|")

/-- Read a part of a form: a number or a name, with a pattern for it. A name can stand alone, and
two dots can stand for the parts that are left. -/
def fieldPattern (g : Grammar) : Reader Unit := do
  g.attributes
  if ← markIf ".." then
    if !(← seesEnd) then failure
  else
    let boxed ← wordIf "box"
    let byReference ← wordIf "ref"
    let changing ← wordIf "mut"
    if boxed || byReference || changing then name
    else if ← takeIf (fun rest => rest.head?.any Token.isNumber) 1 then
      mark ":"
      g.alternatives
    else
      name
      if ← markIf ":" then g.alternatives

/-- Whether a range that has begun has no end. -/
def startAfterRange (rest : List Token) : Bool :=
  rest.isEmpty || ["|", "=", ":", ",", ";"].any (fun s => Token.startMark s.toList rest) ||
    Token.startWord "if" rest

/-- Read the end of a range. -/
def rangeBound (g : Grammar) : Reader Unit := do
  if ← seesLiteral then literal
  else if ← wordIf "const" then g.block
  else discard (g.anyPath true)

/-- Read the rest of a range after its start, if a range has begun. -/
def rangeIf (g : Grammar) : Reader Unit := do
  if ← markIf "..=" then g.rangeBound
  else if ← markIf "..." then g.rangeBound
  else if ← markIf ".." then
    if !(← sees startAfterRange) then g.rangeBound

/-- Read a pattern that starts with a path. -/
def pathPattern (g : Grammar) : Reader Unit := do
  let form ← g.anyPath true
  if form.any (·.plain) && (← seesMark "!") && !(← seesMark "!=") then
    mark "!"
    anyGroup
  else if ← seesGroup '\x7b' then within '\x7b' (discard (allItems g.fieldPattern))
  else if ← seesGroup '(' then within '(' (discard (allItems g.alternatives))
  else g.rangeIf

/-- Whether tokens start with a name that is the start of a longer pattern. -/
def startLongPattern : List Token → Bool
  | .word s :: rest =>
    if ["Self", "super", "crate"].contains s then true
    else if s == "self" then Token.startMark [':', ':'] rest
    else Token.startName [.word s] &&
      (["::", "!", ".."].any (fun m => Token.startMark m.toList rest) ||
        Token.startGroup '\x7b' rest || Token.startGroup '(' rest)
  | rest => Token.startMark [':', ':'] rest || Token.startMark ['<'] rest

/-- Read a pattern. -/
def patternRule (g : Grammar) : Reader Unit := do
  let rest := (← get).rest
  if startLongPattern rest then g.pathPattern
  else if Token.startWord "_" rest then take 1
  else if ← wordIf "box" then g.pattern
  else if Token.startWord "const" rest || Token.literalSize rest != 0 then
    g.rangeBound
    g.rangeIf
  else if ← markIf "&" then
    discard (wordIf "mut")
    g.pattern
  else if Token.startGroup '(' rest then within '(' (discard (allItems g.alternatives))
  else if Token.startGroup '[' rest then within '[' (discard (allItems g.alternatives))
  else if Token.startMark ['.', '.'] rest then g.rangeIf
  else
    discard (wordIf "ref")
    discard (wordIf "mut")
    if !(← wordIf "self") then name
    if ← markIf "@" then g.pattern

end EntityGraph.Grammar
