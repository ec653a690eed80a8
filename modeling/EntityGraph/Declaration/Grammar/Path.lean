import EntityGraph.Declaration.Grammar.Basic

/-!
# Paths

A path is made of names between double colons. A name can have arguments between angle brackets,
and a path can start from a type. A bound is a lifetime, or a path with what is asked for.

* `Grammar.path` reads a path of names;
* `Grammar.anyPath` reads a path that may start from a type;
* `Grammar.bound` reads a bound;
* `Grammar.argumentsRule` reads the arguments of a name.
-/

namespace EntityGraph

/-- What a path is like. -/
structure PathForm where
  /-- Whether it is a name alone. -/
  single : Bool
  /-- Whether it is made of names only, and none has arguments. -/
  plain : Bool
  /-- Whether its last name has no arguments. -/
  bare : Bool

namespace Grammar

open Reader

/-- Read a name with its arguments, and tell whether there are any. In an expression they come after
a double colon. -/
def segment (g : Grammar) (inExpression : Bool) : Reader Bool := do
  if ← sees fun rest => ["super", "self", "crate", "try"].any fun w => Token.startWord w rest then
    take 1
    return false
  expect startSegment 1
  let rest := (← get).rest
  let follows := Token.startMark ['<'] rest && !Token.startMark ['<', '='] rest &&
    !Token.startMark ['<', '<', '='] rest
  let marked := Token.startMark [':', ':'] rest && Token.startMark ['<'] (rest.drop 2)
  if (follows && !inExpression) || marked then
    discard (markIf "::")
    g.arguments
    return true
  return false

/-- Read names between double colons. -/
def path (g : Grammar) (inExpression : Bool) : Reader PathForm := do
  let rooted ← markIf "::"
  let given ← chain (g.segment inExpression) do
    let rest := (← get).rest
    if Token.startMark [':', ':'] rest && !Token.startGroup '(' (rest.drop 2) then markIf "::"
    else return false
  return ⟨!rooted && given.length == 1, given.all (!·), given.getLast?.any (!·)⟩

/-- Whether tokens start with a path. -/
def startPath (rest : List Token) : Bool :=
  startSegment rest || Token.startMark [':', ':'] rest || Token.startMark ['<'] rest

/-- Read a path that may start from a type between angle brackets, and tell what it is like if it
does not. -/
def anyPath (g : Grammar) (inExpression : Bool) : Reader (Option PathForm) := do
  if !(← markIf "<") then return some (← g.path inExpression)
  discard (g.type true)
  if ← wordIf "as" then discard (g.path false)
  mark ">"
  mark "::"
  discard (chain (g.segment inExpression) (markIf "::"))
  return none

/-- Read the result of a function, if it has one. -/
def resultIf (g : Grammar) : Reader Unit := do
  if ← markIf "->" then discard (g.type false)

/-- Read the types that a function takes, and its result. -/
def functionTypes (g : Grammar) : Reader Unit := do
  within '(' (discard (allItems (g.type true)))
  g.resultIf

/-- Read a path that is asked for, perhaps only under a condition. -/
def traitBound (g : Grammar) (allowsConst : Bool) : Reader Unit := do
  let bound ← seesWord "for"
  if bound then g.binder
  if allowsConst then
    if ← seesGroup '[' then within '[' (word "const") else discard (wordIf "const")
  if !bound then discard (markIf "?")
  let form ← g.path false
  if form.bare then
    if ← seesGroup '(' then g.functionTypes
    else if ← seesMark "::" then
      discard (unwritten (mark "::"))
      g.functionTypes

/-- Read the lifetimes and names that a type may use. -/
def captured : Reader Unit := do
  word "use"
  angled do
    if ← lifetimeIf then return true
    if !(← wordIf "Self") then name
    return false

/-- Read a bound, and tell whether it is more than a lifetime or a list of what is used. -/
def bound (g : Grammar) (allowsUse allowsConst : Bool) : Reader Bool := do
  if ← lifetimeIf then return false
  if allowsUse then
    if ← seesWord "use" then
      captured
      return false
  if ← seesGroup '(' then within '(' (g.traitBound allowsConst) else g.traitBound allowsConst
  return true

/-- Whether tokens start with a bound. -/
def startBound (allowsConst : Bool) (rest : List Token) : Bool :=
  Token.startAnyWord rest || Token.startMark [':', ':'] rest || Token.startMark ['?'] rest ||
    Token.startLifetime rest || Token.startGroup '(' rest ||
      (allowsConst && Token.startGroup '[' rest)

/-- Read the plus sign before another bound; one may stand after the last. -/
def joinsBound (allowsConst : Bool) : Reader Bool := do
  if ← markIf "+" then sees (startBound allowsConst) else return false

/-- Read bounds, of which one at least is more than a lifetime. The first flag says whether plus
signs can join them. -/
def bounds (g : Grammar) (plus allowsUse allowsConst : Bool) : Reader Unit := do
  let kinds ← chain (g.bound allowsUse allowsConst) do
    if plus then joinsBound allowsConst else return false
  if !kinds.any id then failure

/-- Read a literal or a block, if one comes next. -/
def constantIf (g : Grammar) : Reader Bool := do
  if ← seesLiteral then
    literal
    return true
  if ← seesGroup '\x7b' then
    g.block
    return true
  return false

/-- Read an argument of a name, and tell whether it is a lifetime. A name can be made equal to a
type or a constant, or be given bounds. -/
def argument (g : Grammar) : Reader Bool := do
  let rest := (← get).rest
  if Token.startLifetime rest && !Token.startMark ['+'] (rest.drop 2) then
    lifetime
    return true
  if !(← g.constantIf) then
    if (← g.type true) = .name then
      if ← markIf "=" then
        if !(← g.constantIf) then discard (g.type true)
      else if ← markIf ":" then
        let stop := fun rest => Token.startMark [','] rest || Token.startMark ['>'] rest
        if !(← sees stop) then
          discard (chain (g.bound false true) do
            if ← markIf "+" then return !(← sees stop) else return false)
  return false

/-- Read the arguments of a name between angle brackets. -/
def argumentsRule (g : Grammar) : Reader Unit :=
  angled g.argument

end Grammar

end EntityGraph
