import EntityGraph.Declaration.Grammar.Path

/-!
# Types

Types are paths, bounds, tuples, arrays, pointers, references and functions.

* `Grammar.typeRule` reads a type.
-/

namespace EntityGraph.Grammar

open Reader

/-- Whether tokens start with a name or a hole, and a single colon after it. -/
def startNamed (rest : List Token) : Bool :=
  (Token.startName rest || Token.startWord "_" rest) && Token.startMark [':'] (rest.drop 1) &&
    !Token.startMark [':', ':'] (rest.drop 1)

/-- Read an argument of a type of functions, perhaps with its name. The first can be the value that
a function is called on. -/
def functionArgument (g : Grammar) (first : Bool) : Reader Unit := do
  let rest := (← get).rest
  if first && Token.startWord "mut" rest && Token.startWord "self" (rest.drop 1) then
    take 2
    if ← markIf ":" then discard (g.type true)
  else
    let named := startNamed rest || (first && Token.startWord "self" rest &&
      Token.startMark [':'] (rest.drop 1) && !Token.startMark [':', ':'] (rest.drop 1))
    if named then take 2
    discard (g.type true)

/-- Read the dots that leave further arguments open, perhaps after a name. -/
def openArguments : Reader Unit := do
  if !(← seesMark "...") then take 2
  mark "..."
  if !(← seesEnd) then
    mark ","
    if !(← seesEnd) then failure

/-- Whether tokens start with the dots that leave further arguments open. -/
def startOpen (rest : List Token) : Bool :=
  Token.startMark ['.', '.', '.'] rest ||
    (startNamed rest && Token.startMark ['.', '.', '.'] (rest.drop 2))

/-- Read the arguments of a type of functions. -/
def functionArguments (g : Grammar) : Reader Unit :=
  again do
    let first := (← get).text.isEmpty
    if ← seesEnd then return false
    g.attributes
    if ← sees startOpen then
      openArguments
      return false
    g.functionArgument first
    if ← seesEnd then return false
    markIf ","

/-- Read a type of functions. -/
def functionType (g : Grammar) : Reader Unit := do
  discard (wordIf "unsafe")
  if ← wordIf "extern" then
    discard (takeIf (fun | .text _ _ :: _ => true | _ => false) 1)
  word "fn"
  within '(' g.functionArguments
  g.resultIf

/-- Whether tokens start with a type of functions. -/
def startFunction (rest : List Token) : Bool :=
  ["fn", "unsafe", "extern"].any fun w => Token.startWord w rest

/-- Read further bounds after plus signs; a sign may stand after the last bound. -/
def furtherBounds (g : Grammar) : Reader Unit :=
  again do
    if !(← joinsBound false) then return false
    discard (g.bound false false)
    return true

/-- Read further bounds, each after a plus sign. -/
def strictBounds (g : Grammar) : Reader Unit :=
  again do
    if !(← markIf "+") then return false
    discard (g.bound false false)
    return true

/-- Read a type that starts with a path, perhaps after lifetimes that hold for it. -/
def pathType (g : Grammar) (plus bound : Bool) : Reader TypeForm := do
  match ← g.anyPath false with
  | none => return .other
  | some form =>
    if form.plain && (← seesMark "!") && !(← seesMark "!=") then
      mark "!"
      anyGroup
      return .other
    if plus && (← seesMark "+") then
      g.furtherBounds
      return .other
    return if bound then .bound else if form.single then .name else .path

/-- Read types or bounds between parentheses. -/
def groupType (g : Grammar) (plus : Bool) : Reader TypeForm := do
  let rest := (← get).rest
  match rest with
  | .group _ content :: _ =>
    if Token.startMark ['?'] content then
      within '(' (g.traitBound false)
      if ← seesMark "+" then
        g.strictBounds
        return .other
      return .bound
    if Token.startLifetime content then
      within '(' (discard (g.type true))
      return .other
    let (form, several) ← within '(' do
      if ← seesEnd then return (.other, true)
      let form ← g.type true
      if ← markIf "," then
        discard (allItems (g.type true))
        return (.other, true)
      return (form, false)
    if plus && !several && form ≠ .other && (← seesMark "+") then g.strictBounds
    return .other
  | _ => failure

/-- Read a type between brackets, perhaps with the number of its items. -/
def arrayType (g : Grammar) : Reader Unit :=
  within '[' do
    discard (g.type true)
    if ← markIf ";" then g.expression true

/-- Read a type. -/
def typeRule (g : Grammar) (plus : Bool) : Reader TypeForm := do
  let rest := (← get).rest
  if Token.startWord "for" rest then
    g.binder
    if ← sees startFunction then
      g.functionType
      return .other
    if ← sees startSegment then g.pathType plus true else failure
  else if Token.startGroup '(' rest then g.groupType plus
  else if startFunction rest then
    g.functionType
    return .other
  else if startPath rest then g.pathType plus false
  else
    if ← wordIf "dyn" then
      discard (markIf "*")
      g.bounds plus false false
    else if Token.startLifetime rest then g.bounds true false false
    else if ← wordIf "impl" then g.bounds plus true true
    else if Token.startGroup '[' rest then g.arrayType
    else if ← markIf "*" then
      if !(← wordIf "const") then word "mut"
      discard (g.type false)
    else if ← markIf "&" then
      discard lifetimeIf
      discard (wordIf "mut")
      discard (g.type false)
    else if !(← markIf "!") then word "_"
    return .other

end EntityGraph.Grammar
