import EntityGraph.Declaration.Grammar.Pattern

/-!
# Expressions

Operands stand between operators. An operand is an atom with signs before it, and calls, parts and
indices after it. The rules find out where an expression ends, not how its operators bind. Still, a
comparison cannot follow another unless a weaker operator stands between them.

* `Grammar.atom` and `Grammar.operand` read the parts of an expression;
* `Grammar.expressionRule` reads an expression;
* `Grammar.standaloneRule` reads an expression that a block can end early;
* `Grammar.blockRule` reads statements between braces.
-/

namespace EntityGraph.Grammar

open Reader

/-- What an operator does to the operators around it. -/
inductive OperatorKind where
  | assigning
  | comparing
  | connecting
  | binding
  deriving DecidableEq

/-- The operators with their kinds, the longer ones first. -/
def operators : List (String × OperatorKind) :=
  [("<<=", .assigning), (">>=", .assigning), ("+=", .assigning), ("-=", .assigning),
   ("*=", .assigning), ("/=", .assigning), ("%=", .assigning), ("^=", .assigning),
   ("&=", .assigning), ("|=", .assigning), ("&&", .connecting), ("||", .connecting),
   ("<<", .binding), (">>", .binding), ("==", .comparing), ("<=", .comparing),
   ("!=", .comparing), (">=", .comparing), ("+", .binding), ("-", .binding), ("*", .binding),
   ("/", .binding), ("%", .binding), ("^", .binding), ("&", .binding), ("|", .binding),
   ("<", .comparing), (">", .comparing)]

/-- The operator that tokens start with. -/
def operator? (rest : List Token) : Option (String × OperatorKind) :=
  if Token.startMark ['=', '>'] rest then none
  else (operators.find? fun (s, _) => Token.startMark s.toList rest).or
    (if Token.startMark ['='] rest then some ("=", .assigning) else none)

/-- Whether tokens start with a mark, and not with any longer one. -/
def startMarkOnly (s : String) (longer : List String) (rest : List Token) : Bool :=
  Token.startMark s.toList rest && !longer.any fun m => Token.startMark m.toList rest

/-- Whether tokens start with an expression. -/
def startExpression (rest : List Token) : Bool :=
  (Token.startAnyWord rest && !Token.startWord "as" rest) ||
    ['(', '[', '\x7b'].any (fun b => Token.startGroup b rest) || Token.literalSize rest != 0 ||
    startMarkOnly "!" ["!="] rest || startMarkOnly "-" ["-=", "->"] rest ||
    startMarkOnly "*" ["*="] rest || startMarkOnly "|" ["|="] rest ||
    startMarkOnly "&" ["&="] rest || startMarkOnly "<" ["<=", "<<="] rest ||
    ["..", "::", "#"].any (fun m => Token.startMark m.toList rest) || Token.startLifetime rest

/-- Read an expression if one comes next; the flag says whether one can start with a brace. -/
def expressionIf (g : Grammar) (brace : Bool) : Reader Unit := do
  if (← sees startExpression) && (brace || !(← seesGroup '\x7b')) then g.expression brace

/-- Read expressions between brackets. -/
def expressions (g : Grammar) (bracket : Char) : Reader Unit :=
  within bracket (discard (allItems (g.expression true)))

/-- Read by a rule, and tell whether it has read anything. -/
def reads (rule : Reader Unit) : Reader Bool := do
  let before := (← get).rest.length
  rule
  return (← get).rest.length < before

/-- Read what can stand before an operand: attributes, signs, and a pattern for it. -/
def signs (g : Grammar) : Reader Unit :=
  again do
    g.attributes
    if ← wordIf "let" then
      g.alternatives
      mark "="
      return true
    if ← markIf "&" then
      let rest := (← get).rest
      let after := rest.drop 1
      let kind := Token.startWord "mut" after || Token.startWord "const" after
      if Token.startWord "raw" rest && kind then take 2
      else discard (wordIf "mut")
      return true
    if ← markIf "*" then return true
    if ← markIf "!" then return true
    markIf "-"

/-- Read a field: a number or a name, with its value. A name can stand alone, and the fields that
are left can come from a value after two dots. -/
def fieldValue (g : Grammar) : Reader Unit := do
  g.attributes
  if ← markIf ".." then
    if !(← seesEnd) then g.expression true
    if !(← seesEnd) then failure
  else if ← takeIf (fun rest => rest.head?.any Token.isNumber) 1 then
    mark ":"
    g.expression true
  else
    name
    if ← markIf ":" then g.expression true

/-- Read a path, an expansion or a value with fields, and tell whether a brace ends an expansion. -/
def pathAtom (g : Grammar) (fields : Bool) : Reader Bool := do
  let form ← g.anyPath true
  if form.any (·.plain) && (← seesMark "!") && !(← seesMark "!=") then
    mark "!"
    let closed ← seesGroup '\x7b'
    anyGroup
    return closed
  if fields && (← seesGroup '\x7b') then within '\x7b' (discard (allItems g.fieldValue))
  return false

/-- Whether tokens start with the lifetimes of a function value. -/
def startBinder (rest : List Token) : Bool :=
  Token.startWord "for" rest && Token.startMark ['<'] (rest.drop 1) &&
    (Token.startLifetime (rest.drop 2) || Token.startMark ['>'] (rest.drop 2))

/-- Whether tokens start with a function value. -/
def startClosure (rest : List Token) : Bool :=
  let after := rest.drop 1
  Token.startMark ['|'] rest || Token.startWord "move" rest || Token.startWord "static" rest ||
    (Token.startWord "const" rest && !Token.startGroup '\x7b' after) ||
    (Token.startWord "async" rest &&
      (Token.startMark ['|'] after || Token.startWord "move" after)) ||
    startBinder rest

/-- Read a function value. -/
def closure (g : Grammar) (fields : Bool) : Reader Unit := do
  if ← seesWord "for" then g.binder
  discard (wordIf "const")
  discard (wordIf "static")
  discard (wordIf "async")
  discard (wordIf "move")
  mark "|"
  discard (items (Token.startMark ['|']) do
    g.attributes
    g.pattern
    if ← markIf ":" then discard (g.type true))
  mark "|"
  if ← markIf "->" then
    discard (g.type true)
    g.block
  else g.expression fields

/-- Read a case of a choice: patterns, perhaps with a condition, and an expression. A block needs no
comma after it. -/
def choiceCase (g : Grammar) : Reader Unit := do
  g.attributes
  g.alternatives
  if ← wordIf "if" then g.expression true
  mark "=>"
  let closed ← g.standalone
  if !(← seesEnd) then
    if closed then discard (markIf ",") else mark ","

/-- Read conditions with blocks. -/
def conditional (g : Grammar) : Reader Unit :=
  again do
    word "if"
    g.expression false
    g.block
    if !(← wordIf "else") then return false
    if ← seesWord "if" then return true
    g.block
    return false

/-- Whether tokens start with a word for a kind of block. -/
def startBlockWord (rest : List Token) : Bool :=
  ["unsafe", "try", "const"].any fun w => Token.startWord w rest

/-- Whether tokens start with an expression that ends with a block. -/
def startBlockForm (rest : List Token) : Bool :=
  (["if", "while", "loop", "match"].any fun w => Token.startWord w rest) ||
    (Token.startWord "for" rest && !startBinder rest) ||
    (startBlockWord rest && Token.startGroup '\x7b' (rest.drop 1)) ||
    Token.startGroup '\x7b' rest || Token.startLifetime rest

/-- Read an expression that ends with a block, perhaps with a label. -/
def blockForm (g : Grammar) : Reader Unit := do
  if ← lifetimeIf then mark ":"
  if ← wordIf "while" then
    g.expression false
    g.block
  else if ← wordIf "for" then
    g.alternatives
    word "in"
    g.expression false
    g.block
  else if ← wordIf "loop" then g.block
  else if ← seesWord "if" then g.conditional
  else if ← wordIf "match" then
    g.expression false
    within '\x7b' do
      g.innerAttributes
      again do
        if ← seesEnd then return false
        g.choiceCase
        return true
  else
    discard (takeIf startBlockWord 1)
    g.block

/-- Whether tokens start with a block that runs on its own. -/
def startAsync (rest : List Token) : Bool :=
  let after := rest.drop 1
  Token.startWord "async" rest && (Token.startGroup '\x7b' after ||
    (Token.startWord "move" after && Token.startGroup '\x7b' (rest.drop 2)))

/-- Read what has no operator around it, and tell whether it is an expansion that a brace ends. -/
def atom (g : Grammar) (fields : Bool) : Reader Bool := do
  let rest := (← get).rest
  if Token.literalSize rest != 0 then literal
  else if startAsync rest then
    word "async"
    discard (wordIf "move")
    g.block
  else if startBlockForm rest then g.blockForm
  else if startClosure rest then g.closure fields
  else if startPath rest || Token.startWord "try" rest then return ← g.pathAtom fields
  else if Token.startGroup '(' rest then g.expressions '('
  else if Token.startGroup '[' rest then
    within '[' do
      if !(← seesEnd) then
        g.expression true
        if ← markIf ";" then g.expression true
        else if ← markIf "," then discard (allItems (g.expression true))
  else if ← wordIf "break" then
    discard lifetimeIf
    g.expressionIf fields
  else if ← wordIf "continue" then discard lifetimeIf
  else if ← wordIf "return" then g.expressionIf true
  else if ← wordIf "yield" then g.expressionIf true
  else if ← wordIf "become" then g.expression true
  else if ← markIf "..=" then g.expression fields
  else if ← markIf ".." then g.expressionIf fields
  else word "_"
  return false

/-- Whether a token is the number of a part. -/
def isIndex : Token → Bool
  | .constant spelling => spelling.toList.all fun c => c.isDigit || c == '.'
  | _ => false

/-- Read what can stand after an atom: calls, indices, parts and the sign that passes on failure. -/
def trailers (g : Grammar) : Reader Unit :=
  again do
    if ← seesGroup '(' then
      g.expressions '('
      return true
    if ← seesGroup '[' then
      within '[' (g.expression true)
      return true
    if ← seesMark ".." then return false
    if !(← markIf ".") then return ← markIf "?"
    if ← takeIf (fun rest => rest.head?.any isIndex) 1 then return true
    if ← wordIf "await" then return true
    name
    let given ← markIf "::"
    if given then g.arguments
    if given || (← seesGroup '(') then g.expressions '('
    return true

/-- Read an operand, and tell whether it is an expansion that a brace ends. -/
def operand (g : Grammar) (fields : Bool) : Reader Bool := do
  let signed ← reads g.signs
  let closed ← g.atom fields
  let trailed ← reads g.trailers
  return closed && !signed && !trailed

/-- Read at most so many operators, and the operands after them; the flag says whether a comparison
stands before them. -/
def operationsUpTo (g : Grammar) (fields : Bool) : Nat → Bool → Reader Unit
  | 0, _ => pure ()
  | n + 1, compared => do
    if ← wordIf "as" then
      discard (g.type false)
      g.operationsUpTo fields n compared
    else match operator? (← get).rest with
      | some (s, kind) =>
        if kind = .comparing ∧ compared then failure
        mark s
        discard (g.operand fields)
        g.operationsUpTo fields n (kind = .comparing || (compared && kind = .binding))
      | none =>
        if ← markIf "..=" then g.expression fields
        else if ← markIf ".." then g.expressionIf fields

/-- Read the operators after an operand, and the operands after them. -/
def operations (g : Grammar) (fields : Bool) : Reader Unit := do
  g.operationsUpTo fields ((← get).rest.length + 1) false

/-- Read an expression. -/
def expressionRule (g : Grammar) (fields : Bool) : Reader Unit := do
  discard (g.operand fields)
  g.operations fields

/-- Read an expression that a block can end early, and tell whether one does. -/
def standaloneRule (g : Grammar) : Reader Bool := do
  g.attributes
  if ← sees startBlockForm then
    g.blockForm
    if (← seesMark "?") || ((← seesMark ".") && !(← seesMark "..")) then
      g.trailers
      g.operations true
      return false
    return true
  if ← g.operand true then return true
  g.operations true
  return false

/-- Read a statement: a pattern with its value, or an expression. A block needs no semicolon after
it, and the last expression needs none. -/
def statement (g : Grammar) : Reader Unit := do
  g.attributes
  if ← wordIf "let" then
    g.pattern
    if ← markIf ":" then discard (g.type true)
    if ← markIf "=" then
      g.expression true
      if ← wordIf "else" then g.block
    mark ";"
  else
    let closed ← g.standaloneRule
    if !(← markIf ";") && !closed && !(← seesEnd) then failure

/-- Read statements between braces. -/
def blockRule (g : Grammar) : Reader Unit :=
  within '\x7b' do
    g.innerAttributes
    again do
      if ← seesEnd then return false
      if !(← markIf ";") then g.statement
      return true

end EntityGraph.Grammar
