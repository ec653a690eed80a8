import EntityGraph.Declaration.Reader

/-!
# Grammars

The argument of an accessor is a path. The names of a path can have arguments, and those are types,
literals and blocks, which contain paths again. So each rule is written over a record of the rules
that it goes through after it has read a token.

* `Grammar` is the record of these rules;
* `Grammar.attributes` reads attributes;
* `Grammar.angled` reads what stands between angle brackets.
-/

namespace EntityGraph

/-- What a type is like, as far as it matters for what can follow it. -/
inductive TypeForm where
  /-- A single name, perhaps with arguments. -/
  | name
  /-- A path that is no single name. -/
  | path
  /-- A single bound that is no path. -/
  | bound
  | other
  deriving DecidableEq

/-- The rules that others go through. -/
structure Grammar where
  /-- A type; the flag says whether its bounds can be joined by plus signs. -/
  type : Bool → Reader TypeForm
  /-- The arguments of a name. -/
  arguments : Reader Unit
  /-- An expression; the flag says whether a name can have fields between braces after it. -/
  expression : Bool → Reader Unit
  /-- An expression that a block can end early, and whether one does. -/
  standalone : Reader Bool
  /-- Statements between braces. -/
  block : Reader Unit
  pattern : Reader Unit

namespace Grammar

open Reader

/-- Whether tokens start with a name or with a keyword that can stand for one in a path. -/
def startSegment (rest : List Token) : Bool :=
  Token.startName rest ||
    ["super", "self", "Self", "crate"].any fun w => Token.startWord w rest

/-- Read names between double colons, none with arguments. -/
def plainPath : Reader Unit := do
  discard (markIf "::")
  discard (chain (expect startSegment 1) (markIf "::"))

/-- Read what an attribute has between its brackets. -/
def attributeContent (g : Grammar) : Reader Unit := do
  if !(← wordIf "unsafe") then plainPath
  if !(← seesEnd) then
    if ← markIf "=" then g.expression true else anyGroup

/-- Read the attributes of what follows them. -/
def attributes (g : Grammar) : Reader Unit :=
  again do
    if !(← markIf "#") then return false
    within '[' g.attributeContent
    return true

/-- Read the attributes of what they stand in. -/
def innerAttributes (g : Grammar) : Reader Unit :=
  again do
    if !(← seesMark "#") then return false
    mark "#"
    mark "!"
    within '[' g.attributeContent
    return true

/-- Write pieces with commas between them, those marked first. With a comma after all of them as
they were read, or with another last one, a comma comes last. -/
def writeMarkedFirst (pieces : List (Bool × String)) (closed : Bool) : Reader Unit := do
  let (first, others) := pieces.partition (·.1)
  write (",".intercalate ((first ++ others).map (·.2)))
  if closed || (pieces.getLast?.any (·.1) && !others.isEmpty) then write ","

/-- Read items between angle brackets by a rule that tells which of them are lifetimes, and write
those first. -/
def angled (item : Reader Bool) : Reader Unit := do
  mark "<"
  let (pieces, commas) ← unwritten (items (Token.startMark ['>']) (unwritten item))
  writeMarkedFirst pieces (!pieces.isEmpty && commas.length == pieces.length)
  mark ">"

/-- Read the lifetimes that hold for what follows them. -/
def binder (g : Grammar) : Reader Unit := do
  word "for"
  mark "<"
  discard (items (Token.startMark ['>']) do
    g.attributes
    lifetime)
  mark ">"

end Grammar

end EntityGraph
