import EntityGraph.Error
import EntityGraph.Text.Affix
import EntityGraph.Text.Blank
import EntityGraph.Text.Case

/-!
# Annotations

A model describes its properties in a block of lines. A line that starts with `@property`, after any
comment marks, gives the type of a property, its name after a dollar sign, and flags; other lines
and further words mean nothing.

* `Annotations.parseType` reads a type: an optional question mark or alternative `null`, a list in
  one of three notations, and a scalar word or the name of a model;
* `Annotations.parseLine` reads a line;
* `Annotations.parse` reads a block.
-/

namespace EntityGraph.Annotations

/-- The scalar kind of a word in any letter case. -/
def scalarKind? (word : List Char) : Option ScalarKind :=
  let w := String.ofList (Text.lowerAscii word)
  if w = "int" ∨ w = "integer" then some .int
  else if w = "float" ∨ w = "double" then some .float
  else if w = "bool" ∨ w = "boolean" then some .boolean
  else if w = "string" then some .string
  else if w = "date" ∨ w = "datetime" ∨ w = "carbon" then some .dateTime
  else none

/-- The words for types that no interface can express, besides the bare `array`. -/
def pseudoTypes : List String :=
  ["array", "mixed", "object", "iterable", "callable", "resource"]

/-- The model that a word names for a model: a word without a path stands for a model of the same
namespace. -/
def resolveModel (model : ModelId) (word : List Char) : ModelId :=
  let word := Text.stripAll "::".toList word
  if Text.occursIn "::".toList word then ⟨String.ofList word⟩
  else ModelId.of model.space (String.ofList word)

/-- The type of items and whether they form a list, from the notations `T[]`, `list<T>` and
`array<T>`. -/
def parseList (token : List Char) : Except AnnotationFault (List Char × Bool) :=
  match Text.stripEnd? "[]".toList token with
  | some element => .ok (element, true)
  | none =>
    match (Text.stripStart? "list<".toList token).or (Text.stripStart? "array<".toList token) with
    | some rest => match Text.stripEnd? ">".toList rest with
      | some element => .ok (element, true)
      | none => .error .unterminatedList
    | none => .ok (token, false)

/-- A type without its mark of nullability, and whether it had one: a leading question mark or an
alternative `null`. -/
def parseNullable (token : List Char) : Except AnnotationFault (List Char × Bool) :=
  let (token, marked) := match Text.stripStart? "?".toList token with
    | some rest => (rest, true)
    | none => (token, false)
  let parts := Text.splitBy (· == '|') token
  if parts.length ≤ 1 then .ok (token, marked)
  else match parts.filter fun part => Text.lowerAscii part != "null".toList with
    | [single] => .ok (single, true)
    | _ => .error .unionType

/-- The type of an element. -/
def parseElement (model : ModelId) (known : ModelId → Bool) (element : List Char) (isList : Bool) :
    Except AnnotationFault PropertyType :=
  if element.isEmpty then .error .missingElement
  else match scalarKind? element with
    | some kind => .ok (.scalar kind)
    | none =>
      let word := String.ofList (Text.lowerAscii element)
      if word = "array" ∧ !isList then .ok .untypedArray
      else if word ∈ pseudoTypes then .ok (.unsupported (String.ofList element))
      else
        let target := resolveModel model element
        if known target then .ok (.model target)
        else .error (.unknownType (String.ofList element))

/-- The type of a property, whether it may be null and whether it is a list. -/
def parseType (model : ModelId) (known : ModelId → Bool) (token : List Char) :
    Except AnnotationFault (PropertyType × Bool × Bool) := do
  let (token, nullable) ← parseNullable token
  let (element, isList) ← parseList token
  let type ← parseElement model known element isList
  return (type, nullable, isList)

/-- A property with a flag; an unknown flag means nothing. -/
def addFlag (p : Property) (flag : List Char) : Property :=
  let word := String.ofList flag
  if word = "@paginate" then { p with paginated := true }
  else if word = "@filterable" then { p with filterable := true }
  else if word = "@orderable" then { p with orderable := true }
  else if word = "@computed" then { p with computed := true }
  else if word = "@eager-load-disabled" then { p with eagerLoadDisabled := true }
  else p

/-- The visibility that the first word of a line gives. -/
def visibility? (word : List Char) : Option Visibility :=
  let w := String.ofList word
  if w = "@property" then some .default
  else if w = "@property-read" then some .readOnly
  else if w = "@property-write" then some .writeOnly
  else none

/-- The property that a line describes. -/
def parseLine (model : ModelId) (known : ModelId → Bool) (line : List Char) :
    Except AnnotationFault Property := do
  let words := Text.words line
  let visibility ← ((words[0]?).bind visibility?).elim (.error .unknownTag) .ok
  let token ← (words[1]?).elim (.error .missingType) .ok
  let name ← (((words[2]?).bind (Text.stripStart? "$".toList)).filter (!·.isEmpty)).elim
    (.error .missingName) .ok
  let (type, nullable, isList) ← parseType model known token
  let plain : Property :=
    { name := String.ofList name, type, nullable, isList, visibility, computed := false,
      paginated := false, filterable := false, orderable := false, eagerLoadDisabled := false }
  let property := (words.drop 3).foldl addFlag plain
  if property.paginated && !property.isToMany then .error .paginatedWithoutList
  else return property

/-- A line without blanks at its ends and without the marks of a comment. -/
def uncomment (line : List Char) : List Char :=
  Text.trim (Text.stripAll "*".toList (Text.stripAll "///".toList (Text.trim line)))

/-- The lines of a block that describe properties. -/
def propertyLines (block : List Char) : List (List Char) :=
  ((Text.lines block).map uncomment).filter ("@property".toList.isPrefixOf ·)

/-- Read lines after the properties `before`. -/
def parseLines (model : ModelId) (known : ModelId → Bool) (before : List Property) :
    List (List Char) → Except Error (List Property)
  | [] => .ok before
  | line :: rest =>
    match parseLine model known line with
    | .error fault => .error (.metadata model (String.ofList line) fault)
    | .ok p =>
      if before.any (·.name == p.name) then
        .error (.metadata model (String.ofList line) .duplicate)
      else parseLines model known (before ++ [p]) rest

/-- The properties that a block of annotations describes; `known` tells which models exist. -/
def parse (model : ModelId) (known : ModelId → Bool) (block : String) :
    Except Error (List Property) :=
  parseLines model known [] (propertyLines block.toList)

end EntityGraph.Annotations
