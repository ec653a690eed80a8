import EntityGraph.Model.Annotations
import EntityGraph.Proofs.Text.Cut

/-!
# The grammar of annotations

The blocks that describe given properties, said without a reader: how a property may be written,
from the words of its type to the lines of a block.

* `Annotations.WellFormed` are the lists of properties that a block can describe;
* `Annotations.WritesType`, `Annotations.WritesLine` and `Annotations.Writes` relate a property to
  the notations of its type and to its lines, and properties to their blocks;
* `Annotations.canonical` picks one block for each list of properties.
-/

namespace EntityGraph

/-! ### Well-formed properties -/

namespace ModelId

/-- The marks of the notations of types. -/
def typeMarks : List Char :=
  ['?', '|', '[', ']', '<', '>', ':']

/-- A character of the names of models: neither a blank nor a mark of the notations of types. -/
def isNameChar (c : Char) : Bool :=
  !Text.isBlank c && !typeMarks.contains c

/-- A name of a model or of a namespace, wide enough for identifiers of every script. -/
def IsName (s : List Char) : Prop :=
  s ≠ [] ∧ ∀ c ∈ s, isNameChar c = true

instance (s : List Char) : Decidable (IsName s) :=
  @instDecidableAnd _ _ inferInstance (List.decidableBAll (isNameChar · = true) s)

/-- Names with double colons between them. -/
inductive IsPath : List Char → Prop
  | name {s : List Char} (h : IsName s) : IsPath s
  | within {s path : List Char} (h : IsName s) (hpath : IsPath path) :
      IsPath (s ++ "::".toList ++ path)

/-- A model whose path tells a namespace. -/
def Spaced (m : ModelId) : Prop :=
  "::".toList <:+: m.path.toList

end ModelId

namespace Annotations

/-- A word in small letters. -/
def small (word : List Char) : String :=
  String.ofList (Text.lowerAscii word)

end Annotations

/-- A property that a line can describe, where `known` tells which models exist. -/
structure Property.WellFormed (known : ModelId → Bool) (p : Property) : Prop where
  name : p.name ≠ "" ∧ Text.Solid p.name.toList
  paginated : p.paginated = true → p.isToMany = true
  model : ∀ target, p.type = .model target →
    known target = true ∧ ModelId.IsPath target.path.toList
  untypedArray : p.type = .untypedArray → p.isList = false
  unsupported : ∀ name, p.type = .unsupported name →
    Annotations.small name.toList ∈ Annotations.pseudoTypes ∧
      (Annotations.small name.toList = "array" → p.isList = true)

namespace Annotations

/-- Properties that a block can describe. -/
structure WellFormed (known : ModelId → Bool) (ps : List Property) : Prop where
  each : ∀ p ∈ ps, p.WellFormed known
  distinct : (ps.map (·.name)).Nodup

/-! ### Types -/

/-- The words for the scalar kinds. -/
def scalarWords : ScalarKind → List String
  | .int => ["int", "integer"]
  | .float => ["float", "double"]
  | .boolean => ["bool", "boolean"]
  | .string => ["string"]
  | .dateTime => ["date", "datetime", "carbon"]

/-- The words that stand for no model. -/
def reserved : List String :=
  ScalarKind.all.flatMap scalarWords ++ pseudoTypes

/-- The ways to name a model in the annotations of the model `m`: by its path, with or without two
colons before it, or by its bare name in its own namespace. A model in no namespace has no path of
its own inside a namespace. -/
inductive NamesModel (m : ModelId) : ModelId → List Char → Prop
  | absolute {target : ModelId} (h : target.Spaced ∨ m.space = "") :
      NamesModel m target ("::".toList ++ target.path.toList)
  | qualified {target : ModelId} (h : target.Spaced) : NamesModel m target target.path.toList
  | unqualified {name : List Char} (hname : ModelId.IsName name) (hfree : small name ∉ reserved) :
      NamesModel m (ModelId.of m.space (String.ofList name)) name

/-- The ways to write the type of an element. -/
inductive WritesElement (m : ModelId) : PropertyType → List Char → Prop
  | scalar {kind : ScalarKind} {word : List Char} (h : small word ∈ scalarWords kind) :
      WritesElement m (.scalar kind) word
  | model {target : ModelId} {word : List Char} (h : NamesModel m target word) :
      WritesElement m (.model target) word
  | untypedArray {word : List Char} (h : small word = "array") : WritesElement m .untypedArray word
  | unsupported (name : String) : WritesElement m (.unsupported name) name.toList

/-- The ways to write an element or a list of them. -/
inductive WritesList (element : List Char) : Bool → List Char → Prop
  | single : WritesList element false element
  | brackets : WritesList element true (element ++ "[]".toList)
  | list : WritesList element true ("list<".toList ++ element ++ ">".toList)
  | array : WritesList element true ("array<".toList ++ element ++ ">".toList)

/-- The word `null` in any letter case. -/
def IsNull (word : List Char) : Prop :=
  Text.lowerAscii word = "null".toList

instance (word : List Char) : Decidable (IsNull word) :=
  inferInstanceAs (Decidable (Text.lowerAscii word = "null".toList))

/-- The ways to write that a type admits null: a question mark, and alternatives. What is itself the
word `null` is no type beside alternatives. -/
inductive WritesNullable (type : List Char) : Bool → List Char → Prop
  | plain : WritesNullable type false type
  | marked : WritesNullable type true ('?' :: type)
  | union {mark : List Char} {before after : List (List Char)} (hmark : mark = [] ∨ mark = ['?'])
      (hnull : ∀ word ∈ before ++ after, IsNull word) (hsome : before ++ after ≠ [])
      (htype : ¬ IsNull type) :
      WritesNullable type true (mark ++ ['|'].intercalate (before ++ type :: after))

/-- The ways to write the type of a property. -/
def WritesType (m : ModelId) (p : Property) (token : List Char) : Prop :=
  ∃ element type, WritesElement m p.type element ∧ WritesList element p.isList type ∧
    WritesNullable type p.nullable token

/-! ### Lines -/

/-- The first word of the line of a property. -/
def tag : Visibility → String
  | .default => "@property"
  | .readOnly => "@property-read"
  | .writeOnly => "@property-write"

/-- The flags of properties. -/
def flags : List (String × (Property → Bool)) :=
  [("@paginate", (·.paginated)), ("@filterable", (·.filterable)), ("@orderable", (·.orderable)),
    ("@computed", (·.computed)), ("@eager-load-disabled", (·.eagerLoadDisabled))]

/-- A text behind an indentation and the marks of a comment. -/
def Commented (line text : List Char) : Prop :=
  ∃ indent slashes stars, Text.Blank indent ∧
    line = indent ++ Text.copies "///".toList slashes ++ Text.copies "*".toList stars ++ text

/-- A line that claims to describe a property. -/
def IsPropertyLine (line : List Char) : Prop :=
  ∃ text, Commented line text ∧ "@property".toList <+: Text.trim text

/-- The ways to write the line of a property. Words after its name that are no flags mean nothing.
-/
def WritesLine (m : ModelId) (p : Property) (line : List Char) : Prop :=
  ∃ text token words, Commented line text ∧
    Text.words text = (tag p.visibility).toList :: token :: ('$' :: p.name.toList) :: words ∧
    WritesType m p token ∧ ∀ flag ∈ flags, flag.2 p = true ↔ flag.1.toList ∈ words

/-- The ways to write the lines of a block. -/
inductive WritesLines (m : ModelId) : List Property → List (List Char) → Prop
  | nil : WritesLines m [] []
  | property {p : Property} {ps : List Property} {line : List Char} {lines : List (List Char)}
      (h : WritesLine m p line) (hrest : WritesLines m ps lines) :
      WritesLines m (p :: ps) (line :: lines)
  | other {ps : List Property} {line : List Char} {lines : List (List Char)}
      (h : ¬ IsPropertyLine line) (hrest : WritesLines m ps lines) :
      WritesLines m ps (line :: lines)

/-- The blocks of a model `m` that describe the properties `ps`. -/
def Writes (m : ModelId) (ps : List Property) (block : String) : Prop :=
  WritesLines m ps (Text.lines block.toList)

/-! ### Canonical blocks -/

/-- A type as canonical blocks write it: a model by its path after two colons. -/
def canonicalElement : PropertyType → List Char
  | .model target => "::".toList ++ target.path.toList
  | type => type.text.toList

/-- The type of a property as canonical blocks write it. -/
def canonicalType (p : Property) : List Char :=
  (if p.nullable then "?".toList else []) ++
    (canonicalElement p.type ++ if p.isList then "[]".toList else [])

/-- The words of the line of a property in canonical blocks. -/
def canonicalWords (p : Property) : List (List Char) :=
  (tag p.visibility).toList :: canonicalType p :: ('$' :: p.name.toList) ::
    (flags.filter (·.2 p)).map (·.1.toList)

/-- The canonical block of a list of properties. -/
def canonical (ps : List Property) : String :=
  String.ofList (Text.unlines (ps.map fun p => Text.unwords (canonicalWords p)))

end Annotations

end EntityGraph
