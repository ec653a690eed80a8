import EntityGraph.Declaration.Attribute
import EntityGraph.Declaration.Grammar.Closed
import EntityGraph.Model.Catalog

/-!
# Declarations

A model can be declared by a name with documentation and attributes. The documentation is its block
of annotations; attributes name its namespace, its table, its accessor and the kinds of its
relations.

* `Declaration.read` reads a declaration;
* `Declaration.definition` is the definition that a declaration stands for.
-/

namespace EntityGraph

/-- A declared model. -/
structure Declaration where
  name : String
  /-- The namespace, if it is not the one that the declaration stands in. -/
  space : Option String
  table : Option String
  annotations : String
  relations : List RelationOverride
  /-- The path of the accessor. -/
  accessor : Option String

namespace Declaration

/-- Read a single text. -/
def text? : List Token → Option String
  | [.text _ s] => some s
  | _ => none

/-- Read texts, each after a comma. -/
def keys? : List Token → Option (List String)
  | [] => some []
  | .mark ',' _ :: .text _ s :: rest => (keys? rest).map (s :: ·)
  | _ => none

/-- Read a property with the names of keys. -/
def relation? : List Token → Option (String × List String)
  | .word property :: rest =>
    if property ∈ Token.keywords then none else (keys? rest).map fun keys => (property, keys)
  | _ => none

/-- Read a single path. -/
def path? (tokens : List Token) : Option String :=
  (Grammar.pathText? tokens).map fun s => String.ofList (s.toList.filter (· != ' '))

/-- A word for a kind of relation, the number of keys it takes, and the kind with some keys. -/
structure KindWord where
  word : String
  most : Nat
  kind : List String → RelationKind

/-- The words for kinds of relations. -/
def kindWords : List KindWord :=
  [⟨"belongs_to", 1, fun keys => .belongsTo keys[0]?⟩,
   ⟨"has_one", 1, fun keys => .hasOne keys[0]?⟩,
   ⟨"has_many", 1, fun keys => .hasMany keys[0]?⟩,
   ⟨"belongs_to_many", 3, fun keys => .belongsToMany keys[0]? keys[1]? keys[2]?⟩]

/-- The relations that attributes declare with a word. -/
def relationsOf (attributes : List Attribute) (w : KindWord) :
    Except DeclarationFault (List RelationOverride) := do
  let found ← Attribute.arguments relation? w.word attributes
  found.mapM fun (property, keys) =>
    if keys.length ≤ w.most then .ok ⟨property, w.kind keys⟩
    else .error (.tooManyKeys w.word property w.most)

/-- The first argument of a name among attributes. -/
def argument? {α : Type} (read : List Token → Option α) (name : String)
    (attributes : List Attribute) : Except DeclarationFault (Option α) := do
  return (← Attribute.arguments read name attributes).head?

/-- The declaration of a model by its name, the lines before it and the texts of its attributes. -/
def read (name : String) (lines attributes : List String) :
    Except DeclarationFault Declaration := do
  let attributes ← attributes.mapM fun s => (Attribute.ofText? s).elim (.error .malformed) .ok
  let space ← argument? text? "namespace" attributes
  let table ← argument? text? "table" attributes
  let accessor ← argument? path? "accessor" attributes
  let documentation := lines ++ attributes.filterMap (·.documentation?)
  let annotations := "\n".intercalate
    (documentation.map fun line => String.ofList (Text.trim line.toList))
  let relations ← kindWords.mapM (relationsOf attributes)
  return ⟨name, space, table, annotations, relations.flatten, accessor⟩

/-- The definition that a declaration stands for in a namespace, with accessors of paths. -/
def definition (d : Declaration) (space : String) (accessors : String → Option Accessor) :
    ModelDefinition :=
  { name := d.name, space := d.space.getD space, table := d.table, annotations := d.annotations,
    relations := d.relations, accessor := d.accessor.bind accessors }

end Declaration

end EntityGraph
