import EntityGraph.Model.Annotations
import EntityGraph.Model.Entity
import EntityGraph.Text.Snake
import EntityGraph.Vocabulary.Plural

/-!
# Catalogs

A catalog is a set of model definitions. It answers what properties a model has and how its
relations are stored, with conventional names of tables and keys where a definition gives none.

* `Catalog.describe` reads the annotations of a model;
* `Catalog.relation` resolves a relation to tables and keys, and refuses one whose declared kind
  does not fit the type of its property.
-/

namespace EntityGraph

/-- The name of the column that stores a property. -/
def columnName (property : String) : String :=
  snakeCase property

/-- The column of a table that stores a property. -/
def propertyColumn (table property : String) : Column :=
  Column.of table (columnName property)

/-- The key column of a table. -/
def idColumn (table : String) : Column :=
  Column.of table idName

/-- How a model declares a relation; a key without a name takes the conventional one. -/
inductive RelationKind where
  /-- The owner holds the key of the target. -/
  | belongsTo (foreignKey : Option String)
  /-- The target holds the key of the owner, and an owner has at most one target. -/
  | hasOne (foreignKey : Option String)
  /-- The target holds the key of the owner. -/
  | hasMany (foreignKey : Option String)
  /-- A table of pairs links owners and targets. -/
  | belongsToMany (pivot ownerKey relatedKey : Option String)

/-- The declared kind of the relation behind a property. -/
structure RelationOverride where
  property : String
  kind : RelationKind

/-- A function that reads a property of an entity, or leaves it to the stored datum. -/
abbrev Accessor := Entity → String → Option Datum

/-- The definition of a model. -/
structure ModelDefinition where
  name : String
  space : String
  table : Option String
  annotations : String
  relations : List RelationOverride
  accessor : Option Accessor

namespace ModelDefinition

/-- The path of the defined model. -/
def id (d : ModelDefinition) : ModelId :=
  ModelId.of d.space d.name

/-- The table of the model: by default the plural of its name in snake case. -/
def tableName (d : ModelDefinition) : String :=
  d.table.getD (snakeCase (Plural.english d.name))

end ModelDefinition

/-- How the rows of a relation are linked. -/
inductive Link where
  | belongsTo (foreignKey : String)
  | hasOne (foreignKey : String)
  | hasMany (foreignKey : String)
  | belongsToMany (pivot ownerKey relatedKey : String)
  deriving DecidableEq

/-- Whether a link leads to at most one target. -/
def Link.isToOne : Link → Bool
  | belongsTo _ => true
  | hasOne _ => true
  | _ => false

/-- A relation with its tables and keys. -/
structure Relation where
  property : String
  ownerTable : String
  target : ModelId
  targetTable : String
  link : Link
  deriving DecidableEq

/-- The link of a declared kind between models of the given names, behind a property. -/
def RelationKind.link (kind : RelationKind) (owner target property : String) : Link :=
  let ownerName := snakeCase owner
  let targetName := snakeCase target
  let ownerKey := ownerName ++ "_id"
  match kind with
  | .belongsTo key => .belongsTo (key.getD (snakeCase property ++ "_id"))
  | .hasOne key => .hasOne (key.getD ownerKey)
  | .hasMany key => .hasMany (key.getD ownerKey)
  | .belongsToMany pivot key relatedKey =>
    let pair :=
      if targetName < ownerName then targetName ++ "_" ++ ownerName
      else ownerName ++ "_" ++ targetName
    .belongsToMany (pivot.getD pair) (key.getD ownerKey) (relatedKey.getD (targetName ++ "_id"))

/-- The kind of a relation that declares none. -/
def RelationKind.default (isList : Bool) : RelationKind :=
  if isList then .hasMany none else .belongsTo none

/-- The known models. -/
structure Catalog where
  definitions : List ModelDefinition

namespace Catalog

/-- The catalog without models. -/
def empty : Catalog := ⟨[]⟩

/-- The catalog with a model; it takes the place of a model of the same path. -/
def register (c : Catalog) (d : ModelDefinition) : Catalog :=
  ⟨c.definitions.filter (·.id != d.id) ++ [d]⟩

/-- Whether a model is known. -/
def contains (c : Catalog) (m : ModelId) : Bool :=
  c.definitions.any (·.id == m)

/-- The paths of all models in alphabetical order. -/
def models (c : Catalog) : List ModelId :=
  (Dict.ofList (c.definitions.map fun d => (d.id.path, ()))).keys.map ModelId.mk

/-- The definition of a model. -/
def definition (c : Catalog) (m : ModelId) : Except Error ModelDefinition :=
  (c.definitions.find? (·.id == m)).elim (.error (.unknownModel m)) .ok

/-- The table of a model. -/
def table (c : Catalog) (m : ModelId) : Except Error String := do
  return (← c.definition m).tableName

/-- The properties of a model in the order of their declaration. -/
def describe (c : Catalog) (m : ModelId) : Except Error (List Property) := do
  let d ← c.definition m
  Annotations.parse m c.contains d.annotations

/-- A property among the properties of a model. -/
def findProperty (m : ModelId) (name : String) (properties : List Property) :
    Except Error Property :=
  (properties.find? (·.name == name)).elim (.error (.unknownProperty m name)) .ok

/-- A property of a model. -/
def property (c : Catalog) (m : ModelId) (name : String) : Except Error Property := do
  let properties ← c.describe m
  findProperty m name properties

/-- The relation behind a property, given how it is described. -/
def resolveRelation (c : Catalog) (m : ModelId) (p : Property) : Except Error Relation := do
  match p.target with
  | none => .error (.badInput (.notARelation m p.name))
  | some target =>
    let owner ← c.definition m
    let related ← c.definition target
    let declared := (owner.relations.find? (·.property == p.name)).map (·.kind)
    let kind := declared.getD (RelationKind.default p.isList)
    let link := kind.link owner.name related.name p.name
    if p.isList == link.isToOne then .error (.metadata m p.name .cardinality)
    else return ⟨p.name, owner.tableName, target, related.tableName, link⟩

/-- The relation behind a property of a model. -/
def relation (c : Catalog) (m : ModelId) (name : String) : Except Error Relation := do
  let p ← c.property m name
  c.resolveRelation m p

end Catalog

end EntityGraph
