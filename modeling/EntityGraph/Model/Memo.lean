import EntityGraph.Model.Catalog

/-!
# Remembered descriptions

A catalog that remembers the descriptions it has read. Registration forgets the description of the
model that it replaces; a failed description is not remembered.
-/

namespace EntityGraph

/-- A catalog with the properties of the models that were described before. -/
structure CatalogMemo where
  catalog : Catalog
  known : List (ModelId × List Property)

namespace CatalogMemo

/-- A catalog of which nothing was described yet. -/
def of (c : Catalog) : CatalogMemo := ⟨c, []⟩

/-- Register a model. -/
def register (memo : CatalogMemo) (d : ModelDefinition) : CatalogMemo :=
  ⟨memo.catalog.register d, memo.known.filter (·.1 != d.id)⟩

/-- The properties of a model, remembered or read. -/
def describe (memo : CatalogMemo) (m : ModelId) : CatalogMemo × Except Error (List Property) :=
  match memo.catalog.definition m with
  | .error e => (memo, .error e)
  | .ok d =>
    match memo.known.lookup m with
    | some properties => (memo, .ok properties)
    | none =>
      match Annotations.parse m memo.catalog.contains d.annotations with
      | .error e => (memo, .error e)
      | .ok properties => ({ memo with known := (m, properties) :: memo.known }, .ok properties)

/-- A property of a model. -/
def property (memo : CatalogMemo) (m : ModelId) (name : String) :
    CatalogMemo × Except Error Property :=
  let (memo, properties) := memo.describe m
  (memo, properties.bind (Catalog.findProperty m name))

/-- The relation behind a property of a model. -/
def relation (memo : CatalogMemo) (m : ModelId) (name : String) :
    CatalogMemo × Except Error Relation :=
  let (memo, p) := memo.property m name
  (memo, p.bind (memo.catalog.resolveRelation m))

end CatalogMemo

end EntityGraph
