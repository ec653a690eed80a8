import EntityGraph.Model.Catalog
import EntityGraph.Text.Affix

/-!
# Sample accessors

An application writes accessors beside its models, for properties that no column stores. Two samples
for catalogs to be tried with: one depends on what is loaded of an entity, the other gives data at
the edges of their kinds.
-/

namespace EntityGraph.Accessor

/-- The number of loaded targets: `xCount` counts the relation `xs`, `-1` if it is not loaded. -/
def countTargets : Accessor := fun e property =>
  (Text.stripEnd? "Count".toList property.toList).map fun stem =>
    match e.relation (String.ofList stem ++ "s") with
    | none => .int (-1)
    | some loaded => .int (Int64.ofNat loaded.toList.length)

/-- Data at the edges of their kinds, and a label made of the model and the key. -/
def extremes : Accessor := fun e property =>
  if property = "label" then
    some ((e.id?.map fun id => Datum.text s!"{e.model.name}#{id.toInt}").getD .null)
  else if property = "nan" then some (.float Binary64.nan)
  else if property = "big" then some (.int Int64.maxValue)
  else if property = "tags" then some (.list [.text "a", e.get "name"])
  else none

end EntityGraph.Accessor
