import EntityGraph.Model.Catalog
import EntityGraph.Run.Action

/-!
# Storing entities and links

Finding, inserting, updating and deleting the row of an entity, and making a list of targets the
complete set of targets of a relation.
-/

namespace EntityGraph

namespace Persist

/-- The condition that a row has a key. -/
def hasId (id : Int64) : Condition :=
  .compare (Column.named idName) .eq (.int id)

/-- The entity of a model with a key. -/
def find (model : ModelId) (table : String) (id : Int64) : Action (Option Entity) := do
  let query := (Query.all table).filter (.compare (idColumn table) .eq (.int id))
  let records ← Action.query query
  return (Entity.ofRecords model records).head?

/-- Insert a row and answer its key; columns that are not given take their defaults. -/
def insert (table : String) (attributes : Record) : Action Int64 := do
  let keys ← Action.insert ⟨table, attributes.keys, [attributes.values]⟩
  match keys with
  | key :: _ => return key
  | [] => throw (.sql (.noKey table))

/-- Change the row with a key; without changes no statement runs. -/
def update (table : String) (id : Int64) (changes : Record) : Action Nat := do
  if changes.isEmpty then return 0
  else Action.update ⟨table, changes.entries, [hasId id]⟩

/-- Delete the row with a key. -/
def delete (table : String) (id : Int64) : Action Nat :=
  Action.delete ⟨table, [hasId id]⟩

/-- The first of all equal keys in a list, without some others. -/
def newKeys (existing : List Int64) (keys : List Int64) : List Int64 :=
  keys.foldl
    (fun added key => if key ∈ existing || key ∈ added then added else added ++ [key]) []

/-- Make some entities the targets that hold the key of an owner, and no others. -/
def syncHolders (table foreignKey : String) (owner : Int64) (targets : List Int64) :
    Action Unit := do
  let keys := targets.map Datum.int
  let _ ← Action.update ⟨table, [(foreignKey, .null)],
    [.compare (Column.named foreignKey) .eq (.int owner), .noneOf (Column.named idName) keys]⟩
  if keys.isEmpty then return ()
  else
    let _ ← Action.update ⟨table, [(foreignKey, .int owner)], [.oneOf (Column.named idName) keys]⟩
    return ()

/-- Make some entities the ones that are paired with an owner, and no others. -/
def syncPairs (pivot ownerKey relatedKey : String) (owner : Int64) (targets : List Int64) :
    Action Unit := do
  let keys := targets.map Datum.int
  let query := (Query.all pivot).filter (.compare (Column.of pivot ownerKey) .eq (.int owner))
  let links ← Action.query query
  let existing := links.filterMap fun link => (link.get? relatedKey).bind Datum.int?
  let _ ← Action.delete ⟨pivot,
    [.all [.compare (Column.named ownerKey) .eq (.int owner),
      .noneOf (Column.named relatedKey) keys]]⟩
  let added := newKeys existing targets
  if added.isEmpty then return ()
  else
    let rows := added.map fun key => [Datum.int owner, .int key]
    let _ ← Action.insert ⟨pivot, [ownerKey, relatedKey], rows⟩
    return ()

/-- Make some entities the complete set of targets of a relation that is not stored on the owner. -/
def sync (r : Relation) (owner : Int64) (targets : List Int64) : Action Unit :=
  match r.link with
  | .belongsTo _ => throw (.badInput (.storedOnOwner r.property))
  | .hasOne key => syncHolders r.targetTable key owner targets
  | .hasMany key => syncHolders r.targetTable key owner targets
  | .belongsToMany pivot ownerKey relatedKey => syncPairs pivot ownerKey relatedKey owner targets

end Persist

end EntityGraph
