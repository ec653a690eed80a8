import EntityGraph.Relation.Query
import EntityGraph.Run.Action

/-!
# Loading relations in batches

The targets of a relation are loaded for all owners at once: one selection gathers the targets of
all keys, and each owner takes its share. Relations along a path are loaded one after the
other, each for all entities that the path before it reaches.
-/

namespace EntityGraph

namespace Datum

mutual

/-- Equality of data; null equals null, and numbers of different kinds differ. -/
def same : Datum → Datum → Bool
  | null, null => true
  | bool a, bool b => a == b
  | int a, int b => a == b
  | float x, float y => x.same y
  | text a, text b => a == b
  | timestamp a, timestamp b => a == b
  | list as, list bs => sameItems as bs
  | _, _ => false

/-- Equality of lists of data. -/
def sameItems : List Datum → List Datum → Bool
  | [], [] => true
  | a :: as, b :: bs => same a b && sameItems as bs
  | _, _ => false

end

/-- The first of all equal data in a list, without nulls. -/
def distinctKeys (data : List Datum) : List Datum :=
  data.foldl (fun kept d => if d.isNull || kept.any (·.same d) then kept else kept ++ [d]) []

end Datum

/-- What batch loading needs to know: models, and the limit on relations in filters and orders. -/
structure Loader where
  catalog : Catalog
  maxDepth : Nat

namespace Loader

/-- The targets of a relation whose `key` column holds one of some keys, restricted by the filter
and the order of a list. Without keys no selection runs. -/
def targets (l : Loader) (r : Relation) (args : ListArgs) (key : String) (keys : List Datum) :
    Action (List Entity) := do
  if keys.isEmpty then return []
  else
    let base := (Query.all r.targetTable).filter (.oneOf (Column.of r.targetTable key) keys)
    let query ← Action.ofExcept (args.refine l.catalog l.maxDepth r.target base)
    let records ← Action.query query
    return Entity.ofRecords r.target records

/-- The share of an owner that holds the key of its target. -/
def shareByKey (foreignKey : String) (targets : List Entity) (owner : Entity) : Loaded :=
  match (owner.get foreignKey).int? with
  | some key => .one (targets.filter fun t => t.id? == some key).getLast?
  | none => .one none

/-- The targets that hold the key of an owner. -/
def held (foreignKey : String) (targets : List Entity) (owner : Entity) : List Entity :=
  match owner.id? with
  | some id => targets.filter fun t => (t.get foreignKey).int? == some id
  | none => []

/-- The pair of keys in a row of a table of pairs. -/
def pair (ownerKey relatedKey : String) (link : Record) : Option (Int64 × Int64) := do
  let owner ← (← link.get? ownerKey).int?
  let related ← (← link.get? relatedKey).int?
  return (owner, related)

/-- The targets that are paired with an owner. -/
def paired (pairs : List (Int64 × Int64)) (targets : List Entity) (owner : Entity) : List Entity :=
  targets.filter fun t =>
    pairs.any fun (o, r) => some o == owner.id? && some r == t.id?

/-- The rows of a table of pairs that link some owners. -/
def links (pivot ownerKey relatedKey : String) (keys : List Datum) :
    Action (List (Int64 × Int64)) := do
  if keys.isEmpty then return []
  else
    let rows ← Action.query ((Query.all pivot).filter (.oneOf (Column.of pivot ownerKey) keys))
    return rows.filterMap (pair ownerKey relatedKey)

/-- How every owner finds its share of the targets of a relation. -/
def shares (l : Loader) (r : Relation) (args : ListArgs) (owners : List Entity) :
    Action (Entity → Loaded) := do
  let ids := Datum.distinctKeys (owners.map (·.get idName))
  match r.link with
  | .belongsTo key =>
    let keys := Datum.distinctKeys (owners.map (·.get key))
    let found ← l.targets r args idName keys
    return shareByKey key found
  | .hasOne key =>
    let found ← l.targets r args key ids
    return fun owner => .one (held key found owner).head?
  | .hasMany key =>
    let found ← l.targets r args key ids
    return fun owner => .many (args.paginate (held key found owner))
  | .belongsToMany pivot ownerKey relatedKey =>
    let pairs ← links pivot ownerKey relatedKey ids
    let related := Datum.distinctKeys (pairs.map fun p => .int p.2)
    let found ← l.targets r args idName related
    return fun owner => .many (args.paginate (paired pairs found owner))

/-- The owners with a relation of their model loaded. -/
def load (l : Loader) (model : ModelId) (owners : List Entity) (property : String)
    (args : ListArgs) : Action (List Entity) := do
  let r ← Action.ofExcept (l.catalog.relation model property)
  let share ← l.shares r args owners
  return owners.map fun owner => owner.setRestricted property (share owner) args

/-- A result with the owners as they are at its end, also after a failure. -/
abbrev Outcome := List Entity × Except Error Unit

/-- Load a relation; a failure leaves the owners as they were. -/
def tryLoad (l : Loader) (model : ModelId) (owners : List Entity) (property : String)
    (args : ListArgs) : StateM World Outcome := do
  match ← (l.load model owners property args).run with
  | .ok loaded => return (loaded, .ok ())
  | .error e => return (owners, .error e)

/-- The entities loaded along a relation of some owners. -/
def along (property : String) (owners : List Entity) : List Entity :=
  owners.flatMap fun owner => (owner.relation property).elim [] Loaded.toList

/-- Loaded targets with other entities in the place of theirs. -/
def replaceTargets (targets : List Entity) : Loaded → Loaded
  | .one none => .one none
  | .one (some _) => .one targets.head?
  | .many _ => .many targets

/-- Put entities back in the place of those loaded along a relation of some owners. -/
def putBack (property : String) : List Entity → List Entity → List Entity
  | [], _ => []
  | owner :: rest, entities =>
    match owner.relation property with
    | none => owner :: putBack property rest entities
    | some loaded =>
      let n := loaded.toList.length
      let relations := owner.relations.set property (replaceTargets (entities.take n) loaded)
      Entity.mk owner.model owner.attributes relations owner.restrictions ::
        putBack property rest (entities.drop n)

/-- Load the last relation of a path for all entities that the relations before it reach. A relation
on the way that some entity lacks is loaded without restrictions. -/
def loadPath (l : Loader) (model : ModelId) (args : ListArgs) (owners : List Entity) :
    List String → StateM World Outcome
  | [] => return (owners, .ok ())
  | [property] => l.tryLoad model owners property args
  | property :: next :: rest => do
    let (owners, result) ←
      if owners.any fun owner => (owner.relation property).isNone then
        l.tryLoad model owners property ListArgs.none
      else pure (owners, .ok ())
    match result with
    | .error e => return (owners, .error e)
    | .ok () =>
      match l.catalog.relation model property with
      | .error e => return (owners, .error e)
      | .ok r =>
        let (entities, result) ← l.loadPath r.target args (along property owners) (next :: rest)
        return (putBack property owners entities, result)

/-- The relations of a dotted path. -/
def segments (path : String) : List String :=
  (Text.splitBy (· == '.') path.toList).map String.ofList

/-- Load paths one after the other up to the first failure. -/
def loadEach (l : Loader) (model : ModelId) (owners : List Entity) :
    List (String × ListArgs) → StateM World Outcome
  | [] => return (owners, .ok ())
  | (path, args) :: rest => do
    let (owners, result) ← l.loadPath model args owners (segments path)
    match result with
    | .error e => return (owners, .error e)
    | .ok () => l.loadEach model owners rest

/-- Load dotted paths of relations, short paths before long ones. -/
def loadPaths (l : Loader) (model : ModelId) (owners : List Entity)
    (paths : List (String × ListArgs)) : StateM World Outcome :=
  let depth := fun (p : String × ListArgs) => (segments p.1).length
  l.loadEach model owners (paths.mergeSort fun a b => depth a ≤ depth b)

/-- Load dotted paths of relations, failing if a path fails. -/
def loaded (l : Loader) (model : ModelId) (owners : List Entity)
    (paths : List (String × ListArgs)) : Action (List Entity) := do
  let (owners, result) ← (l.loadPaths model owners paths : StateM World Outcome)
  Action.ofExcept result
  return owners

end Loader

end EntityGraph
