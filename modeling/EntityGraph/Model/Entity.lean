import EntityGraph.Relation.Args

/-!
# Entities

An entity is a row of the table of a model, together with the entities that were loaded along its
relations. A relation that was loaded under restrictions remembers them.
-/

namespace EntityGraph

/-- The name of the property and the column that identify an entity. -/
def idName : String := "id"

mutual

/-- A row of the table of a model with loaded relations. -/
inductive Entity where
  | mk (model : ModelId) (attributes : Dict Datum) (relations : Dict Loaded)
    (restrictions : Dict ListArgs)

/-- The loaded targets of a relation. -/
inductive Loaded where
  | one (target : Option Entity)
  | many (targets : List Entity)

end

namespace Entity

/-- The model of an entity. -/
def model : Entity → ModelId
  | mk model _ _ _ => model

/-- The data of an entity by column. -/
def attributes : Entity → Record
  | mk _ attributes _ _ => attributes

/-- The loaded relations of an entity by property. -/
def relations : Entity → Dict Loaded
  | mk _ _ relations _ => relations

/-- The restrictions of loaded relations; a relation without any was loaded in full. -/
def restrictions : Entity → Dict ListArgs
  | mk _ _ _ restrictions => restrictions

/-- An entity without loaded relations. -/
def of (model : ModelId) (attributes : Record) : Entity :=
  mk model attributes Dict.empty Dict.empty

instance : Inhabited Entity := ⟨of default Dict.empty⟩

/-- The key of a stored entity. -/
def id? (e : Entity) : Option Int64 :=
  (e.attributes.get? idName).bind Datum.int?

/-- The datum in a column, null if there is none. -/
def get (e : Entity) (column : String) : Datum :=
  (e.attributes.get? column).getD .null

theorem id?_of {model : ModelId} {attributes : Record} {i : Int64}
    (h : attributes.get? idName = some (.int i)) : (of model attributes).id? = some i :=
  congrArg (Option.bind · Datum.int?) h

theorem get_of {model : ModelId} {attributes : Record} {column : String} {d : Datum}
    (h : attributes.get? column = some d) : (of model attributes).get column = d :=
  congrArg (Option.getD · Datum.null) h

/-- The entity with a datum set in a column. -/
def set (e : Entity) (column : String) (d : Datum) : Entity :=
  mk e.model (e.attributes.set column d) e.relations e.restrictions

/-- The loaded targets of a relation. -/
def relation (e : Entity) (property : String) : Option Loaded :=
  e.relations.get? property

/-- The loaded targets of a relation, if it was loaded under exactly the given restrictions. -/
def relationWith (e : Entity) (property : String) (args : ListArgs) : Option Loaded :=
  let loadedWith := (e.restrictions.get? property).getD ListArgs.none
  if loadedWith.same args then e.relation property else none

/-- The entity with all targets of a relation. -/
def setRelation (e : Entity) (property : String) (loaded : Loaded) : Entity :=
  mk e.model e.attributes (e.relations.set property loaded) (e.restrictions.erase property)

/-- The entity with the targets of a relation under restrictions. -/
def setRestricted (e : Entity) (property : String) (loaded : Loaded) (args : ListArgs) : Entity :=
  let restrictions :=
    if args.same ListArgs.none then e.restrictions.erase property
    else e.restrictions.set property args
  mk e.model e.attributes (e.relations.set property loaded) restrictions

/-- The entities of records of a model's table. -/
def ofRecords (model : ModelId) (records : List Record) : List Entity :=
  records.map (of model)

end Entity

/-- The loaded targets as a list. -/
def Loaded.toList : Loaded → List Entity
  | one target => target.toList
  | many targets => targets

end EntityGraph
