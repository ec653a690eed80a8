import EntityGraph.Access.Guard
import EntityGraph.Listing.Paginator
import EntityGraph.Model.Convert
import EntityGraph.Relation.Loader
import EntityGraph.Request.Plan

/-!
# Resolvers of generated fields

A field of a generated type answers from its parent: an entity, or the paginator behind a
connection. Every property read is checked first, and so is the target of a relation to one entity.
-/

namespace EntityGraph

/-- What resolvers work with. -/
structure Service where
  catalog : Catalog
  graph : TypeGraph
  guard : Guard
  selectionDepth : Nat
  maxDepth : Nat

/-- What a field resolves to. -/
inductive FieldValue where
  | literal (l : Literal)
  | entity (e : Entity)
  | paginator (p : Paginator)
  | list (items : List FieldValue)

/-- The value of a list of entities. -/
def FieldValue.entities (es : List Entity) : FieldValue :=
  .list (es.map .entity)

namespace Service

/-- The batch loader of a service. -/
def loader (sv : Service) : Loader := ⟨sv.catalog, sv.maxDepth⟩

/-- The list of a source with the restrictions of some arguments. -/
def paginate (sv : Service) (caller : Caller) (m : ModelId) (source : ListSource)
    (args : ListArgs) : Action Paginator :=
  Paginator.restricted sv.catalog sv.maxDepth sv.guard caller m source args

/-- Entities with the relations loaded that selections go through. -/
def eagerLoad (sv : Service) (m : ModelId) (entities : List Entity) (selections : List Selection) :
    Action (List Entity) := do
  let root ← Action.ofExcept (sv.graph.object m)
  let plan ← Action.ofExcept (LoadPlan.ofSelections sv.catalog sv.graph root selections)
  if plan.isEmpty then return entities else sv.loader.loaded m entities plan

/-- The datum of a property, by the accessor of the model or from its column. -/
def read (sv : Service) (e : Entity) (property : String) : Except Error Datum := do
  let d ← sv.catalog.definition e.model
  let derived := d.accessor.bind fun read => read e property
  return derived.getD (e.get (columnName property))

/-- The query for all entities of a model. -/
def tableQuery (sv : Service) (m : ModelId) : Except Error Query := do
  return Query.all (← sv.catalog.table m)

/-- The target of a relation to one entity, selected on its own. -/
def loadOne (sv : Service) (e : Entity) (property : String) (target : ModelId) :
    Action (Option Entity) := do
  let r ← Action.ofExcept (sv.catalog.relation e.model property)
  match r.query e with
  | none => return none
  | some q =>
    let records ← Action.query (q.withLimit (some 1))
    return (Entity.ofRecords target records).head?

/-- The targets of a relation to many entities, selected on their own. -/
def loadMany (sv : Service) (e : Entity) (property : String) (args : ListArgs) :
    Action (List Entity) := do
  let owner := Entity.of e.model e.attributes
  let loaded ← sv.loader.load e.model [owner] property args
  match (loaded.head?).bind fun owner => owner.relation property with
  | some (.many targets) => return targets
  | _ => return []

/-- The entity that a field needs as its parent. -/
def entityParent (field : String) : FieldValue → Except Error Entity
  | .entity e => .ok e
  | _ => .error (.badSchema s!"field {field} expected an entity parent")

/-- The paginator that a field needs as its parent. -/
def paginatorParent (field : String) : FieldValue → Except Error Paginator
  | .paginator p => .ok p
  | _ => .error (.badSchema s!"field {field} expected a paginator parent")

/-- Resolve a scalar property. -/
def resolveScalar (sv : Service) (caller : Caller) (f : FieldNode) (e : Entity) :
    Action (Option FieldValue) := do
  sv.guard.requireViewProperty caller e f.name
  let d ← Action.ofExcept (sv.read e f.name)
  return some (.literal d.toLiteral)

/-- Resolve a relation to one entity. -/
def resolveToOne (sv : Service) (caller : Caller) (f : FieldNode) (target : ModelId) (e : Entity) :
    Action (Option FieldValue) := do
  sv.guard.requireViewProperty caller e f.name
  let related ← match e.relation f.name with
    | some (.one loaded) => pure loaded
    | _ => sv.loadOne e f.name target
  match related with
  | none => return none
  | some related =>
    sv.guard.requireView caller related
    return some (.entity related)

/-- Resolve a relation to many entities as a list. -/
def resolveToMany (sv : Service) (caller : Caller) (f : FieldNode) (target : ModelId) (e : Entity)
    (args : List (String × Literal)) : Action (Option FieldValue) := do
  sv.guard.requireViewProperty caller e f.name
  let args ← Action.ofExcept (ListArgs.parse sv.catalog target args)
  match args.filter with
  | some filter => sv.guard.requireFilter caller target filter
  | none => pure ()
  let related ← match e.relationWith f.name args with
    | some (.many loaded) => pure loaded
    | _ => sv.loadMany e f.name args
  return some (.entities (← sv.guard.viewable caller related))

/-- Resolve a relation to many entities page by page. -/
def resolveConnection (sv : Service) (caller : Caller) (f : FieldNode) (target : ModelId)
    (e : Entity) (args : List (String × Literal)) : Action (Option FieldValue) := do
  sv.guard.requireViewProperty caller e f.name
  let args ← Action.ofExcept (ListArgs.parse sv.catalog target args)
  let r ← Action.ofExcept (sv.catalog.relation e.model f.name)
  let source := match r.query e with
    | some q => ListSource.query q
    | none => .materialized []
  let p ← sv.paginate caller target source args
  match e.relationWith f.name args with
  | some (.many loaded) => return some (.paginator (p.withEntries loaded))
  | _ => return some (.paginator p)

/-- Resolve the number of entities of a connection. -/
def resolveTotalCount (sv : Service) (caller : Caller) (p : Paginator) :
    Action (Option FieldValue) := do
  sv.guard.requireViewAny caller p.model
  let n ← p.count
  return some (.literal (.int n))

/-- Resolve the edges of a connection. -/
def resolveEdges (sv : Service) (caller : Caller) (target : ModelId) (p : Paginator)
    (selection : Selection) : Action (Option FieldValue) := do
  sv.guard.requireViewAny caller p.model
  let entries ← p.get
  if p.isPreloaded then return some (.entities entries)
  else
    let nodes := (selection.upTo sv.selectionDepth).descend ["node"]
    return some (.entities (← sv.eagerLoad target entries nodes))

/-- Resolve a field of a generated type from its parent. -/
def resolveField (sv : Service) (caller : Caller) (f : FieldNode) (parent : FieldValue)
    (selection : Selection) : Action (Option FieldValue) := do
  match f.shape with
  | .scalar _ => sv.resolveScalar caller f (← Action.ofExcept (entityParent f.name parent))
  | .toOne target =>
    sv.resolveToOne caller f target (← Action.ofExcept (entityParent f.name parent))
  | .toMany target =>
    sv.resolveToMany caller f target (← Action.ofExcept (entityParent f.name parent)) selection.args
  | .connection target =>
    sv.resolveConnection caller f target (← Action.ofExcept (entityParent f.name parent))
      selection.args
  | .totalCount => sv.resolveTotalCount caller (← Action.ofExcept (paginatorParent f.name parent))
  | .edges target =>
    sv.resolveEdges caller target (← Action.ofExcept (paginatorParent f.name parent)) selection
  | .node _ => return some (.entity (← Action.ofExcept (entityParent f.name parent)))
  | .input => throw (.badSchema s!"input field {f.name} has no resolver")

end Service

end EntityGraph
