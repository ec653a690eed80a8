import EntityGraph.Relation.Persist
import EntityGraph.Resolve.Changes
import EntityGraph.Resolve.Fields
import EntityGraph.Schema.Config

/-!
# Resolvers of root fields

Listing, viewing, creating, updating and deleting entities. Every root field asks the guard before
it changes anything; a key without an entity needs no check, since there is nothing to view or
change.
-/

namespace EntityGraph

namespace Service

/-- The key among the arguments of a field. -/
def idArg (args : List (String × Literal)) : Except Error Int64 :=
  match args.lookup "id" with
  | some (.int n) =>
    (Literal.int n).int?.elim (.error (.badInput (.invalidId (.int n)))) .ok
  | some (.float x) => .error (.badInput (.invalidId (.float x)))
  | _ => .error (.badInput (.missingArgument "id"))

/-- The input among the arguments of a field. -/
def inputArg (args : List (String × Literal)) (name : String) : Except Error Literal :=
  (args.lookup name).elim (.error (.badInput (.missingArgument name))) .ok

/-- Resolve a list page by page. -/
def listPaged (sv : Service) (caller : Caller) (m : ModelId) (selection : Selection) :
    Action (Option FieldValue) := do
  sv.guard.requireViewAny caller m
  let args ← Action.ofExcept (ListArgs.parse sv.catalog m selection.args)
  let q ← Action.ofExcept (sv.tableQuery m)
  return some (.paginator (← sv.paginate caller m (.query q) args))

/-- Resolve a plain list. -/
def list (sv : Service) (caller : Caller) (m : ModelId) (selection : Selection) :
    Action (Option FieldValue) := do
  let args ← Action.ofExcept (ListArgs.parse sv.catalog m selection.args)
  let q ← Action.ofExcept (sv.tableQuery m)
  let p ← sv.paginate caller m (.query q) args
  let entities ← p.get
  let entities ← sv.eagerLoad m entities [selection.upTo sv.selectionDepth]
  return some (.entities (← sv.guard.viewable caller entities))

/-- An entity with the relations loaded that a selection goes through. -/
def withRelations (sv : Service) (m : ModelId) (e : Entity) (selection : Selection) :
    Action (Option FieldValue) := do
  let loaded ← sv.eagerLoad m [e] [selection.upTo sv.selectionDepth]
  return loaded.head?.map .entity

/-- Resolve a single entity. -/
def view (sv : Service) (caller : Caller) (m : ModelId) (selection : Selection) :
    Action (Option FieldValue) := do
  let id ← Action.ofExcept (idArg selection.args)
  let table ← Action.ofExcept (sv.catalog.table m)
  match ← Persist.find m table id with
  | none => return none
  | some e =>
    sv.guard.requireView caller e
    sv.withRelations m e selection

/-- Sync the relations that an input names. -/
def syncAll (id : Int64) (relations : List (Relation × List Int64)) : Action Unit :=
  relations.forM fun (r, targets) => Persist.sync r id targets

/-- Store a new entity and its links. -/
def store (m : ModelId) (table : String) (changes : Changes) : Action Entity := do
  Action.record (.event (.creating m changes.attributes))
  let id ← Persist.insert table changes.attributes
  syncAll id changes.relations
  match ← Persist.find m table id with
  | none => throw (.sql (.missingAfterInsert m id))
  | some e =>
    Action.record (.event (.created e))
    return e

/-- Resolve a creation. -/
def create (sv : Service) (caller : Caller) (m : ModelId) (input : Literal)
    (selection : Selection) : Action (Option FieldValue) := do
  sv.guard.requireCreate caller m input
  let changes ← Action.ofExcept (Changes.parse sv.catalog m true input)
  let table ← Action.ofExcept (sv.catalog.table m)
  let e ← store m table changes
  sv.withRelations m e selection

/-- Resolve an update. -/
def update (sv : Service) (caller : Caller) (m : ModelId) (id : Int64) (input : Literal) :
    Action Bool := do
  let table ← Action.ofExcept (sv.catalog.table m)
  match ← Persist.find m table id with
  | none => return false
  | some e =>
    sv.guard.requireUpdate caller e input
    let changes ← Action.ofExcept (Changes.parse sv.catalog m false input)
    Action.record (.event (.updating e changes.attributes))
    let _ ← Persist.update table id changes.attributes
    syncAll id changes.relations
    match ← Persist.find m table id with
    | some updated => Action.record (.event (.updated updated))
    | none => pure ()
    return true

/-- Resolve a deletion. -/
def delete (sv : Service) (caller : Caller) (m : ModelId) (id : Int64) : Action Bool := do
  let table ← Action.ofExcept (sv.catalog.table m)
  match ← Persist.find m table id with
  | none => return false
  | some e =>
    sv.guard.requireDelete caller e
    Action.record (.event (.deleting e))
    let n ← Persist.delete table id
    Action.record (.event (.deleted e))
    return decide (0 < n)

/-- Resolve a root field; `input` names the argument that holds an input. -/
def resolveRoot (sv : Service) (caller : Caller) (f : RootField) (input : String)
    (selection : Selection) : Action (Option FieldValue) := do
  match f with
  | .all m options =>
    if options.paginate then sv.listPaged caller m selection else sv.list caller m selection
  | .view m => sv.view caller m selection
  | .create m =>
    let l ← Action.ofExcept (inputArg selection.args input)
    sv.create caller m l selection
  | .update m =>
    let id ← Action.ofExcept (idArg selection.args)
    let l ← Action.ofExcept (inputArg selection.args input)
    return some (.literal (.bool (← sv.update caller m id l)))
  | .delete m =>
    let id ← Action.ofExcept (idArg selection.args)
    return some (.literal (.bool (← sv.delete caller m id)))

end Service

end EntityGraph
