import EntityGraph.Resolve.Roots
import EntityGraph.Schema.Types

/-!
# Executing requests

A request is resolved field by field, each with everything below it before the next. A field that
fails is left out of its object and noted among the errors; an object without any field is null.

Whether a request fits the schema is for the engine to say that receives it: before any field is
resolved it refuses one that selects a field which its object lacks, or whose arguments do not fit
their types, such as an input without a required field. What is run here are requests that it has
let through. An argument with a variable that has no value is let through as it is, so the resolvers
may be given arguments of any shape; what is proved of all requests is proved of these as well.

* `Execution.complete` turns the value of a field into a literal by the type of the field;
* `Execution.merge` puts a field that is selected twice together;
* `Interface.execute` runs a request and answers its data and the errors of its fields.
-/

namespace EntityGraph

/-- Why a field is left out of its object. -/
inductive FieldError where
  /-- Its resolver failed. -/
  | resolver (e : Error)
  /-- Its value does not fit its type. -/
  | misfit

/-- A step of an execution, which gathers the errors of fields. -/
abbrev Execution (α : Type) := StateT (List FieldError) (StateM World) α

/-- A step that may fail the field it belongs to. -/
abbrev Completion (α : Type) := ExceptT FieldError (StateT (List FieldError) (StateM World)) α

/-- The items of a value that is a list. -/
def FieldValue.items? : FieldValue → Option (List FieldValue)
  | list items => some items
  | literal (.list items) => some (items.map literal)
  | _ => none

namespace Execution

/-- Join a value into the field of a key, or add the field at the end if there is none. -/
def update (key : String) (value : Literal) (join : Literal → Literal) :
    List (String × Literal) → List (String × Literal)
  | [] => [(key, value)]
  | (k, old) :: rest =>
    if k = key then (k, join old) :: rest else (k, old) :: update key value join rest

mutual

/-- Put a further value of a field into the first, which stays unless both are objects or lists. -/
def mergeValue : Literal → Literal → Literal
  | .object new, .object old => .object (mergeFields new old)
  | .list new, .list old => .list (mergeItems new old)
  | _, old => old
termination_by structural new => new

/-- Put a further item of a list into the first, which stays unless both are objects. -/
def mergeItem : Literal → Literal → Literal
  | .object new, .object old => .object (mergeFields new old)
  | _, old => old
termination_by structural new => new

/-- Put fields into an object, one after the other. -/
def mergeFields : List (String × Literal) → List (String × Literal) → List (String × Literal)
  | [], old => old
  | (key, value) :: rest, old => mergeFields rest (update key value (mergeValue value) old)
termination_by structural new => new

/-- Put further items into the ones at their places; what has no place is left out. -/
def mergeItems : List Literal → List Literal → List Literal
  | new :: news, old :: olds => mergeItem new old :: mergeItems news olds
  | _, olds => olds
termination_by structural new => new

end

/-- Put a field into an object: a first value stays, unless both are objects or lists, which are put
together. -/
def merge (done : List (String × Literal)) (key : String) (value : Literal) :
    List (String × Literal) :=
  update key value (mergeValue value) done

/-- Note the error of a field. -/
def note (e : FieldError) : Execution Unit :=
  modify (· ++ [e])

/-- Run an action within an execution. -/
def perform {α : Type} (a : Action α) : Completion α := do
  match ← (StateT.lift a.run : Execution (Except Error α)) with
  | .ok x => return x
  | .error e => throw (.resolver e)

/-- Whether a literal is the text of a timestamp. -/
def isTimestamp : Literal → Bool
  | .string s => (Timestamp.parse? s).isSome
  | _ => false

/-- How a value is resolved as an object of a name with some fields. -/
abbrev ObjectStep := String → List SchemaField → FieldValue → Execution Literal

/-- The literal of a value of a named type. Only timestamps are looked into among the scalars. -/
def completeNamed (s : Schema) (object : ObjectStep) (type : String) (value : FieldValue) :
    Completion Literal :=
  match s.find? type, value with
  | some (.object name fields), value => object name fields value
  | some (.scalar name _), .literal l =>
    if name == ScalarKind.dateTime.typeName && !isTimestamp l then throw .misfit else return l
  | _, _ => throw .misfit

/-- The literal of the value of a field of a type, which may have no value. -/
def complete (s : Schema) (object : ObjectStep) : TypeRef → Option FieldValue → Completion Literal
  | .named type, some value => completeNamed s object type value
  | .nonNull type, some value => complete s object type (some value)
  | .list item, some value => do
    match value.items? with
    | some items => return .list (← items.mapM fun v => complete s object item (some v))
    | none => throw .misfit
  | .nonNull _, none => throw .misfit
  | _, none => return .null

/-- The literal of an object: null unless it has a field. -/
def objectLiteral (fields : List (String × Literal)) : Literal :=
  if fields.isEmpty then .null else .object fields

end Execution

/-- An interface that is ready for requests. -/
structure Interface where
  schema : Schema
  service : Service

/-- A request that the engine has let through: what it selects from which root, and on whose
behalf. -/
structure Request where
  isMutation : Bool
  caller : Caller
  selections : List Selection

/-- The answer to a request. -/
structure Response where
  data : Literal
  errors : List FieldError

namespace Interface

open Execution

/-- The value of a field, by its resolver. -/
def valueOf (i : Interface) (caller : Caller) (f : SchemaField) (parent : FieldValue)
    (selection : Selection) : Action (Option FieldValue) :=
  match f.resolver with
  | .generated node => i.service.resolveField caller node parent selection
  | .root field input => i.service.resolveRoot caller field input selection
  | .constant answer => return some (.literal (.string answer))

/-- The name of the field that every object has: the name of its type. -/
def typeNameField : String := "__typename"

mutual

/-- Put the field of an object that a selection asks for into the ones that are there. A field that
the object does not have is passed over. -/
def resolveField (i : Interface) (caller : Caller) (type : String) (fields : List SchemaField)
    (parent : FieldValue) (done : List (String × Literal)) :
    Selection → Execution (List (String × Literal))
  | .mk key name args children => do
    if name = typeNameField then return merge done key (.string type)
    else match fields.find? (·.name == name) with
      | none => return done
      | some f =>
        let object : ObjectStep := fun type fields parent => do
          return objectLiteral (← resolve i caller type fields parent [] children)
        let field : Completion Literal := do
          let value ← perform (i.valueOf caller f parent (.mk key name args children))
          complete i.schema object f.type value
        match ← field.run with
        | .ok l => return merge done key l
        | .error e =>
          note e
          return done

/-- Put the fields of an object that selections ask for into the ones that are there, one after the
other. -/
def resolve (i : Interface) (caller : Caller) (type : String) (fields : List SchemaField)
    (parent : FieldValue) (done : List (String × Literal)) :
    List Selection → Execution (List (String × Literal))
  | [] => return done
  | s :: rest => do
    resolve i caller type fields parent (← resolveField i caller type fields parent done s) rest

end

/-- The name of the root that a request selects from. -/
def rootName (r : Request) : String :=
  if r.isMutation then Schema.mutationName else Schema.queryName

/-- Run a request that the engine has let through. -/
def execute (i : Interface) (r : Request) : StateM World Response := do
  match i.schema.find? (rootName r) with
  | some (.object type fields) =>
    let (data, errors) ← (resolve i r.caller type fields (.literal .null) [] r.selections).run []
    return ⟨objectLiteral data, errors⟩
  | _ => return ⟨.null, []⟩

end Interface

/-- The interface of a configuration, guarded by a policy. -/
def SchemaConfig.interface (config : SchemaConfig) (c : Catalog) (custom : CustomParts)
    (policy : Policy) : Except SchemaFailure Interface := do
  let built ← config.build c custom
  return ⟨built.schema,
    { catalog := c, graph := built.graph, guard := ⟨policy, config.vocabulary⟩,
      selectionDepth := config.selectionDepth, maxDepth := config.maxRelationDepth }⟩

end EntityGraph
