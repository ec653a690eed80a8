import EntityGraph.Schema.Config

/-!
# Schemas

A schema is a list of named types: objects whose fields know how they are resolved, inputs and
scalars. A type that is registered again takes the place of the earlier type of its name.

* `Schema.assemble` puts the shared types, the generated types, the roots and the hand-written types
  together;
* `Schema.isValid` is what a schema has to meet before requests run on it.
-/

namespace EntityGraph

/-- How a field is resolved. -/
inductive Resolver where
  | generated (field : FieldNode)
  | root (field : RootField) (input : String)
  /-- The field answers a fixed text. -/
  | constant (answer : String)

/-- A field of an object. -/
structure SchemaField where
  name : String
  type : TypeRef
  args : List Argument
  resolver : Resolver

/-- A type of a schema. -/
inductive SchemaType where
  | object (name : String) (fields : List SchemaField)
  | input (name : String) (fields : List Argument) (description : Option String)
  | scalar (name : String) (description : Option String)

namespace SchemaType

/-- The name of a type. -/
def name : SchemaType → String
  | object name _ => name
  | input name _ _ => name
  | scalar name _ => name

/-- Whether a type is a scalar. -/
def isScalar : SchemaType → Bool
  | scalar .. => true
  | _ => false

/-- Whether fields of objects can have a type. -/
def isOutput : SchemaType → Bool
  | input .. => false
  | _ => true

/-- Whether arguments and fields of inputs can have a type. -/
def isInput : SchemaType → Bool
  | object .. => false
  | _ => true

/-- The type of a node of the graph. -/
def ofNode (n : TypeNode) : SchemaType :=
  if n.key.kind.isInput then input n.name (n.fields.map fun f => ⟨f.name, f.type⟩) none
  else object n.name (n.fields.map fun f => ⟨f.name, f.type, f.args, .generated f⟩)

/-- The type of filters on a scalar kind: a field for each operator that is offered. -/
def ofScalarFilter (kind : ScalarKind) : SchemaType :=
  let scalar := TypeRef.named kind.typeName
  let fields := (FilterOperator.offered kind).map fun op =>
    Argument.mk op.name (if op.takesList then .list scalar.required else scalar)
  input kind.filterTypeName fields none

/-- The types that all models share. -/
def shared : List SchemaType :=
  [scalar "DateTime" (some "A date and time in the format \x60%Y-%m-%d %H:%M:%S\x60."),
   input "Order" [⟨"order", (TypeRef.named "String").required⟩]
     (some "A sort direction, \x60asc\x60 or \x60desc\x60.")]
  ++ ScalarKind.all.map ofScalarFilter

/-- The names of the scalars that every schema has. -/
def builtInNames : List String :=
  ["Int", "Float", "Boolean", "String", "ID"]

/-- The scalars that every schema has. -/
def builtIn : List SchemaType :=
  builtInNames.map fun name => scalar name none

end SchemaType

/-- Hand-written parts: fields of the roots, and objects with one field `value`. -/
structure CustomParts where
  queries : List String
  mutations : List String
  types : List String

namespace CustomParts

/-- No hand-written part. -/
def none : CustomParts := ⟨[], [], []⟩

/-- A hand-written field, which answers its own name. -/
def field (name : String) : SchemaField :=
  ⟨name, .named "String", [], .constant name⟩

end CustomParts

/-- An interface: its types and the names of its roots. -/
structure Schema where
  types : List SchemaType
  mutation : Option String

namespace Schema

/-- The name of the root of queries. -/
def queryName : String := "Query"

/-- The name of the root of changes. -/
def mutationName : String := "Mutation"

/-- A list of types with a further one, in the place of the type of its name if there is one. -/
def register (types : List SchemaType) (t : SchemaType) : List SchemaType :=
  if types.any (·.name == t.name) then types.map fun u => if u.name == t.name then t else u
  else types ++ [t]

/-- Arguments with a further one, in the place of the argument of its name if there is one. -/
def putArgument (args : List Argument) (a : Argument) : List Argument :=
  if args.any (·.name == a.name) then args.map fun b => if b.name == a.name then a else b
  else args ++ [a]

/-- The field of a resolved root field. -/
def rootField (p : RootPlan) : SchemaField :=
  ⟨p.name, p.type, p.args.foldl putArgument [], .root p.field p.input⟩

/-- Whether no two fields have one name. -/
def distinctNames : List SchemaField → Bool
  | [] => true
  | f :: rest => !rest.any (·.name == f.name) && distinctNames rest

/-- The fields of the root of queries. -/
def queryFields (roots : List RootPlan) (custom : CustomParts) : List SchemaField :=
  (roots.filter (!·.field.isMutation)).map rootField
    ++ custom.queries.map CustomParts.field

/-- The fields of the root of changes. -/
def mutationFields (roots : List RootPlan) (custom : CustomParts) : List SchemaField :=
  (roots.filter (·.field.isMutation)).map rootField
    ++ custom.mutations.map CustomParts.field

/-- The schema of a graph with resolved root fields and hand-written parts. -/
def assemble (g : TypeGraph) (roots : List RootPlan) (custom : CustomParts) : Schema :=
  let mutations := mutationFields roots custom
  let mutation := if mutations.isEmpty then [] else [SchemaType.object mutationName mutations]
  let types := SchemaType.builtIn ++ SchemaType.shared ++ g.nodes.map SchemaType.ofNode
    ++ [.object queryName (queryFields roots custom)] ++ mutation
    ++ custom.types.map fun name => .object name [CustomParts.field "value"]
  ⟨types.foldl register [], if mutations.isEmpty then none else some mutationName⟩

/-- The type of a name. -/
def find? (s : Schema) (name : String) : Option SchemaType :=
  s.types.find? (·.name == name)

/-- Whether a name is kept for the engine. -/
def isReserved (name : String) : Bool :=
  "__".toList.isPrefixOf name.toList

/-- Whether a reference leads to a type that meets a condition. -/
def refersTo (s : Schema) (ok : SchemaType → Bool) (t : TypeRef) : Bool :=
  (s.find? t.base).any ok

/-- Whether a name is free and its type can be an input. -/
def isValidArgument (s : Schema) (a : Argument) : Bool :=
  !isReserved a.name && s.refersTo SchemaType.isInput a.type

/-- Whether a field of an object is well formed. -/
def isValidField (s : Schema) (f : SchemaField) : Bool :=
  !isReserved f.name && s.refersTo SchemaType.isOutput f.type && f.args.all s.isValidArgument

/-- Whether a type is well formed: an object has fields, and references lead to types that fit. -/
def isValidType (s : Schema) : SchemaType → Bool
  | .object _ fields => !fields.isEmpty && fields.all s.isValidField
  | .input _ fields _ => fields.all s.isValidArgument
  | .scalar .. => true

/-- Whether a schema is well formed: no other type took the place of a built-in scalar, and every
type is well formed. -/
def isValid (s : Schema) : Bool :=
  SchemaType.builtInNames.all (fun name => (s.find? name).any SchemaType.isScalar)
    && s.types.all s.isValidType

/-- The types that are shown, in alphabetical order, without built-in scalars. -/
def visibleTypes (s : Schema) : List SchemaType :=
  let shown := s.types.filter fun t =>
    !SchemaType.builtInNames.contains t.name && !isReserved t.name
  (Dict.ofList (shown.map fun t => (t.name, t))).values

end Schema

/-- What keeps a schema from being built. -/
inductive SchemaFailure where
  | error (e : Error)
  /-- Two fields of a root have one name. -/
  | duplicateRootField

/-- A schema with the graph behind its generated types. -/
structure BuiltSchema where
  schema : Schema
  graph : TypeGraph

/-- Build the schema of a configuration. -/
def SchemaConfig.build (config : SchemaConfig) (c : Catalog) (custom : CustomParts) :
    Except SchemaFailure BuiltSchema :=
  match (RootPlan.buildAll c config.vocabulary config.roots).run TypeGraph.empty with
  | (.error e, _) => .error (.error e)
  | (.ok roots, graph) =>
    if !Schema.distinctNames (Schema.queryFields roots custom)
      || !Schema.distinctNames (Schema.mutationFields roots custom) then
      .error .duplicateRootField
    else
      let schema := Schema.assemble graph roots custom
      if schema.isValid then .ok ⟨schema, graph⟩
      else .error (.error (.badSchema "a type is missing, empty or misplaced"))

end EntityGraph
