import EntityGraph.Error
import EntityGraph.TypeGraph.TypeRef

/-!
# The graph of types

A model gives rise to up to six types: its object, the inputs of its changes, filters and orders,
and the connection and edge that list it page by page. Types refer to each other by name, so the
graph is a list of nodes in the order of their registration.
-/

namespace EntityGraph

/-- The role of a type for its model. -/
inductive TypeKind where
  | object
  | input
  | filter
  | order
  | connection
  | edge
  deriving DecidableEq

namespace TypeKind

/-- The name of a role. -/
def name : TypeKind → String
  | object => "Object"
  | input => "Input"
  | filter => "Filter"
  | order => "Order"
  | connection => "Connection"
  | edge => "Edge"

/-- All roles. -/
def all : List TypeKind :=
  [object, input, filter, order, connection, edge]

/-- The name of the type in a role for a model of the given name. -/
def typeName : TypeKind → String → String
  | object, model => model
  | input, model => model ++ "Input"
  | filter, model => model ++ "FilterInput"
  | order, model => model ++ "OrderInput"
  | connection, model => model ++ "Connection"
  | edge, model => model ++ "Edge"

/-- Whether the types in a role are inputs. -/
def isInput : TypeKind → Bool
  | input => true
  | filter => true
  | order => true
  | _ => false

end TypeKind

/-- A model with a role: what identifies a node. -/
structure TypeKey where
  model : ModelId
  kind : TypeKind
  deriving DecidableEq

/-- The name of the type of a key. -/
def TypeKey.typeName (k : TypeKey) : String :=
  k.kind.typeName k.model.name

/-- An argument of a field. -/
structure Argument where
  name : String
  type : TypeRef
  deriving DecidableEq

/-- What a field stands for. -/
inductive FieldShape where
  | scalar (kind : ScalarKind)
  /-- The one target of a relation. -/
  | toOne (target : ModelId)
  /-- The targets of a relation as a list. -/
  | toMany (target : ModelId)
  /-- The targets of a relation page by page. -/
  | connection (target : ModelId)
  /-- The number of entities of a connection. -/
  | totalCount
  /-- The edges of a connection. -/
  | edges (target : ModelId)
  /-- The entity of an edge. -/
  | node (target : ModelId)
  /-- A field of an input. -/
  | input
  deriving DecidableEq

/-- The model of the entities that a field leads to. -/
def FieldShape.target : FieldShape → Option ModelId
  | toOne target => some target
  | toMany target => some target
  | connection target => some target
  | edges target => some target
  | node target => some target
  | _ => none

/-- A field of a type; it may stand for a property of the model. -/
structure FieldNode where
  name : String
  type : TypeRef
  args : List Argument
  shape : FieldShape
  property : Option Property
  deriving DecidableEq

namespace FieldNode

/-- A field without arguments that stands for no property. -/
def plain (name : String) (type : TypeRef) (shape : FieldShape) : FieldNode :=
  ⟨name, type, [], shape, none⟩

/-- The field of an input that stands for a property. -/
def ofProperty (p : Property) (type : TypeRef) : FieldNode :=
  ⟨p.name, type, [], .input, some p⟩

/-- An argument of a field. -/
def arg? (f : FieldNode) (name : String) : Option Argument :=
  f.args.find? (·.name == name)

end FieldNode

/-- A type of the graph; its fields are unknown while it is under construction. -/
structure TypeNode where
  key : TypeKey
  built : Option (List FieldNode)

namespace TypeNode

/-- The name of a type. -/
def name (n : TypeNode) : String := n.key.typeName

/-- The fields of a type. -/
def fields (n : TypeNode) : List FieldNode := n.built.getD []

/-- A field of a type. -/
def field? (n : TypeNode) (name : String) : Option FieldNode :=
  n.fields.find? (·.name == name)

end TypeNode

/-- The generated types. -/
structure TypeGraph where
  nodes : List TypeNode

namespace TypeGraph

/-- The graph without types. -/
def empty : TypeGraph := ⟨[]⟩

/-- The node of a key. -/
def find? (g : TypeGraph) (k : TypeKey) : Option TypeNode :=
  g.nodes.find? (·.key == k)

/-- The object type of a model. -/
def object (g : TypeGraph) (m : ModelId) : Except Error TypeNode :=
  (g.find? ⟨m, .object⟩).elim (.error (.unknownModel m)) .ok

end TypeGraph

/-- The arguments of a list of entities. -/
structure ListOptions where
  paginate : Bool
  filterable : Bool
  orderable : Bool

/-- The arguments that a relation asks for by its flags. -/
def Property.listOptions (p : Property) : ListOptions :=
  ⟨p.paginated, p.filterable, p.orderable⟩

end EntityGraph
