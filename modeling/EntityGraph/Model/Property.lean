import EntityGraph.Model.Id

/-!
# Properties

What is known of a property of a model: its type, whether it may be null or is a list, where it may
be read and written, and the flags that shape the lists of related entities.
-/

namespace EntityGraph

/-- The kind of a scalar. -/
inductive ScalarKind where
  | int
  | float
  | boolean
  | string
  | dateTime
  deriving DecidableEq

/-- The name of a scalar kind. -/
def ScalarKind.name : ScalarKind → String
  | int => "int"
  | float => "float"
  | boolean => "bool"
  | string => "string"
  | dateTime => "datetime"

/-- All scalar kinds. -/
def ScalarKind.all : List ScalarKind :=
  [.int, .float, .boolean, .string, .dateTime]

/-- The type of a property, or of its items if the property is a list. -/
inductive PropertyType where
  | scalar (kind : ScalarKind)
  /-- A relation to entities of a model. -/
  | model (target : ModelId)
  /-- A list of unknown items. -/
  | untypedArray
  /-- A type that no interface can express. -/
  | unsupported (name : String)
  deriving DecidableEq

/-- How messages show the type of a property. -/
def PropertyType.text : PropertyType → String
  | scalar kind => kind.name
  | model target => target.path
  | untypedArray => "array"
  | unsupported name => name

/-- Whether a property appears in answers, in inputs or in both. -/
inductive Visibility where
  | default
  | readOnly
  | writeOnly
  deriving DecidableEq

/-- A property of a model. -/
structure Property where
  name : String
  type : PropertyType
  nullable : Bool
  isList : Bool
  visibility : Visibility
  /-- Derived by an accessor, so that no filter or order can reach it. -/
  computed : Bool
  /-- A relation to many entities that is offered page by page. -/
  paginated : Bool
  filterable : Bool
  orderable : Bool
  eagerLoadDisabled : Bool
  deriving DecidableEq

namespace Property

/-- The model that a relation leads to. -/
def target (p : Property) : Option ModelId :=
  match p.type with
  | .model target => some target
  | _ => none

/-- The kind of a scalar property. -/
def scalarKind (p : Property) : Option ScalarKind :=
  match p.type with
  | .scalar kind => some kind
  | _ => none

/-- Whether a property is a relation. -/
def isRelation (p : Property) : Bool :=
  p.target.isSome

/-- Whether a property is a relation to many entities. -/
def isToMany (p : Property) : Bool :=
  p.isRelation && p.isList

/-- Whether answers show a property. -/
def isReadable (p : Property) : Bool :=
  p.visibility != .writeOnly

/-- Whether inputs may set a property. -/
def isWritable (p : Property) : Bool :=
  p.visibility != .readOnly && !p.computed

/-- Whether filters and orders may name a property. -/
def isQueryable (p : Property) : Bool :=
  !p.computed && p.isReadable && (p.isRelation || !p.isList)

end Property

end EntityGraph
