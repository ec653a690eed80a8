import EntityGraph.Filter.Operator
import EntityGraph.Literal
import EntityGraph.Store.Failure
import EntityGraph.Text.Quoted

/-!
# Errors

What can be wrong with a model, a request or an access to the database. Each error has a code that
programs can tell apart and a message for readers.
-/

namespace EntityGraph

/-- What can be wrong with a line of annotations. -/
inductive AnnotationFault where
  | unknownTag
  | missingType
  | missingName
  | unionType
  | unterminatedList
  | missingElement
  | unknownType (element : String)
  | paginatedWithoutList
  | duplicate
  | cardinality

/-- The fault in words. -/
def AnnotationFault.reason : AnnotationFault → String
  | unknownTag => "unknown annotation"
  | missingType => "missing type"
  | missingName => "expected \x60$name\x60 after the type"
  | unionType => "union types are not supported"
  | unterminatedList => "unterminated list type"
  | missingElement => "missing element type"
  | unknownType element => s!"type {element} is neither a scalar nor a known model"
  | paginatedWithoutList => "@paginate requires a list of models"
  | duplicate => "duplicate property"
  | cardinality => "relation cardinality does not match the property type"

/-- What can be wrong with a filter. -/
inductive FilterFault where
  | notAnObject
  | notFilterable (property : String)
  | operatorsNotAnObject (property : String)
  | notOneOperator
  | unknownOperator (name : String)
  | notAScalar (property : String)
  | needsValue (op : FilterOperator)
  | refusesList (op : FilterOperator)
  | needsList (op : FilterOperator)
  | needsString (op : FilterOperator)
  | needsDate (op : FilterOperator)

/-- The fault in words. -/
def FilterFault.reason : FilterFault → String
  | notAnObject => "filter must be an object"
  | notFilterable property => s!"property {property} cannot be filtered"
  | operatorsNotAnObject property => s!"filter on {property} must be an object"
  | notOneOperator => "Filter must have exactly one operator."
  | unknownOperator name => s!"unknown filter operator {name}"
  | notAScalar property => s!"property {property} is not a scalar"
  | needsValue op => s!"operator {op.name} requires a value"
  | refusesList op => s!"operator {op.name} does not accept a list"
  | needsList op => s!"operator {op.name} requires a list"
  | needsString op => s!"operator {op.name} requires a string"
  | needsDate op => s!"operator {op.name} requires a date"

/-- What can be wrong with another argument of a request. -/
inductive InputFault where
  | wrongKind (kind : ScalarKind) (found : Literal)
  | notARelation (model : ModelId) (property : String)
  | orderNotAnObject
  | notOrderable (property : String)
  | orderByMany (property : String)
  | noDirection (property : String)
  | negativeCount (argument : String)
  | notACount (argument : String) (found : Literal)
  | storedOnOwner (property : String)
  | missingArgument (argument : String)
  | invalidId (found : Literal)
  | inputNotAnObject (model : ModelId)
  | notWritable (model : ModelId) (property : String)
  | invalidKey (property : String) (found : Literal)

/-- The fault in words. -/
def InputFault.reason : InputFault → String
  | wrongKind kind found => s!"expected {kind.name}, found {found.text}"
  | notARelation model property => s!"{model.path}.{property} is not a relation"
  | orderNotAnObject => "order must be an object"
  | notOrderable property => s!"property {property} cannot be ordered"
  | orderByMany property => s!"cannot order by the to-many relation {property}"
  | noDirection property => s!"order on {property} must give a direction"
  | negativeCount argument => s!"{argument} must be a non-negative integer"
  | notACount argument found => s!"{argument} must be an integer, found {found.text}"
  | storedOnOwner property => s!"{property} is stored on the owner and cannot be synced"
  | missingArgument argument => s!"missing {argument}"
  | invalidId found => s!"invalid id {found.text}"
  | inputNotAnObject model => s!"input for {model.path} must be an object"
  | notWritable model property => s!"{model.path}.{property} is not writable"
  | invalidKey property found => s!"invalid key {found.text} for {property}"

/-- What can go wrong in the database. -/
inductive SqlFault where
  | store (failure : StoreFailure)
  | noKey (table : String)
  | missingAfterInsert (model : ModelId) (id : Int64)

/-- The fault in words. -/
def SqlFault.reason : SqlFault → String
  | store failure => failure.message
  | noKey table => s!"insert into {table} generated no key"
  | missingAfterInsert model id => s!"{model.path} {id.toInt} is missing after insert"

/-- An error of building an interface or answering a request. -/
inductive Error where
  /-- The policy denied an access; the message is in the language of the interface. -/
  | denied (message : String)
  | metadata (model : ModelId) (line : String) (fault : AnnotationFault)
  | unsupportedType (model : ModelId) (property : String) (type : String)
  | filterTooDeep (depth : Nat)
  | orderTooDeep (depth : Nat)
  | orderFieldCount (count : Nat)
  | badDirection (direction : String)
  | orderingUnsupported
  | filteringUnsupported
  | badFilter (fault : FilterFault)
  | badInput (fault : InputFault)
  | unknownModel (model : ModelId)
  | unknownProperty (model : ModelId) (property : String)
  /-- The interface as a whole is not well formed. -/
  | badSchema (reason : String)
  | sql (fault : SqlFault)

namespace Error

/-- The error of a refused statement. -/
def ofStore (failure : StoreFailure) : Error :=
  sql (.store failure)

/-- The code of an error. -/
def code : Error → String
  | denied _ => "UNAUTHORIZED"
  | metadata .. => "METADATA_PARSE"
  | unsupportedType .. => "UNSUPPORTED_TYPE"
  | filterTooDeep _ => "NESTED_FILTER_DEPTH_EXCEEDED"
  | orderTooDeep _ => "NESTED_ORDER_DEPTH_EXCEEDED"
  | orderFieldCount _ => "ORDER_FIELD_COUNT"
  | badDirection _ => "INVALID_ORDER_DIRECTION"
  | orderingUnsupported => "ORDERING_UNSUPPORTED"
  | filteringUnsupported => "FILTERING_UNSUPPORTED"
  | badFilter _ => "INVALID_FILTER"
  | badInput _ => "INVALID_INPUT"
  | unknownModel _ => "UNKNOWN_MODEL"
  | unknownProperty .. => "UNKNOWN_PROPERTY"
  | badSchema _ => "SCHEMA"
  | sql _ => "SQL"

/-- The message of an error. -/
def message : Error → String
  | denied message => message
  | metadata model line fault =>
    s!"error parsing metadata of {model.path} at \x60{line}\x60: {fault.reason}"
  | unsupportedType model property type =>
    s!"property {model.path}.{property} has unsupported type {type}"
  | filterTooDeep depth => s!"filter nests relations {depth} levels deep, at most 1 is allowed"
  | orderTooDeep depth => s!"order nests relations {depth} levels deep, at most 1 is allowed"
  | orderFieldCount count => s!"order must name exactly one field, found {count}"
  | badDirection direction =>
    s!"invalid order direction {Text.quoted direction}, expected asc or desc"
  | orderingUnsupported => "ordering is not supported on a materialized collection"
  | filteringUnsupported => "filtering is not supported on a materialized collection"
  | badFilter fault => fault.reason
  | badInput fault => s!"invalid input: {fault.reason}"
  | unknownModel model => s!"unknown model {model.path}"
  | unknownProperty model property => s!"model {model.path} has no property {property}"
  | badSchema reason => s!"invalid schema: {reason}"
  | sql fault => fault.reason

/-- Whether an error is a denial by the policy. -/
def isDenial : Error → Bool
  | denied _ => true
  | _ => false

end Error

end EntityGraph
