import EntityGraph.Model.Property

/-!
# References to types

A field or an argument has a named type, possibly wrapped in lists and in markers that exclude null.
-/

namespace EntityGraph

/-- A reference to a type. -/
inductive TypeRef where
  | named (name : String)
  | nonNull (type : TypeRef)
  | list (item : TypeRef)
  deriving DecidableEq, Inhabited

namespace TypeRef

/-- The type without null; a second marker adds nothing. -/
def required : TypeRef → TypeRef
  | nonNull t => nonNull t
  | t => nonNull t

/-- The type, without null unless it is nullable. -/
def nullable (t : TypeRef) (isNullable : Bool) : TypeRef :=
  if isNullable then t else t.required

/-- The name inside all wrappers. -/
def base : TypeRef → String
  | named name => name
  | nonNull t => t.base
  | list t => t.base

/-- The notation of a type. -/
def text : TypeRef → String
  | named name => name
  | nonNull t => t.text ++ "!"
  | list t => "[" ++ t.text ++ "]"

end TypeRef

namespace ScalarKind

/-- The type of a scalar kind. -/
def typeName : ScalarKind → String
  | int => "Int"
  | float => "Float"
  | boolean => "Boolean"
  | string => "String"
  | dateTime => "DateTime"

/-- The type of filters on a scalar kind. -/
def filterTypeName : ScalarKind → String
  | int => "FilterInteger"
  | float => "FilterFloat"
  | boolean => "FilterBoolean"
  | string => "FilterString"
  | dateTime => "FilterDateTime"

end ScalarKind

end EntityGraph
