/-!
# Abilities

The actions on a model which a caller may be allowed to take.
-/

namespace EntityGraph

/-- An action on a model. -/
inductive Ability where
  | filter
  | filterProperty
  | create
  | delete
  | update
  | viewProperty
  | view
  | viewAny
  deriving DecidableEq

namespace Ability

/-- The name of an ability. -/
def name : Ability → String
  | filter => "filter"
  | filterProperty => "filterProperty"
  | create => "create"
  | delete => "delete"
  | update => "update"
  | viewProperty => "viewProperty"
  | view => "view"
  | viewAny => "viewAny"

/-- All abilities. -/
def all : List Ability :=
  [filter, filterProperty, create, delete, update, viewProperty, view, viewAny]

/-- The ability of a name. -/
def ofName? (s : String) : Option Ability :=
  all.find? (·.name == s)

end Ability

end EntityGraph
