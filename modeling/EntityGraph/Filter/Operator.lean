import EntityGraph.Model.Property
import EntityGraph.Sql.Condition

/-!
# Operators of filters

The comparisons that a filter can make with the datum of a property.
-/

namespace EntityGraph

/-- A comparison in a filter. -/
inductive FilterOperator where
  | eq
  | ne
  | lt
  | gt
  | lte
  | gte
  | like
  | nlike
  | isIn
  | notIn
  | date
  | ndate
  deriving DecidableEq

namespace FilterOperator

/-- All operators, in the order in which inputs list them. -/
def all : List FilterOperator :=
  [eq, ne, lt, gt, lte, gte, like, nlike, isIn, notIn, date, ndate]

/-- The name of an operator. -/
def name : FilterOperator → String
  | eq => "eq"
  | ne => "ne"
  | lt => "lt"
  | gt => "gt"
  | lte => "lte"
  | gte => "gte"
  | like => "like"
  | nlike => "nlike"
  | isIn => "in"
  | notIn => "nin"
  | date => "date"
  | ndate => "ndate"

/-- The operator of a name. -/
def ofName? (s : String) : Option FilterOperator :=
  all.find? (·.name == s)

/-- Whether the operand is a list. -/
def takesList : FilterOperator → Bool
  | isIn => true
  | notIn => true
  | _ => false

/-- The comparison of data that an operator on a single datum makes. -/
def comparison : FilterOperator → Comparison
  | eq => .eq
  | date => .eq
  | ne => .ne
  | ndate => .ne
  | lt => .lt
  | gt => .gt
  | lte => .le
  | gte => .ge
  | like => .unknown "LIKE"
  | nlike => .unknown "NOT LIKE"
  | isIn => .unknown "IN"
  | notIn => .unknown "NOT IN"

/-- The operators that are offered for a scalar kind. -/
def offered (kind : ScalarKind) : List FilterOperator :=
  match kind with
  | .string => [eq, ne, like, nlike, isIn, notIn]
  | .int => [eq, ne, lt, gt, lte, gte, isIn, notIn]
  | .float => [eq, ne, lt, gt, lte, gte, isIn, notIn]
  | .boolean => [eq, ne]
  | .dateTime => [eq, ne, lt, gt, lte, gte, date, ndate]

end FilterOperator

end EntityGraph
