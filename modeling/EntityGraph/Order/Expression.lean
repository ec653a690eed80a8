import EntityGraph.Filter.Expression
import EntityGraph.Sql.Query

/-!
# Order expressions

An order names a scalar property with a direction, at the end of a chain of relations to one entity.
-/

namespace EntityGraph

/-- An order on the entities of a model. -/
inductive OrderExpr where
  | field (property : String) (direction : Direction)
  | relation (property : String) (target : ModelId) (order : OrderExpr)
  deriving DecidableEq

namespace OrderExpr

/-- The properties that an order on a model looks at. -/
def references : OrderExpr → ModelId → List Reference
  | field property _, model => [⟨model, property⟩]
  | relation property target order, model => ⟨model, property⟩ :: order.references target

end OrderExpr

end EntityGraph
