import EntityGraph.Filter.Operator
import EntityGraph.Literal

/-!
# Filter expressions

A filter on the entities of a model: conditions on properties, further filters that all hold,
filters of which some holds, and a filter that does not hold.

* `FilterExpr.same` is equality of filters;
* `FilterExpr.isEmpty` tells the filters that restrict nothing by their form;
* `FilterExpr.references` lists the properties that a filter looks at.
-/

namespace EntityGraph

mutual

/-- A filter on the entities of a model. -/
inductive FilterExpr where
  | mk (fields : List FieldFilter) (conjuncts alternatives : List FilterExpr)
    (negated : Option FilterExpr)

/-- A filter on one property. -/
inductive FieldFilter where
  /-- The datum of the property compares with an operand. -/
  | predicate (property : String) (op : FilterOperator) (operand : Literal)
  /-- Some target of the relation meets a filter. -/
  | relation (property : String) (target : ModelId) (filter : FilterExpr)

end

/-- A property with the model that has it. -/
structure Reference where
  model : ModelId
  property : String
  deriving DecidableEq

namespace FilterExpr

/-- The filter that restricts nothing. -/
def empty : FilterExpr := mk [] [] [] none

instance : Inhabited FilterExpr := ⟨empty⟩

/-- The conditions on properties, in the order of the argument. -/
def fields : FilterExpr → List FieldFilter
  | mk fields _ _ _ => fields

/-- The filters that all hold. -/
def conjuncts : FilterExpr → List FilterExpr
  | mk _ conjuncts _ _ => conjuncts

/-- The filters of which some holds. -/
def alternatives : FilterExpr → List FilterExpr
  | mk _ _ alternatives _ => alternatives

/-- The filter that does not hold. -/
def negated : FilterExpr → Option FilterExpr
  | mk _ _ _ negated => negated

mutual

/-- Equality of filters. -/
def same : FilterExpr → FilterExpr → Bool
  | mk fs as os n, mk gs bs ps m =>
    sameFields fs gs && sameAll as bs && sameAll os ps && sameNegated n m
termination_by structural f => f

/-- Equality of filters that do not hold. -/
def sameNegated : Option FilterExpr → Option FilterExpr → Bool
  | none, none => true
  | some n, some m => same n m
  | _, _ => false
termination_by structural f => f

/-- Equality of lists of filters. -/
def sameAll : List FilterExpr → List FilterExpr → Bool
  | [], [] => true
  | a :: as, b :: bs => same a b && sameAll as bs
  | _, _ => false
termination_by structural f => f

/-- Equality of conditions on a property. -/
def sameField : FieldFilter → FieldFilter → Bool
  | .predicate p op v, .predicate q op' w => p == q && op == op' && v.same w
  | .relation p t f, .relation q u g => p == q && t == u && same f g
  | _, _ => false
termination_by structural f => f

/-- Equality of lists of conditions on properties. -/
def sameFields : List FieldFilter → List FieldFilter → Bool
  | [], [] => true
  | a :: as, b :: bs => sameField a b && sameFields as bs
  | _, _ => false
termination_by structural f => f

end

mutual

/-- Whether a filter has no condition besides empty conjuncts. -/
def isEmpty : FilterExpr → Bool
  | mk fields conjuncts alternatives negated =>
    allEmpty conjuncts && alternatives.isEmpty && negated.isNone && fields.isEmpty

/-- Whether every filter of a list is empty. -/
def allEmpty : List FilterExpr → Bool
  | [] => true
  | f :: rest => isEmpty f && allEmpty rest

end

/-- Add a reference to a list, unless it is there. -/
def addReference (refs : List Reference) (r : Reference) : List Reference :=
  if r ∈ refs then refs else refs ++ [r]

mutual

/-- Add the references of a filter on a model to a list. -/
def collect (model : ModelId) (refs : List Reference) : FilterExpr → List Reference
  | mk fields conjuncts alternatives none =>
    collectAll model (collectAll model (collectFields model refs fields) conjuncts) alternatives
  | mk fields conjuncts alternatives (some n) =>
    collect model
      (collectAll model (collectAll model (collectFields model refs fields) conjuncts) alternatives)
      n

/-- Add the references of filters on a model to a list. -/
def collectAll (model : ModelId) (refs : List Reference) : List FilterExpr → List Reference
  | [] => refs
  | f :: rest => collectAll model (collect model refs f) rest

/-- Add the references of a condition on a property of a model to a list. -/
def collectField (model : ModelId) (refs : List Reference) : FieldFilter → List Reference
  | .predicate property _ _ => addReference refs ⟨model, property⟩
  | .relation property target filter => collect target (addReference refs ⟨model, property⟩) filter

/-- Add the references of conditions on properties of a model to a list. -/
def collectFields (model : ModelId) (refs : List Reference) : List FieldFilter → List Reference
  | [] => refs
  | f :: rest => collectFields model (collectField model refs f) rest

end

/-- The properties that a filter on a model looks at, at any depth, each once. -/
def references (f : FilterExpr) (model : ModelId) : List Reference :=
  f.collect model []

end FilterExpr

end EntityGraph
