import EntityGraph.Filter.Expression
import EntityGraph.Model.Catalog

/-!
# Reading filters

A filter argument is an object. The keys `and`, `or` and `not` combine filters; every other key is a
property of the model, with an operator and its operand for a scalar and a filter for a relation.
Null entries mean nothing.
-/

namespace EntityGraph

namespace FilterExpr

/-- The condition on a scalar property that an object with one operator gives. -/
def parsePredicate (property : String) : Literal → Except Error FieldFilter
  | .object [(name, operand)] => match FilterOperator.ofName? name with
    | some op => .ok (.predicate property op operand)
    | none => .error (.badFilter (.unknownOperator name))
  | .object _ => .error (.badFilter .notOneOperator)
  | _ => .error (.badFilter (.operatorsNotAnObject property))

/-- A property that a filter may name. -/
def filterable (c : Catalog) (model : ModelId) (property : String) : Except Error Property := do
  let p ← c.property model property
  if p.isQueryable then return p else .error (.badFilter (.notFilterable property))

mutual

/-- Read a filter on a model; null is the empty filter. -/
def parse (c : Catalog) (model : ModelId) : Literal → Except Error FilterExpr
  | .null => .ok empty
  | .object entries => parseEntries c model empty entries
  | _ => .error (.badFilter .notAnObject)

/-- Read one filter or a list of filters on a model. -/
def parseMany (c : Catalog) (model : ModelId) : Literal → Except Error (List FilterExpr)
  | .null => .ok []
  | .list items => parseItems c model items
  | .object entries => do return [← parseEntries c model empty entries]
  | _ => .error (.badFilter .notAnObject)

/-- Read each filter of a list. -/
def parseItems (c : Catalog) (model : ModelId) : List Literal → Except Error (List FilterExpr)
  | [] => .ok []
  | item :: rest => do
    let f ← parse c model item
    let fs ← parseItems c model rest
    return f :: fs

/-- Add the entries of an object to a filter on a model. -/
def parseEntries (c : Catalog) (model : ModelId) (f : FilterExpr) :
    List (String × Literal) → Except Error FilterExpr
  | [] => .ok f
  | (key, value) :: rest => do
    if key = "and" then
      let conjuncts ← parseMany c model value
      parseEntries c model (mk f.fields conjuncts f.alternatives f.negated) rest
    else if key = "or" then
      let alternatives ← parseMany c model value
      parseEntries c model (mk f.fields f.conjuncts alternatives f.negated) rest
    else if value.isNull then parseEntries c model f rest
    else if key = "not" then
      let negated ← parse c model value
      parseEntries c model (mk f.fields f.conjuncts f.alternatives (some negated)) rest
    else
      let p ← filterable c model key
      let field ← match p.target with
        | some target => (parse c target value).map (FieldFilter.relation key target)
        | none => parsePredicate key value
      parseEntries c model (mk (f.fields ++ [field]) f.conjuncts f.alternatives f.negated) rest

end

end FilterExpr

end EntityGraph
