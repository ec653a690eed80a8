import EntityGraph.Filter.Parse
import EntityGraph.Model.Convert

/-!
# Conditions of filters

A filter on a model becomes a condition on the rows of its table. A filter on a relation becomes a
condition that some row of the target's table is linked to this row; the number of relations on a
branch is limited. Equal filters in one list are compiled once.
-/

namespace EntityGraph

namespace FilterExpr

/-- The condition that the datum of a column compares with an operand. -/
def predicateCondition (column : Column) (op : FilterOperator) (operand : Datum) :
    Except Error Condition :=
  match operand with
  | .null => match op with
    | .eq => .ok (.isNull column)
    | .ne => .ok (.isNotNull column)
    | _ => .error (.badFilter (.needsValue op))
  | .list operands => match op with
    | .isIn => .ok (.oneOf column operands)
    | .notIn => .ok (.noneOf column operands)
    | _ => .error (.badFilter (.refusesList op))
  | datum => match op with
    | .isIn => .error (.badFilter (.needsList op))
    | .notIn => .error (.badFilter (.needsList op))
    | .like => match datum with
      | .text pattern => .ok (.like column pattern false)
      | _ => .error (.badFilter (.needsString op))
    | .nlike => match datum with
      | .text pattern => .ok (.like column pattern true)
      | _ => .error (.badFilter (.needsString op))
    | .date => match datum with
      | .timestamp _ => .ok (.date column op.comparison datum)
      | _ => .error (.badFilter (.needsDate op))
    | .ndate => match datum with
      | .timestamp _ => .ok (.date column op.comparison datum)
      | _ => .error (.badFilter (.needsDate op))
    | _ => .ok (.compare column op.comparison datum)

/-- The condition of a comparison on a property of a model. -/
def compilePredicate (c : Catalog) (model : ModelId) (table property : String)
    (op : FilterOperator) (operand : Literal) : Except Error Condition := do
  let p ← c.property model property
  let kind ← p.scalarKind.elim (.error (.badFilter (.notAScalar property))) .ok
  let datum ← Datum.ofLiteral kind operand
  predicateCondition (propertyColumn table property) op datum

/-- The condition that some target of a relation meets a condition. -/
def linked (r : Relation) (filter : Condition) : Condition :=
  let ownerId := idColumn r.ownerTable
  match r.link with
  | .belongsTo key =>
    .existsRow r.targetTable [] (idColumn r.targetTable) (Column.of r.ownerTable key) filter
  | .hasOne key => .existsRow r.targetTable [] (Column.of r.targetTable key) ownerId filter
  | .hasMany key => .existsRow r.targetTable [] (Column.of r.targetTable key) ownerId filter
  | .belongsToMany pivot ownerKey relatedKey =>
    let join := Join.mk pivot (Column.of pivot relatedKey) .eq (idColumn r.targetTable)
    .existsRow r.targetTable [join] (Column.of pivot ownerKey) ownerId filter

/-- The condition of alternatives, none for the empty list. -/
def alternativesCondition : List Condition → List Condition
  | [] => []
  | cs => [Condition.disjunction cs]

mutual

/-- The condition of a filter on a model below `depth` relations. -/
def compileAt (c : Catalog) (maxDepth : Nat) (model : ModelId) (table : String) (depth : Nat) :
    FilterExpr → Except Error Condition
  | mk fields conjuncts alternatives none => do
    let fieldConditions ← compileFields c maxDepth model table depth fields
    let all ← compileAll c maxDepth model table depth [] conjuncts
    let any ← compileAll c maxDepth model table depth [] alternatives
    return Condition.conjunction (fieldConditions ++ all ++ alternativesCondition any)
  | mk fields conjuncts alternatives (some negated) => do
    let fieldConditions ← compileFields c maxDepth model table depth fields
    let all ← compileAll c maxDepth model table depth [] conjuncts
    let any ← compileAll c maxDepth model table depth [] alternatives
    let not ← compileAt c maxDepth model table depth negated
    return Condition.conjunction (fieldConditions ++ all ++ alternativesCondition any ++ [.not not])

/-- The conditions of filters on a model, leaving out those equal to an earlier one. -/
def compileAll (c : Catalog) (maxDepth : Nat) (model : ModelId) (table : String) (depth : Nat)
    (earlier : List FilterExpr) : List FilterExpr → Except Error (List Condition)
  | [] => .ok []
  | f :: rest => do
    if earlier.any (·.same f) then compileAll c maxDepth model table depth earlier rest
    else
      let condition ← compileAt c maxDepth model table depth f
      let conditions ← compileAll c maxDepth model table depth (earlier ++ [f]) rest
      return condition :: conditions

/-- The condition of a filter on a property of a model. -/
def compileField (c : Catalog) (maxDepth : Nat) (model : ModelId) (table : String) (depth : Nat) :
    FieldFilter → Except Error Condition
  | .predicate property op operand => compilePredicate c model table property op operand
  | .relation property _ filter => do
    if maxDepth < depth + 1 then .error (.filterTooDeep (depth + 1))
    else
      let r ← c.relation model property
      let inner ← compileAt c maxDepth r.target r.targetTable (depth + 1) filter
      return linked r inner

/-- The conditions of filters on properties of a model. -/
def compileFields (c : Catalog) (maxDepth : Nat) (model : ModelId) (table : String) (depth : Nat) :
    List FieldFilter → Except Error (List Condition)
  | [] => .ok []
  | f :: rest => do
    let condition ← compileField c maxDepth model table depth f
    let conditions ← compileFields c maxDepth model table depth rest
    return condition :: conditions

end

/-- The condition of a filter on the rows of a model's table. -/
def compile (c : Catalog) (maxDepth : Nat) (model : ModelId) (f : FilterExpr) :
    Except Error Condition := do
  let table ← c.table model
  f.compileAt c maxDepth model table 0

end FilterExpr

/-- A query on a model's table, restricted by a filter. -/
def Query.restrict (c : Catalog) (maxDepth : Nat) (model : ModelId) (f : FilterExpr) (q : Query) :
    Except Error Query := do
  return q.filter (← f.compile c maxDepth model)

end EntityGraph
