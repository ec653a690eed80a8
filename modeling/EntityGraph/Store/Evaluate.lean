import EntityGraph.Store.Frame
import EntityGraph.Store.Pattern

/-!
# Conditions on rows

What a condition says of a row. Conditions in a list are tested in order, and the first that decides
ends the test, so that a fault in a later one stays unnoticed.
-/

namespace EntityGraph

namespace Store

mutual

/-- Whether a row meets a condition. -/
def test (s : Store) (schema : List Column) (row : Row) : Condition → Except StoreFailure Bool
  | .all cs => testAll s schema row cs
  | .any cs => testAny s schema row cs
  | .not c => do return !(← test s schema row c)
  | .compare column op operand => do
    let d ← row.get schema column
    d.satisfies op operand
  | .oneOf column operands => do
    let d ← row.get schema column
    return operands.any d.equals
  | .noneOf column operands => do
    let d ← row.get schema column
    return !d.isNull && !operands.any d.equals
  | .isNull column => do
    let d ← row.get schema column
    return d.isNull
  | .isNotNull column => do
    let d ← row.get schema column
    return !d.isNull
  | .like column pattern negated => do
    match ← row.get schema column with
    | .text t => return isLike t pattern != negated
    | _ => return false
  | .date column op operand => do
    match ← row.get schema column, operand with
    | .timestamp l, .timestamp r => op.holds (some (l.date.compare r.date))
    | _, _ => return false
  | .existsRow table joins inner outer filter => do
    let key ← row.get schema outer
    let f ← s.frame table joins
    f.rows.anyM fun r => do
      let d ← r.get f.schema inner
      if ← d.satisfies .eq key then test s f.schema r filter else return false

/-- Whether a row meets every condition of a list. -/
def testAll (s : Store) (schema : List Column) (row : Row) :
    List Condition → Except StoreFailure Bool
  | [] => .ok true
  | c :: rest => do if ← test s schema row c then testAll s schema row rest else return false

/-- Whether a row meets some condition of a list. -/
def testAny (s : Store) (schema : List Column) (row : Row) :
    List Condition → Except StoreFailure Bool
  | [] => .ok false
  | c :: rest => do if ← test s schema row c then return true else testAny s schema row rest

end

end Store

end EntityGraph
