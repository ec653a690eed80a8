import EntityGraph.Store.Evaluate

/-!
# Running a selection

The rows of the joined tables that meet every condition, sorted, cut to the window and projected.
-/

namespace EntityGraph

/-- The order of a sorted column: null first, and data that do not compare tie. -/
def Datum.sortCompare (a b : Datum) : Ordering :=
  match a.isNull, b.isNull with
  | true, true => .eq
  | true, false => .lt
  | false, true => .gt
  | false, false => (a.compare? b).getD .eq

/-- An order in a direction. -/
def Direction.orient : Direction → Ordering → Ordering
  | .asc, o => o
  | .desc, o => o.swap

namespace Select

/-- The order of two lists of sort keys: the first term that tells them apart decides. -/
def compareKeys : List OrderTerm → List Datum → List Datum → Ordering
  | term :: terms, a :: as, b :: bs =>
    (term.direction.orient (a.sortCompare b)).then (compareKeys terms as bs)
  | _, _, _ => .eq

/-- Insert an item into a list with the last item first, before all that it does not precede. -/
def insertLast {α : Type} (less : α → α → Bool) (a : α) : List α → List α
  | [] => [a]
  | b :: rest => if less a b then b :: insertLast less a rest else a :: b :: rest

/-- A stable sort: every item moves left past the sorted items that it precedes. -/
def stableSort {α : Type} (less : α → α → Bool) (items : List α) : List α :=
  (items.foldl (fun sorted a => insertLast less a sorted) []).reverse

/-- Add the columns of a projection to a record. -/
def project (schema : List Column) (row : Row) (record : Record) :
    Projection → Except StoreFailure Record
  | .all => .ok <| (schema.zip row).foldl (fun r (c, d) => r.setNew c.name d) record
  | .allFrom table =>
    .ok <| (schema.zip row).foldl
      (fun r (c, d) => if c.table = some table then r.set c.name d else r) record
  | .column c => do
    let d ← row.get schema c
    return record.set c.name d

/-- The record of the selected columns of a row. -/
def recordOf (columns : List Projection) (schema : List Column) (row : Row) :
    Except StoreFailure Record :=
  columns.foldlM (project schema row) Dict.empty

/-- The window of a list: items are skipped, then at most so many are taken. -/
def window {α : Type} (offset limit : Option Nat) (items : List α) : List α :=
  let rest := items.drop (offset.getD 0)
  match limit with
  | some n => rest.take n
  | none => rest

/-- A row with its sort keys. -/
def keyed (order : List OrderTerm) (schema : List Column) (row : Row) :
    Except StoreFailure (List Datum × Row) := do
  let keys ← order.mapM fun term => row.get schema term.column
  return (keys, row)

end Select

namespace Store

/-- The rows that a selection keeps, in order, before projection. -/
def selectRows (s : Store) (q : Select) : Except StoreFailure Frame := do
  let f ← s.frame q.table q.joins
  let rows ← f.rows.filterM fun row => s.testAll f.schema row q.filters
  let keyed ← rows.mapM (Select.keyed q.order f.schema)
  let sorted := Select.stableSort (fun a b => Select.compareKeys q.order a.1 b.1 == .lt) keyed
  return ⟨f.schema, Select.window q.offset q.limit (sorted.map (·.2))⟩

/-- The records that a selection produces. -/
def select (s : Store) (q : Select) : Except StoreFailure (List Record) := do
  let f ← s.selectRows q
  f.rows.mapM (Select.recordOf q.columns f.schema)

/-- The number of records that a selection produces. -/
def count (s : Store) (q : Select) : Except StoreFailure Nat :=
  (s.select q).map List.length

/-- The record of a selection that produces at most one. -/
def selectOne (s : Store) (q : Select) : Except StoreFailure (Option Record) := do
  match ← s.select q with
  | [] => return none
  | [r] => return some r
  | _ => .error (.tooManyRows 1)

/-- All rows of a table as records. -/
def dump (s : Store) (table : String) : Except StoreFailure (List Record) := do
  let t ← s.table table
  return t.rows.map t.record

end Store

/-- The datum of a produced row at a position: its columns stand in the order of their names. -/
def Record.column (r : Record) (i : Nat) : Except StoreFailure Datum :=
  match r.values[i]? with
  | some d => .ok d
  | none => .error (.noColumnAt i)

end EntityGraph
