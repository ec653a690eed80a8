import EntityGraph.Store.Select

/-!
# Changing a database

Creation of tables, insertion, update and deletion. Each answers the database afterwards beside the
result, since an insertion that is refused halfway leaves the rows before.
-/

namespace EntityGraph

namespace Store

/-- Run an insertion; it answers the generated keys. -/
def insert (s : Store) (i : Insertion) : Store × Except StoreFailure (List Int64) :=
  match s.table i.table with
  | .error failure => (s, .error failure)
  | .ok t =>
    let (t, keys) := t.appendAll i.columns i.rows
    (s.replace t, keys)

/-- Create a table and give it rows, which list the data of the columns that are not serial. -/
def createWith (s : Store) (name : String) (schema : List ColumnSpec) (rows : List (List Datum)) :
    Store × Except StoreFailure Unit :=
  let (s, keys) := (s.create name schema).insert ⟨name, Table.givenColumns schema, rows⟩
  (s, keys.map fun _ => ())

/-- The rows of a table, each with whether it meets every condition. -/
def marked (s : Store) (table : String) (filters : List Condition) :
    Except StoreFailure (List (Bool × Row)) := do
  let t ← s.table table
  t.rows.mapM fun row => do return (← s.testAll t.columns row filters, row)

/-- The places of the columns that an update sets. -/
def targets (t : Table) (assignments : List (String × Datum)) :
    Except StoreFailure (List (Nat × Datum)) :=
  assignments.mapM fun (name, d) =>
    match t.schema.findIdx? (·.name == name) with
    | some i => .ok (i, d)
    | none => .error (.unknownColumn t.name name)

/-- A row with data set at places. -/
def setCells (row : Row) (cells : List (Nat × Datum)) : Row :=
  cells.foldl (fun row (i, d) => row.set i d) row

/-- Run an update; it answers the number of affected rows. An update that sets nothing affects no
row. -/
def update (s : Store) (u : Update) : Except StoreFailure (Store × Nat) :=
  if u.assignments.isEmpty then .ok (s, 0)
  else do
    let rows ← s.marked u.table u.filters
    let t ← s.table u.table
    let cells ← targets t u.assignments
    let changed := rows.map fun (hit, row) => if hit then setCells row cells else row
    return (s.replace { t with rows := changed }, rows.countP (·.1))

/-- Run a deletion; it answers the number of deleted rows. -/
def delete (s : Store) (d : Deletion) : Except StoreFailure (Store × Nat) := do
  let rows ← s.marked d.table d.filters
  let t ← s.table d.table
  let kept := (rows.filter (!·.1)).map (·.2)
  return (s.replace { t with rows := kept }, rows.countP (·.1))

end Store

end EntityGraph
