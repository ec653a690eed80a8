import EntityGraph.Store.Table

/-!
# Joined rows

A frame is a list of qualified columns with rows of data for them: a table, or tables joined one
after the other. A column without a table is the first of its name.
-/

namespace EntityGraph

/-- Rows with their columns. -/
structure Frame where
  schema : List Column
  rows : List Row

/-- Whether a reference to a column means a column of a schema. -/
def Column.refersTo (c schemaColumn : Column) : Bool :=
  if c.table.isSome then c == schemaColumn else c.name == schemaColumn.name

/-- The datum of a row in a column. -/
def Row.get (schema : List Column) (row : Row) (c : Column) : Except StoreFailure Datum :=
  match schema.findIdx? c.refersTo with
  | none => .error (.noColumn c)
  | some i => match row[i]? with
    | none => .error (.shortRow c)
    | some d => .ok d

/-- Whether an operator holds of two data with the given order. -/
def Comparison.holds (op : Comparison) (order : Option Ordering) : Except StoreFailure Bool :=
  match op with
  | .eq => .ok (order == some .eq)
  | .ne => .ok (order != some .eq)
  | .lt => .ok (order == some .lt)
  | .le => .ok (order == some .lt || order == some .eq)
  | .gt => .ok (order == some .gt)
  | .ge => .ok (order == some .gt || order == some .eq)
  | .unknown symbol => .error (.unsupportedOperator symbol)

/-- Whether two data compare; null compares with nothing. -/
def Datum.satisfies (l : Datum) (op : Comparison) (r : Datum) : Except StoreFailure Bool :=
  if l.isNull || r.isNull then .ok false else op.holds (l.compare? r)

/-- Whether two data are equal; null equals nothing. -/
def Datum.equals (l r : Datum) : Bool :=
  !l.isNull && !r.isNull && l.compare? r == some .eq

/-- Whether a row of joined tables meets the condition of the join. -/
def Join.admits (j : Join) (schema : List Column) (row : Row) : Except StoreFailure Bool := do
  let l ← row.get schema j.lhs
  let r ← row.get schema j.rhs
  l.satisfies j.op r

namespace Frame

/-- The rows of a table. -/
def ofTable (t : Table) : Frame :=
  ⟨t.columns, t.rows⟩

/-- The rows of a frame joined with those of a table. -/
def join (f : Frame) (j : Join) (t : Table) : Except StoreFailure Frame := do
  let schema := f.schema ++ t.columns
  let pairs := f.rows.flatMap fun l => t.rows.map fun r => l ++ r
  let rows ← pairs.filterM (j.admits schema)
  return ⟨schema, rows⟩

end Frame

namespace Store

/-- Join further tables to a frame. -/
def joinAll (s : Store) (f : Frame) : List Join → Except StoreFailure Frame
  | [] => .ok f
  | j :: rest => do
    let t ← s.table j.table
    let f ← f.join j t
    s.joinAll f rest

/-- The rows of a table with its joins. -/
def frame (s : Store) (table : String) (joins : List Join) : Except StoreFailure Frame := do
  let t ← s.table table
  s.joinAll (.ofTable t) joins

end Store

end EntityGraph
