import EntityGraph.Sql.Condition

/-!
# Failures of the database

What can be wrong with a statement, and how the database words it.
-/

namespace EntityGraph

/-- A reason for which the database refuses a statement. -/
inductive StoreFailure where
  | noTable (table : String)
  | noColumn (column : Column)
  /-- The table that is written to lacks a column. -/
  | unknownColumn (table column : String)
  | unsupportedOperator (symbol : String)
  /-- A row to insert has not one datum for each listed column. -/
  | wrongWidth (table : String) (found expected : Nat)
  | tooManyRows (expected : Nat)
  /-- A row is asked for a column beyond its last. -/
  | noColumnAt (index : Nat)
  /-- The largest key is taken, so no key can follow. -/
  | keysExhausted (table : String)
  /-- A stored row ends before a column of its schema. -/
  | shortRow (column : Column)

namespace StoreFailure

/-- The reason in words. -/
def reason : StoreFailure → String
  | noTable table => s!"no such table {table}"
  | noColumn column => s!"no such column {column.write}"
  | unknownColumn table column => s!"table {table} has no column {column}"
  | unsupportedOperator symbol => s!"unsupported op {symbol}"
  | wrongWidth table found expected =>
    s!"incorrect width for table {table} (found {found}, expected {expected})"
  | tooManyRows expected => s!"query result has more rows than the expected {expected}"
  | noColumnAt index => s!"column index {index} out of range"
  | keysExhausted table => s!"table {table} has no further key"
  | shortRow column => s!"row ends before column {column.write}"

/-- The message of the database. -/
def message (f : StoreFailure) : String :=
  "mock DB error: " ++ f.reason

end StoreFailure

end EntityGraph
