import EntityGraph.Sql.Datum

/-!
# Columns, joins and conditions

The parts of a statement which say where it looks: columns, joins of tables, and the conditions that
rows have to meet. `Condition.write` and its kin give the texts.
-/

namespace EntityGraph

/-- A column, qualified by a table or not. -/
structure Column where
  table : Option String
  name : String
  deriving DecidableEq, Inhabited

/-- The column `name` of the table `table`. -/
def Column.of (table name : String) : Column := ⟨some table, name⟩

/-- A column of whichever table has it. -/
def Column.named (name : String) : Column := ⟨none, name⟩

/-- How a statement writes a column. -/
def Column.write (c : Column) : String :=
  match c.table with
  | some table => table ++ "." ++ c.name
  | none => c.name

/-- A comparison operator; the database knows six. -/
inductive Comparison where
  | eq
  | ne
  | lt
  | le
  | gt
  | ge
  | unknown (symbol : String)
  deriving DecidableEq

/-- The symbol of a comparison operator. -/
def Comparison.symbol : Comparison → String
  | eq => "="
  | ne => "!="
  | lt => "<"
  | le => "<="
  | gt => ">"
  | ge => ">="
  | unknown s => s

/-- The comparison operator written with a symbol. -/
def Comparison.ofSymbol (s : String) : Comparison :=
  if s = "=" then eq
  else if s = "!=" then ne
  else if s = "<" then lt
  else if s = "<=" then le
  else if s = ">" then gt
  else if s = ">=" then ge
  else unknown s

/-- A join with the rows of a table for which two columns compare. -/
structure Join where
  table : String
  lhs : Column
  op : Comparison
  rhs : Column
  deriving DecidableEq

/-- How a statement writes a join. -/
def Join.write (j : Join) : String :=
  s!"JOIN {j.table} ON {j.lhs.write} {j.op.symbol} {j.rhs.write}"

/-- A condition on a row. -/
inductive Condition where
  /-- Every condition of the list holds. -/
  | all (conditions : List Condition)
  /-- Some condition of the list holds. -/
  | any (conditions : List Condition)
  /-- The condition does not hold. -/
  | not (condition : Condition)
  /-- The datum in a column compares with a given one. -/
  | compare (column : Column) (op : Comparison) (operand : Datum)
  /-- The datum in a column equals one of a list. -/
  | oneOf (column : Column) (operands : List Datum)
  /-- The datum in a column is not null and equals none of a list. -/
  | noneOf (column : Column) (operands : List Datum)
  | isNull (column : Column)
  | isNotNull (column : Column)
  /-- The text in a column matches a pattern, or does not if `negated`. -/
  | like (column : Column) (pattern : String) (negated : Bool)
  /-- The day of the timestamp in a column compares with that of a given one. -/
  | date (column : Column) (op : Comparison) (operand : Datum)
  /-- Some row of a table with its joins has in the column `inner` what this row has in the column
  `outer`, and meets a condition. -/
  | existsRow (table : String) (joins : List Join) (inner outer : Column) (filter : Condition)
  deriving Inhabited

namespace Condition

/-- The condition that all of a list hold; of a single condition, that condition. -/
def conjunction : List Condition → Condition
  | [c] => c
  | cs => all cs

/-- The condition that some of a list hold; of a single condition, that condition. -/
def disjunction : List Condition → Condition
  | [c] => c
  | cs => any cs

/-- Whether a condition is the empty conjunction, which every row meets. -/
def isTrivial : Condition → Bool
  | all [] => true
  | _ => false

mutual

/-- How a statement writes a condition. -/
def write : Condition → String
  | all cs => if cs.isEmpty then "TRUE" else Datum.parenthesised (" AND ".intercalate (writeAll cs))
  | any cs => if cs.isEmpty then "FALSE" else Datum.parenthesised (" OR ".intercalate (writeAll cs))
  | not c => "NOT " ++ write c
  | compare column op operand => s!"{column.write} {op.symbol} {operand.write}"
  | oneOf column operands => s!"{column.write} IN {Datum.writeList operands}"
  | noneOf column operands => s!"{column.write} NOT IN {Datum.writeList operands}"
  | isNull column => s!"{column.write} IS NULL"
  | isNotNull column => s!"{column.write} IS NOT NULL"
  | like column pattern negated =>
    column.write ++ (if negated then " NOT LIKE " else " LIKE ") ++ Datum.quote pattern
  | date column op operand => s!"DATE({column.write}) {op.symbol} DATE({operand.write})"
  | existsRow table joins inner outer filter =>
    let joined := String.join (joins.map fun j => " " ++ j.write)
    let rest := if filter.isTrivial then "" else " AND " ++ write filter
    s!"EXISTS (SELECT 1 FROM {table}{joined} WHERE {inner.write} = {outer.write}{rest})"

/-- How a statement writes each condition of a list. -/
def writeAll : List Condition → List String
  | [] => []
  | c :: rest => write c :: writeAll rest

end

end Condition

end EntityGraph
