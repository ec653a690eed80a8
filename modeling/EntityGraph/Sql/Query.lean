import EntityGraph.Dict
import EntityGraph.Sql.Condition

/-!
# Queries and statements

A selection names its columns, tables, conditions, order and window. A query is a selection of all
columns of its base table, which is built up step by step and never gains a column by a join.
Insertions, updates and deletions complete the statements.
-/

namespace EntityGraph

/-- A row detached from the database: data by unqualified column name. -/
abbrev Record := Dict Datum

/-- The direction of an order. -/
inductive Direction where
  | asc
  | desc
  deriving DecidableEq

/-- How a statement writes a direction. -/
def Direction.write : Direction → String
  | asc => "ASC"
  | desc => "DESC"

/-- A term of an order. -/
structure OrderTerm where
  column : Column
  direction : Direction
  deriving DecidableEq

/-- How a statement writes a term of an order. -/
def OrderTerm.write (t : OrderTerm) : String :=
  t.column.write ++ " " ++ t.direction.write

/-- A column or a family of columns in a selection. -/
inductive Projection where
  /-- All columns of all tables. -/
  | all
  /-- All columns of one table. -/
  | allFrom (table : String)
  /-- One column. -/
  | column (c : Column)
  deriving DecidableEq

/-- How a statement writes a projection. -/
def Projection.write : Projection → String
  | all => "*"
  | allFrom table => table ++ ".*"
  | column c => c.write

/-- A selection of rows. -/
structure Select where
  columns : List Projection
  table : String
  joins : List Join
  filters : List Condition
  order : List OrderTerm
  limit : Option Nat
  offset : Option Nat

/-- The conditions of a statement, which all have to hold. -/
def writeFilters (filters : List Condition) : String :=
  if filters.isEmpty then "" else " WHERE " ++ " AND ".intercalate (filters.map Condition.write)

/-- The text of a selection. -/
def Select.write (s : Select) : String :=
  let columns := ", ".intercalate (s.columns.map Projection.write)
  let joins := String.join (s.joins.map fun j => " " ++ j.write)
  let order :=
    if s.order.isEmpty then "" else " ORDER BY " ++ ", ".intercalate (s.order.map OrderTerm.write)
  let limit := (s.limit.map fun n => s!" LIMIT {n}").getD ""
  let offset := (s.offset.map fun n => s!" OFFSET {n}").getD ""
  s!"SELECT {columns} FROM {s.table}{joins}{writeFilters s.filters}{order}{limit}{offset}"

/-- A selection of all columns of its base table. -/
structure Query where
  table : String
  joins : List Join
  filters : List Condition
  order : List OrderTerm
  limit : Option Nat
  offset : Option Nat

namespace Query

/-- All rows of a table. -/
def all (table : String) : Query :=
  ⟨table, [], [], [], none, none⟩

/-- The query with a further condition; the trivial condition adds nothing. -/
def filter (q : Query) (c : Condition) : Query :=
  if c.isTrivial then q else { q with filters := q.filters ++ [c] }

/-- The query with a further join, unless it has the same join already. -/
def join (q : Query) (j : Join) : Query :=
  if j ∈ q.joins then q else { q with joins := q.joins ++ [j] }

/-- The query with a further term of its order. -/
def orderBy (q : Query) (column : Column) (direction : Direction) : Query :=
  { q with order := q.order ++ [⟨column, direction⟩] }

/-- The query with a bound on the number of its rows. -/
def withLimit (q : Query) (n : Option Nat) : Query :=
  { q with limit := n }

/-- The query that leaves out rows at the start. -/
def withOffset (q : Query) (n : Option Nat) : Query :=
  { q with offset := n }

/-- The query over all its rows. -/
def withoutWindow (q : Query) : Query :=
  { q with limit := none, offset := none }

/-- The number of joins, conditions and terms of the order. -/
def clauseCount (q : Query) : Nat :=
  q.joins.length + q.filters.length + q.order.length

/-- The query as a selection. -/
def toSelect (q : Query) : Select :=
  ⟨[.allFrom q.table], q.table, q.joins, q.filters, q.order, q.limit, q.offset⟩

/-- The text of a query. -/
def write (q : Query) : String :=
  q.toSelect.write

end Query

/-- An insertion: a list of columns and, for each row, a datum for each of them. -/
structure Insertion where
  table : String
  columns : List String
  rows : List (List Datum)

/-- The text of an insertion. -/
def Insertion.write (i : Insertion) : String :=
  let columns := ", ".intercalate i.columns
  let rows := ", ".intercalate (i.rows.map Datum.writeList)
  s!"INSERT INTO {i.table} ({columns}) VALUES {rows}"

/-- An update: the data to set in the rows that meet every condition. -/
structure Update where
  table : String
  assignments : List (String × Datum)
  filters : List Condition

/-- The text of an update. -/
def Update.write (u : Update) : String :=
  let assignments := ", ".intercalate (u.assignments.map fun (c, d) => c ++ " = " ++ d.write)
  s!"UPDATE {u.table} SET {assignments}{writeFilters u.filters}"

/-- A deletion of the rows that meet every condition. -/
structure Deletion where
  table : String
  filters : List Condition

/-- The text of a deletion. -/
def Deletion.write (d : Deletion) : String :=
  s!"DELETE FROM {d.table}{writeFilters d.filters}"

/-- A statement. -/
inductive Statement where
  | select (s : Select)
  | count (s : Select)
  | insert (i : Insertion)
  | update (u : Update)
  | delete (d : Deletion)

/-- The text of a statement. -/
def Statement.write : Statement → String
  | select s => s.write
  | count s => "COUNT " ++ s.write
  | insert i => i.write
  | update u => u.write
  | delete d => d.write

end EntityGraph
