import EntityGraph.Sql.Query
import EntityGraph.Store.Failure

/-!
# Tables

A table has a schema, rows in the order of their insertion, and a counter of generated keys.
-/

namespace EntityGraph

/-- The type of a column. -/
inductive ColumnType where
  | text
  | int
  | float
  | bool
  | timestamp
  /-- Integers which the table numbers by itself. -/
  | serial
  deriving DecidableEq

/-- How a schema writes the type of a column. -/
def ColumnType.write : ColumnType → String
  | text => "text"
  | int => "int8"
  | float => "float8"
  | bool => "bool"
  | timestamp => "timestamp"
  | serial => "serial"

/-- A column of a schema; inserted rows that do not mention it take the default. -/
structure ColumnSpec where
  name : String
  type : ColumnType
  default : Datum

/-- How a schema writes a column. -/
def ColumnSpec.write (c : ColumnSpec) : String :=
  c.name ++ " " ++ c.type.write

/-- A row: a datum for each column of a schema, in order. -/
abbrev Row := List Datum

/-- A table. -/
structure Table where
  name : String
  schema : List ColumnSpec
  rows : List Row
  nextKey : Int64

namespace Table

/-- A table without rows; its keys count from one. -/
def new (name : String) (schema : List ColumnSpec) : Table :=
  ⟨name, schema, [], 1⟩

/-- Whether the schema has a column. -/
def hasColumn (t : Table) (column : String) : Bool :=
  t.schema.any (·.name == column)

/-- The columns of the schema, qualified by the table. -/
def columns (t : Table) : List Column :=
  t.schema.map fun c => Column.of t.name c.name

/-- A row under construction: the data so far, the counter and the generated key. -/
structure Draft where
  cells : Row
  nextKey : Int64
  key : Option Int64

/-- The counter after the key `id` was used. -/
def keyAfter (next id : Int64) : Option Int64 :=
  if id = Int64.maxValue then none else some (max next (id + 1))

/-- Add the datum of a column: the given one, a generated key, or the default. -/
def Draft.add (table : String) (d : Draft) (c : ColumnSpec) (given : Option Datum) :
    Except StoreFailure Draft :=
  match c.type, given with
  | .serial, some (.int id) => do
    let next ← (keyAfter d.nextKey id).elim (.error (.keysExhausted table)) .ok
    return ⟨d.cells ++ [.int id], next, some id⟩
  | .serial, _ => do
    let id := d.nextKey
    let next ← (keyAfter id id).elim (.error (.keysExhausted table)) .ok
    return ⟨d.cells ++ [.int id], next, some id⟩
  | _, some datum => .ok { d with cells := d.cells ++ [datum] }
  | _, none => .ok { d with cells := d.cells ++ [c.default] }

/-- Append a row which has the given data in the given columns, and answer its generated key. -/
def append (t : Table) (columns : List String) (values : List Datum) :
    Except StoreFailure (Table × Option Int64) :=
  if columns.length ≠ values.length then
    .error (.wrongWidth t.name values.length columns.length)
  else match columns.find? fun c => !t.hasColumn c with
    | some c => .error (.unknownColumn t.name c)
    | none => do
      let given := columns.zip values
      let row ← t.schema.foldlM (fun d c => d.add t.name c (given.lookup c.name))
        (⟨[], t.nextKey, none⟩ : Draft)
      return ({ t with rows := t.rows ++ [row.cells], nextKey := row.nextKey }, row.key)

/-- Append rows one by one up to the first that is refused, and answer the generated keys. -/
def appendAll (t : Table) (columns : List String) :
    List (List Datum) → Table × Except StoreFailure (List Int64)
  | [] => (t, .ok [])
  | values :: rest =>
    match t.append columns values with
    | .error failure => (t, .error failure)
    | .ok (t, key) =>
      let (t, keys) := t.appendAll columns rest
      (t, keys.map (key.toList ++ ·))

/-- A row as a record; of two columns with one name the later holds. -/
def record (t : Table) (row : Row) : Record :=
  Dict.ofList ((t.schema.map (·.name)).zip row)

/-- The columns that a new row has to give: all but the serial ones. -/
def givenColumns (schema : List ColumnSpec) : List String :=
  (schema.filter (·.type != .serial)).map (·.name)

end Table

/-- A database: tables with distinct names. -/
structure Store where
  tables : List Table
  deriving Inhabited

namespace Store

/-- The database without tables. -/
def empty : Store := ⟨[]⟩

/-- The table of a name. -/
def table (s : Store) (name : String) : Except StoreFailure Table :=
  (s.tables.find? (·.name == name)).elim (.error (.noTable name)) .ok

/-- The database with a table in the place of the one of its name. -/
def replace (s : Store) (t : Table) : Store :=
  ⟨s.tables.map fun u => if u.name == t.name then t else u⟩

/-- Create a table, unless its name is taken. -/
def create (s : Store) (name : String) (schema : List ColumnSpec) : Store :=
  if s.tables.any (·.name == name) then s else ⟨s.tables ++ [Table.new name schema]⟩

end Store

end EntityGraph
