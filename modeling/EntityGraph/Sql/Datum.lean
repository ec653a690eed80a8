import EntityGraph.Number.Layout
import EntityGraph.Calendar.Text

/-!
# Data

The values that a database stores and compares.

* `Datum.compare?` is the comparison of the database: integers and floating point numbers compare
  numerically, null and data of unrelated kinds do not compare;
* `Datum.text` is how a statement writes a datum.
-/

namespace EntityGraph

/-- A value in a database. -/
inductive Datum where
  | null
  | bool (b : Bool)
  | int (i : Int64)
  | float (x : Binary64)
  | text (s : String)
  | timestamp (t : Timestamp)
  | list (items : List Datum)
  deriving Inhabited

namespace Datum

/-- A short name of the kind of a datum. -/
def kindName : Datum → String
  | null => "null"
  | bool _ => "bool"
  | int _ => "int"
  | float _ => "float"
  | text _ => "text"
  | timestamp _ => "timestamp"
  | list _ => "list"

/-- Whether a datum is null. -/
def isNull : Datum → Bool
  | null => true
  | _ => false

/-- The integer that a datum holds, if it is one. -/
def int? : Datum → Option Int64
  | int i => some i
  | _ => none

/-- An integer, or null for none. -/
def ofInt? : Option Int64 → Datum
  | some i => int i
  | none => null

/-- The order of two data, if they compare. -/
def compare? : Datum → Datum → Option Ordering
  | int a, int b => some (Ord.compare a.toInt b.toInt)
  | int a, float y => (Binary64.ofInt a.toInt).compare? y
  | float x, int b => x.compare? (Binary64.ofInt b.toInt)
  | float x, float y => x.compare? y
  | text a, text b => some (Ord.compare a b)
  | bool a, bool b => some (Ord.compare a b)
  | timestamp a, timestamp b => some (a.compare b)
  | _, _ => none

/-- Statements write numbers without an exponent, and whole numbers without a point. -/
def decimalLayout : DecimalLayout :=
  ⟨fun _ => true, false, .larger⟩

/-- A text between single quotes; a quote inside is written twice. -/
def quote (s : String) : String :=
  let doubled := s.toList.flatMap fun c => if c = '\'' then ['\'', '\''] else [c]
  String.ofList ('\'' :: doubled ++ ['\''])

/-- A text between round brackets. -/
def parenthesised (s : String) : String :=
  "(" ++ s ++ ")"

mutual

/-- How a statement writes a datum. -/
def write : Datum → String
  | null => "NULL"
  | bool b => if b then "true" else "false"
  | int i => toString i.toInt
  | float x => x.text decimalLayout
  | text s => quote s
  | timestamp t => quote t.text
  | list items => parenthesised (", ".intercalate (writeAll items))

/-- How a statement writes each datum of a list. -/
def writeAll : List Datum → List String
  | [] => []
  | d :: rest => write d :: writeAll rest

end

/-- The items of a list of data between round brackets. -/
def writeList (items : List Datum) : String :=
  parenthesised (", ".intercalate (writeAll items))

/-- A datum of another kind where a certain kind is needed. -/
structure KindMismatch where
  expected : String
  found : Datum

/-- The wording of a mismatch. -/
def KindMismatch.message (m : KindMismatch) : String :=
  s!"type mismatch (expected {m.expected}, got {m.found.kindName})"

/-- The text that a datum holds. -/
def toText : Datum → Except KindMismatch String
  | text s => .ok s
  | d => .error ⟨"string", d⟩

/-- The truth value that a datum holds. -/
def toBool : Datum → Except KindMismatch Bool
  | bool b => .ok b
  | d => .error ⟨"bool", d⟩

end Datum

end EntityGraph
