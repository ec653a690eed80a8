import EntityGraph.Error

/-!
# Data in requests and answers

Conversion of data to literals for answers, and of literals to data of a scalar kind for arguments.
Lists are converted item by item, and null stands for null.
-/

namespace EntityGraph

namespace Datum

mutual

/-- The literal that shows a datum; what is no real number shows as null. -/
def toLiteral : Datum → Literal
  | null => .null
  | bool b => .bool b
  | int i => .int i.toInt
  | float x => if x.isFinite then .float x else .null
  | text s => .string s
  | timestamp t => .string t.text
  | list items => .list (toLiterals items)

/-- The literals that show the data of a list. -/
def toLiterals : List Datum → List Literal
  | [] => []
  | d :: rest => toLiteral d :: toLiterals rest

end

mutual

/-- The datum of a scalar kind that a literal stands for. -/
def ofLiteral (kind : ScalarKind) : Literal → Except Error Datum
  | .null => .ok .null
  | .list items => do return .list (← ofLiterals kind items)
  | .int n => match kind with
    | .int => match (Literal.int n).int? with
      | some i => .ok (.int i)
      | none => .error (.badInput (.wrongKind kind (.int n)))
    | .float => .ok (.float (Binary64.ofInt n))
    | _ => .error (.badInput (.wrongKind kind (.int n)))
  | .float x => match kind with
    | .float => .ok (.float x)
    | _ => .error (.badInput (.wrongKind kind (.float x)))
  | .bool b => match kind with
    | .boolean => .ok (.bool b)
    | _ => .error (.badInput (.wrongKind kind (.bool b)))
  | .string s => match kind with
    | .string => .ok (.text s)
    | .dateTime => match Timestamp.parse? s with
      | some t => .ok (.timestamp t)
      | none => .error (.badInput (.wrongKind kind (.string s)))
    | _ => .error (.badInput (.wrongKind kind (.string s)))
  | .enum s => match kind with
    | .string => .ok (.text s)
    | _ => .error (.badInput (.wrongKind kind (.enum s)))
  | .object fields => .error (.badInput (.wrongKind kind (.object fields)))

/-- The data of a scalar kind that the literals of a list stand for. -/
def ofLiterals (kind : ScalarKind) : List Literal → Except Error (List Datum)
  | [] => .ok []
  | l :: rest => do
    let d ← ofLiteral kind l
    let ds ← ofLiterals kind rest
    return d :: ds

end

end Datum

end EntityGraph
