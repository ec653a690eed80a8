import EntityGraph.Number.Layout

/-!
# Literals

The values that a request carries in its arguments and an answer carries in its fields.

* `Literal.same` is equality of literals: an enum value equals a string of the same text, and
  objects are equal whatever the order of their fields;
* `Literal.text` is how messages show a literal.
-/

namespace EntityGraph

/-- A value in a request or an answer. -/
inductive Literal where
  | null
  | bool (b : Bool)
  | int (n : Int)
  | float (x : Binary64)
  | string (s : String)
  | enum (name : String)
  | list (items : List Literal)
  | object (fields : List (String × Literal))
  deriving Inhabited

namespace Literal

/-- Whether a literal is null. -/
def isNull : Literal → Bool
  | null => true
  | _ => false

/-- The integer of a literal, if it is one of 64 bits with a sign. -/
def int? : Literal → Option Int64
  | int n =>
    if Int64.minValue.toInt ≤ n ∧ n ≤ Int64.maxValue.toInt then some (Int64.ofInt n) else none
  | _ => none

/-- Fields with a further one, in the place of the field of its name if there is one. -/
def putField (fields : List (String × Literal)) (f : String × Literal) : List (String × Literal) :=
  if fields.any (·.1 == f.1) then fields.map fun g => if g.1 == f.1 then f else g
  else fields ++ [f]

/-- Fields with distinct names; a repeated name keeps its first place and takes its last value. -/
def distinctFields (fields : List (String × Literal)) : List (String × Literal) :=
  fields.foldl putField []

/-- The text of a string or the name of an enum value. -/
def name? : Literal → Option String
  | string s => some s
  | enum s => some s
  | _ => none

mutual

/-- Equality of literals. -/
def same : Literal → Literal → Bool
  | null, null => true
  | bool a, bool b => a == b
  | int a, int b => a == b
  | float x, float y => x.same y
  | string a, other => other.name? == some a
  | enum a, other => other.name? == some a
  | list as, list bs => sameItems as bs
  | object as, object bs => as.length == bs.length && sameFields as bs
  | _, _ => false

/-- Equality of lists, item by item. -/
def sameItems : List Literal → List Literal → Bool
  | [], [] => true
  | a :: as, b :: bs => same a b && sameItems as bs
  | _, _ => false

/-- Whether each field of a list stands with an equal value in another. -/
def sameFields : List (String × Literal) → List (String × Literal) → Bool
  | [], _ => true
  | (key, a) :: as, bs =>
    (match bs.lookup key with
      | some b => same a b
      | none => false) && sameFields as bs

end

/-- Messages write a number with its point or, outside these exponents, in scientific notation. -/
def decimalLayout : DecimalLayout :=
  ⟨fun e => decide (-5 ≤ e) && decide (e ≤ 15), true, .even⟩

/-- How a character of a string is shown. -/
def escaped (c : Char) : List Char :=
  if c = '\r' then ['\\', 'r']
  else if c = '\n' then ['\\', 'n']
  else if c = '\t' then ['\\', 't']
  else if c = '"' then ['\\', '"']
  else if c = '\\' then ['\\', '\\']
  else if c.toNat < 32 || (127 ≤ c.toNat && c.toNat < 160) then
    let ds := Nat.toDigits 10 c.toNat
    ['\\', 'u'] ++ List.replicate (4 - ds.length) '0' ++ ds
  else [c]

/-- A string between double quotes. -/
def quote (s : String) : String :=
  String.ofList ('"' :: s.toList.flatMap escaped ++ ['"'])

mutual

/-- How messages show a literal. -/
def text : Literal → String
  | null => "null"
  | bool b => if b then "true" else "false"
  | int n => toString n
  | float x => x.text decimalLayout
  | string s => quote s
  | enum s => s
  | list items => "[" ++ ", ".intercalate (itemTexts items) ++ "]"
  | object fields => "\x7b" ++ ", ".intercalate (fieldTexts fields) ++ "\x7d"

/-- How messages show the items of a list. -/
def itemTexts : List Literal → List String
  | [] => []
  | l :: rest => text l :: itemTexts rest

/-- How messages show the fields of an object. -/
def fieldTexts : List (String × Literal) → List String
  | [] => []
  | (key, l) :: rest => (key ++ ": " ++ text l) :: fieldTexts rest

end

end Literal

end EntityGraph
