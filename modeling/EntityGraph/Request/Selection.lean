import EntityGraph.Literal

/-!
# Selections

A request selects fields, each under a key of the answer, with arguments and selections of its own.
Fragments stand for the selections inside them, and variables for their values.
-/

namespace EntityGraph

/-- A selected field. -/
inductive Selection where
  | mk (key name : String) (args : List (String × Literal)) (children : List Selection)
  deriving Inhabited

namespace Selection

/-- The key of the field in the answer. -/
def key : Selection → String
  | mk key _ _ _ => key

/-- The name of the field. -/
def name : Selection → String
  | mk _ name _ _ => name

/-- The arguments of the field. -/
def args : Selection → List (String × Literal)
  | mk _ _ args _ => args

/-- The selections inside the field. -/
def children : Selection → List Selection
  | mk _ _ _ children => children

mutual

/-- The selection down to a depth below its field. -/
def upTo (depth : Nat) : Selection → Selection
  | mk key name args children =>
    mk key name args (if depth = 0 then [] else childrenUpTo (depth - 1) children)

/-- Selections down to a depth below their fields. -/
def childrenUpTo (depth : Nat) : List Selection → List Selection
  | [] => []
  | s :: rest => upTo depth s :: childrenUpTo depth rest

end

/-- The selections of a field name inside a selection. -/
def childrenNamed (s : Selection) (name : String) : List Selection :=
  s.children.filter (·.name == name)

/-- The selections at the end of a path of field names, through all keys. -/
def descend (path : List String) (s : Selection) : List Selection :=
  path.foldl (fun found name => found.flatMap (·.childrenNamed name)) [s]

end Selection

/-- What a request writes: literals in which variables may stand. -/
inductive Term where
  | value (l : Literal)
  | variableRef (name : String)
  | list (items : List Term)
  | object (fields : List (String × Term))
  deriving Inhabited

namespace Term

mutual

/-- The literal of a term; a variable without a value is null. -/
def substitute (values : List (String × Literal)) : Term → Literal
  | value l => l
  | variableRef name => (values.lookup name).getD .null
  | list items => .list (substituteAll values items)
  | object fields => .object (Literal.distinctFields (substituteFields values fields))

/-- The literals of terms. -/
def substituteAll (values : List (String × Literal)) : List Term → List Literal
  | [] => []
  | t :: rest => substitute values t :: substituteAll values rest

/-- The fields of an object of terms. -/
def substituteFields (values : List (String × Literal)) :
    List (String × Term) → List (String × Literal)
  | [] => []
  | (key, t) :: rest => (key, substitute values t) :: substituteFields values rest

end

end Term

/-- What a request selects, as it is written. -/
inductive SelectionSyntax where
  | field (name : String) (label : Option String) (args : List (String × Term))
    (children : List SelectionSyntax)
  | fragment (children : List SelectionSyntax)
  deriving Inhabited

namespace SelectionSyntax

mutual

/-- The selections that a written one stands for: one field, or those of a fragment. -/
def expand (values : List (String × Literal)) : SelectionSyntax → List Selection
  | field name label args children =>
    [.mk (label.getD name) name (Literal.distinctFields (Term.substituteFields values args))
      (resolve values children)]
  | fragment children => resolve values children

/-- The selections that written ones stand for. -/
def resolve (values : List (String × Literal)) : List SelectionSyntax → List Selection
  | [] => []
  | s :: rest => expand values s ++ resolve values rest

end

end SelectionSyntax

end EntityGraph
