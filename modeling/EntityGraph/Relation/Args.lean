import EntityGraph.Order.Expression

/-!
# Restrictions of a list

The arguments that restrict a list of entities: a filter, an order and a window of the result.
-/

namespace EntityGraph

/-- The restrictions of a list of entities. -/
structure ListArgs where
  filter : Option FilterExpr
  order : Option OrderExpr
  limit : Option Nat
  offset : Option Nat

namespace ListArgs

/-- No restriction. -/
def none : ListArgs := ⟨.none, .none, .none, .none⟩

instance : Inhabited ListArgs := ⟨none⟩

/-- Equality of restrictions. -/
def same (a b : ListArgs) : Bool :=
  (match a.filter, b.filter with
    | .none, .none => true
    | some f, some g => f.same g
    | _, _ => false) &&
  a.order == b.order && a.limit == b.limit && a.offset == b.offset

/-- A count of a window; zero restricts nothing. -/
def positive (n : Option Nat) : Option Nat :=
  n.filter (0 < ·)

/-- The window of a list of items. -/
def paginate {α : Type} (args : ListArgs) (items : List α) : List α :=
  let rest := items.drop ((positive args.offset).getD 0)
  match positive args.limit with
  | some n => rest.take n
  | .none => rest

end ListArgs

end EntityGraph
