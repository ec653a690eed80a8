import EntityGraph.Filter.Compile
import EntityGraph.Order.Compile

/-!
# Queries for related entities

The query for the targets of a relation of one owner, and the restrictions that the arguments of a
list put on such a query.
-/

namespace EntityGraph

namespace ListArgs

/-- Read a count of a window; absent, null and zero mean none. -/
def parseCount (name : String) : Option Literal → Except Error (Option Nat)
  | .none => .ok .none
  | some .null => .ok .none
  | some (.int n) =>
    if n < 0 then .error (.badInput (.negativeCount name)) else .ok (positive (some n.toNat))
  | some (.float _) => .error (.badInput (.negativeCount name))
  | some l => .error (.badInput (.notACount name l))

/-- Read the arguments of a list of entities of a model; others mean nothing. -/
def parse (c : Catalog) (target : ModelId) (args : List (String × Literal)) :
    Except Error ListArgs := do
  let filter ← match args.lookup "filter" with
    | some l => do
      let f ← FilterExpr.parse c target l
      pure (if f.isEmpty then Option.none else some f)
    | .none => pure .none
  let order ← match args.lookup "order" with
    | some l => OrderExpr.parse c target l
    | .none => pure .none
  let limit ← parseCount "limit" (args.lookup "limit")
  let offset ← parseCount "offset" (args.lookup "offset")
  return ⟨filter, order, limit, offset⟩

/-- A query on a model's table with the filter and the order of a list. -/
def refine (args : ListArgs) (c : Catalog) (maxDepth : Nat) (model : ModelId) (q : Query) :
    Except Error Query := do
  let q ← match args.filter with
    | some f => q.restrict c maxDepth model f
    | .none => pure q
  match args.order with
  | some order => q.sort c maxDepth model order
  | .none => return q

end ListArgs

namespace Relation

/-- The join of the targets of a relation with the table of pairs. -/
def pivotJoin (r : Relation) (pivot relatedKey : String) : Join :=
  ⟨pivot, Column.of pivot relatedKey, .eq, idColumn r.targetTable⟩

/-- The query for the targets of an owner; an owner without a key of its target has none. -/
def query (r : Relation) (owner : Entity) : Option Query :=
  let all := Query.all r.targetTable
  let ownerId := owner.get idName
  match r.link with
  | .belongsTo key =>
    let d := owner.get key
    if d.isNull then none else some (all.filter (.compare (idColumn r.targetTable) .eq d))
  | .hasOne key => some (all.filter (.compare (Column.of r.targetTable key) .eq ownerId))
  | .hasMany key => some (all.filter (.compare (Column.of r.targetTable key) .eq ownerId))
  | .belongsToMany pivot ownerKey relatedKey =>
    some ((all.join (r.pivotJoin pivot relatedKey)).filter
      (.compare (Column.of pivot ownerKey) .eq ownerId))

end Relation

end EntityGraph
