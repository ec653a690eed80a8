import EntityGraph.Access.Guard
import EntityGraph.Relation.Query

/-!
# Paginators

A paginator stands for the entities of a list before they are selected. Filters and orders are
applied to its query first; counting and listing run it.
-/

namespace EntityGraph

/-- Where the entities of a list come from. -/
inductive ListSource where
  | query (q : Query)
  /-- Entities that are at hand already. -/
  | materialized (entities : List Entity)

/-- A list of entities of a model, filtered, ordered and cut to a window. -/
structure Paginator where
  catalog : Catalog
  maxDepth : Nat
  model : ModelId
  source : ListSource
  limit : Option Nat
  offset : Option Nat
  entries : Option (List Entity)
  filter : Option FilterExpr
  order : Option OrderExpr

namespace Paginator

/-- The unrestricted list of a source. -/
def of (catalog : Catalog) (maxDepth : Nat) (model : ModelId) (source : ListSource) : Paginator :=
  ⟨catalog, maxDepth, model, source, none, none, none, none, none⟩

/-- The list with at most so many entities. -/
def withLimit (p : Paginator) (n : Option Nat) : Paginator := { p with limit := n }

/-- The list without so many entities at its start. -/
def withOffset (p : Paginator) (n : Option Nat) : Paginator := { p with offset := n }

/-- The list with its entities loaded ahead of time. -/
def withEntries (p : Paginator) (entities : List Entity) : Paginator :=
  { p with entries := some entities }

/-- Whether the entities were loaded ahead of time. -/
def isPreloaded (p : Paginator) : Bool := p.entries.isSome

/-- The restrictions of the list. -/
def args (p : Paginator) : ListArgs := ⟨p.filter, p.order, p.limit, p.offset⟩

/-- The query of a source, with an error for entities that are at hand. -/
def sourceQuery (p : Paginator) (unsupported : Error) : Except Error Query :=
  match p.source with
  | .query q => .ok q
  | .materialized _ => .error unsupported

/-- The list restricted by a filter that the caller may use; the empty filter is not checked. -/
def restrict (p : Paginator) (g : Guard) (caller : Caller) (f : FilterExpr) : Action Paginator := do
  if f.isEmpty then return p
  else
    g.requireFilter caller p.model f
    let q ← Action.ofExcept (p.sourceQuery .filteringUnsupported)
    let q ← Action.ofExcept (q.restrict p.catalog p.maxDepth p.model f)
    return { p with source := .query q, filter := some f }

/-- The list in an order. -/
def sort (p : Paginator) : Option OrderExpr → Except Error Paginator
  | none => .ok p
  | some order => do
    let q ← p.sourceQuery .orderingUnsupported
    let q ← q.sort p.catalog p.maxDepth p.model order
    return { p with source := .query q, order := some order }

/-- The number of entities, whatever the window. -/
def count (p : Paginator) : Action Nat :=
  match p.source with
  | .query q => Action.count q.withoutWindow
  | .materialized entities => pure entities.length

/-- The entities in the window. -/
def get (p : Paginator) : Action (List Entity) :=
  match p.entries with
  | some entities => pure entities
  | none => match p.source with
    | .query q => do
      let windowed := (q.withLimit (ListArgs.positive p.limit)).withOffset
        (ListArgs.positive p.offset)
      let records ← Action.query windowed
      return Entity.ofRecords p.model records
    | .materialized entities => pure (p.args.paginate entities)

/-- The list of a source with the restrictions of some arguments. -/
def restricted (catalog : Catalog) (maxDepth : Nat) (g : Guard) (caller : Caller)
    (model : ModelId) (source : ListSource) (args : ListArgs) : Action Paginator := do
  let p := ((of catalog maxDepth model source).withLimit args.limit).withOffset args.offset
  let p ← match args.filter with
    | some f => p.restrict g caller f
    | none => pure p
  Action.ofExcept (p.sort args.order)

end Paginator

end EntityGraph
