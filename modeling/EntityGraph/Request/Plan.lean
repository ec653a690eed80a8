import EntityGraph.Relation.Query
import EntityGraph.Request.Selection
import EntityGraph.TypeGraph.Node

/-!
# Plans of relations to load

A plan lists the paths of relations that a selection goes through, with the restrictions of their
lists, so that each can be loaded for many entities at once. Every path is planned once, with the
restrictions of the first selection that reaches it, and after the path it continues.
-/

namespace EntityGraph

/-- Dotted paths of relations with the restrictions of their targets, in order. -/
abbrev LoadPlan := List (String × ListArgs)

namespace LoadPlan

/-- The planned paths. -/
def paths (p : LoadPlan) : List String := List.map (·.1) p

/-- The restrictions that a path is planned with. -/
def argsOf (p : LoadPlan) (path : String) : Option ListArgs := List.lookup path p

/-- The path of a relation below a path. -/
def extend (path : Option String) (name : String) : String :=
  match path with
  | some above => above ++ "." ++ name
  | none => name

/-- The relation that a field of a type goes through for loading: its target, and whether the target
is listed page by page. -/
def step? (node : TypeNode) (s : Selection) : Option (ModelId × Bool) :=
  match node.field? s.name with
  | none => none
  | some f =>
    if f.property.all (·.eagerLoadDisabled) then none
    else match f.shape with
      | .toOne target => some (target, false)
      | .toMany target => some (target, false)
      | .connection target =>
        if (s.descend ["edges", "node"]).isEmpty then none else some (target, true)
      | _ => none

/-- The plan with a path, and whether the selections below it are planned: a path that is planned
with other restrictions stays as it is, and nothing below it is planned anew. -/
def addPath (p : LoadPlan) (path : String) (args : ListArgs) : LoadPlan × Bool :=
  match p.argsOf path with
  | none => (p ++ [(path, args)], true)
  | some planned => (p, planned.same args)

mutual

/-- Plan the relation that a selection on a type goes through, if it goes through one, and what is
selected below it. -/
def collectField (c : Catalog) (g : TypeGraph) (node : TypeNode) (path : Option String)
    (p : LoadPlan) : Selection → Except Error LoadPlan
  | .mk key name args children => do
    match step? node (.mk key name args children) with
    | none => return p
    | some (target, paged) =>
      let below := extend path name
      let listArgs ← ListArgs.parse c target args
      match addPath p below listArgs with
      | (p, false) => return p
      | (p, true) =>
        let targetNode ← g.object target
        if paged then collectEdges c g targetNode (some below) p children
        else collect c g targetNode (some below) p children

/-- Plan the relations that selections on a type go through, below a path. -/
def collect (c : Catalog) (g : TypeGraph) (node : TypeNode) (path : Option String) (p : LoadPlan) :
    List Selection → Except Error LoadPlan
  | [] => .ok p
  | s :: rest => do collect c g node path (← collectField c g node path p s) rest

/-- Plan below a field of a connection, if it is the edges. -/
def collectEdge (c : Catalog) (g : TypeGraph) (node : TypeNode) (path : Option String)
    (p : LoadPlan) : Selection → Except Error LoadPlan
  | .mk _ name _ children =>
    if name = "edges" then collectNodes c g node path p children else .ok p

/-- Plan below the edges of a connection. -/
def collectEdges (c : Catalog) (g : TypeGraph) (node : TypeNode) (path : Option String)
    (p : LoadPlan) : List Selection → Except Error LoadPlan
  | [] => .ok p
  | s :: rest => do collectEdges c g node path (← collectEdge c g node path p s) rest

/-- Plan below a field of an edge, if it is the entity. -/
def collectNode (c : Catalog) (g : TypeGraph) (node : TypeNode) (path : Option String)
    (p : LoadPlan) : Selection → Except Error LoadPlan
  | .mk _ name _ children =>
    if name = "node" then collect c g node path p children else .ok p

/-- Plan below the entities of edges. -/
def collectNodes (c : Catalog) (g : TypeGraph) (node : TypeNode) (path : Option String)
    (p : LoadPlan) : List Selection → Except Error LoadPlan
  | [] => .ok p
  | s :: rest => do collectNodes c g node path (← collectNode c g node path p s) rest

end

/-- The plan for several selections of entities of a type. -/
def ofSelections (c : Catalog) (g : TypeGraph) (root : TypeNode) (selections : List Selection) :
    Except Error LoadPlan :=
  selections.foldlM (fun p s => collect c g root none p s.children) []

end LoadPlan

end EntityGraph
