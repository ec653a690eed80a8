import EntityGraph.Model.Catalog
import EntityGraph.TypeGraph.Node

/-!
# Building types

Models may refer to each other in cycles. A type is therefore registered before its fields are
built, so that a cycle meets the type under construction instead of starting it anew. Asking
again for a type answers the type that is there; a failure leaves the types registered so
far in the graph.

The depth of the construction is bounded by the number of keys, since every step down registers a
new one.
-/

namespace EntityGraph

/-- A step in the construction of a graph. -/
abbrev Building (α : Type) := ExceptT Error (StateM TypeGraph) α

namespace Building

/-- The outcome of a step that leaves the graph alone. -/
def ofExcept {α : Type} : Except Error α → Building α
  | .ok a => pure a
  | .error e => throw e

/-- The error of a property whose type no interface can express. -/
def unsupported {α : Type} (m : ModelId) (p : Property) : Building α :=
  throw (.unsupportedType m p.name p.type.text)

/-- A list of fields with a further one; it takes the place of a field of the same name. -/
def putField (fields : List FieldNode) (f : FieldNode) : List FieldNode :=
  if fields.any (·.name == f.name) then fields.map fun g => if g.name == f.name then f else g
  else fields ++ [f]

/-- Register a node whose fields are still unknown. -/
def register (k : TypeKey) : Building Unit :=
  modify fun g => ⟨g.nodes ++ [⟨k, none⟩]⟩

/-- Give a registered node its fields. -/
def complete (k : TypeKey) (fields : List FieldNode) : Building TypeNode := do
  let g ← get
  match (g.find? k).bind (·.built) with
  | some _ => throw (.badSchema s!"fields of {k.typeName} built twice")
  | none =>
    let node : TypeNode := ⟨k, some (fields.foldl putField [])⟩
    set (⟨g.nodes.map fun n => if n.key == k then node else n⟩ : TypeGraph)
    return node

section Fields

variable (build : TypeKey → Building TypeNode) (c : Catalog)

/-- The reference to a type, which is built if need be. -/
def typeOf (m : ModelId) (kind : TypeKind) : Building TypeRef := do
  return .named (← build ⟨m, kind⟩).name

/-- The arguments of a list of entities of a model. -/
def listArgs (target : ModelId) (options : ListOptions) : Building (List Argument) := do
  let window := if options.paginate then
    [Argument.mk "limit" (.named "Int"), Argument.mk "offset" (.named "Int")] else []
  let filter ← if options.filterable then do
    pure [Argument.mk "filter" (← typeOf build target .filter)] else pure []
  let order ← if options.orderable then do
    pure [Argument.mk "order" (← typeOf build target .order)] else pure []
  return window ++ filter ++ order

/-- The field of an object that shows a property. -/
def objectField (m : ModelId) (p : Property) : Building FieldNode := do
  match p.type with
  | .scalar kind =>
    let type := TypeRef.named kind.typeName
    let type := if p.isList then .list type.required else type
    return ⟨p.name, type.nullable p.nullable, [], .scalar kind, some p⟩
  | .model target =>
    if !p.isList then
      let type ← typeOf build target .object
      return ⟨p.name, type.nullable p.nullable, [], .toOne target, some p⟩
    else
      let args ← listArgs build target p.listOptions
      if p.paginated then
        let type ← typeOf build target .connection
        return ⟨p.name, type.required, args, .connection target, some p⟩
      else
        let type ← typeOf build target .object
        return ⟨p.name, (TypeRef.list type.required).required, args, .toMany target, some p⟩
  | _ => unsupported m p

/-- The fields of the object of a model: its readable properties. -/
def objectFields (m : ModelId) : Building (List FieldNode) := do
  let properties ← ofExcept (c.describe m)
  (properties.filter (·.isReadable)).mapM (objectField build m)

/-- The field of an input that sets a property; relations are set by keys. -/
def inputField (m : ModelId) (p : Property) : Building FieldNode := do
  match p.type with
  | .scalar kind =>
    let type := TypeRef.named kind.typeName
    let type := if p.isList then .list type.required else type
    return .ofProperty p (type.nullable p.nullable)
  | .model _ =>
    let key := TypeRef.named "Int"
    return .ofProperty p (if p.isList then .list key.required else key.nullable p.nullable)
  | _ => unsupported m p

/-- The fields of the input of a model: its writable properties but the key. -/
def inputFields (m : ModelId) : Building (List FieldNode) := do
  let properties ← ofExcept (c.describe m)
  (properties.filter fun p => p.isWritable && p.name != idName).mapM (inputField m)

/-- The field of a filter that tests a property. -/
def filterField (m : ModelId) (p : Property) : Building FieldNode := do
  match p.type with
  | .scalar kind => return .ofProperty p (.named kind.filterTypeName)
  | .model target => return .ofProperty p (← typeOf build target .filter)
  | _ => unsupported m p

/-- The fields of the filter of a model: ways to combine filters, and queryable properties. -/
def filterFields (m : ModelId) : Building (List FieldNode) := do
  let own := TypeRef.named (TypeKey.mk m .filter).typeName
  let combined := [FieldNode.plain "and" (.list own.required) .input,
    FieldNode.plain "or" (.list own.required) .input, FieldNode.plain "not" own .input]
  let properties ← ofExcept (c.describe m)
  let fields ← (properties.filter (·.isQueryable)).mapM (filterField build m)
  return combined ++ fields

/-- The field of an order that sorts by a property. -/
def orderField (m : ModelId) (p : Property) : Building FieldNode := do
  match p.type with
  | .scalar _ => return .ofProperty p (.named "Order")
  | .model target => return .ofProperty p (← typeOf build target .order)
  | _ => unsupported m p

/-- The fields of the order of a model: its queryable properties but the relations to many. -/
def orderFields (m : ModelId) : Building (List FieldNode) := do
  let properties ← ofExcept (c.describe m)
  (properties.filter fun p => p.isQueryable && !p.isToMany).mapM (orderField build m)

/-- The fields of the connection of a model. -/
def connectionFields (m : ModelId) : Building (List FieldNode) := do
  let edge ← typeOf build m .edge
  return [.plain "totalCount" (TypeRef.named "Int").required .totalCount,
    .plain "edges" (TypeRef.list edge.required).required (.edges m)]

/-- The fields of the edge of a model. -/
def edgeFields (m : ModelId) : Building (List FieldNode) := do
  let object ← typeOf build m .object
  return [.plain "node" object.required (.node m)]

/-- The fields of the type of a key. -/
def fieldsOf (k : TypeKey) : Building (List FieldNode) :=
  match k.kind with
  | .object => objectFields build c k.model
  | .input => inputFields c k.model
  | .filter => filterFields build c k.model
  | .order => orderFields build c k.model
  | .connection => connectionFields build k.model
  | .edge => edgeFields build k.model

end Fields

/-- Build the type of a key through at most so many types under construction. -/
def nodeWithin (c : Catalog) : Nat → TypeKey → Building TypeNode
  | 0, k => throw (.badSchema s!"types nest too deep at {k.typeName}")
  | depth + 1, k => do
    if !c.contains k.model then throw (.unknownModel k.model)
    else match (← get).find? k with
      | some node => return node
      | none =>
        register k
        let fields ← fieldsOf (nodeWithin c depth) c k
        complete k fields

/-- A bound on the number of types under construction at a time. -/
def bound (c : Catalog) : Nat :=
  TypeKind.all.length * c.definitions.length + 1

/-- The type of a key, which is built if need be. -/
def node (c : Catalog) (k : TypeKey) : Building TypeNode :=
  nodeWithin c (bound c) k

/-- The arguments of a list of entities of a model at the root. -/
def rootListArgs (c : Catalog) (m : ModelId) (options : ListOptions) : Building (List Argument) :=
  listArgs (node c) m options

end Building

end EntityGraph
