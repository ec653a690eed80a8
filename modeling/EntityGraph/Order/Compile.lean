import EntityGraph.Model.Catalog

/-!
# Reading and applying orders

An order argument is an object with one entry that is not null: a scalar property with a direction,
or a relation to one entity with an order on its target. Ordering a query joins the tables along
the chain of relations, whose number is limited.
-/

namespace EntityGraph

namespace Direction

/-- The direction that a literal names, in any letter case. -/
def parse (l : Literal) : Except Error Direction :=
  match l.name? with
  | none => .error (.badDirection l.text)
  | some token =>
    let word := String.ofList (token.toList.map Char.toLower)
    if word = "asc" then .ok .asc
    else if word = "desc" then .ok .desc
    else .error (.badDirection token)

end Direction

namespace OrderExpr

/-- The direction that the entry of a scalar property gives. -/
def parseField (property : String) (value : Literal) : Except Error OrderExpr := do
  let direction := match value with
    | .object fields => fields.lookup "order"
    | _ => none
  match direction with
  | none => .error (.badInput (.noDirection property))
  | some l => return field property (← Direction.parse l)

/-- Whether an order can go through a property, and to which model a relation leads. -/
def orderable (c : Catalog) (model : ModelId) (property : String) :
    Except Error (Option ModelId) := do
  let p ← c.property model property
  if !p.isQueryable then .error (.badInput (.notOrderable property))
  else match p.target with
    | none => return none
    | some target =>
      if p.isList then .error (.badInput (.orderByMany property)) else return some target

/-- The number of entries that are not null. -/
def presentCount (entries : List (String × Literal)) : Nat :=
  entries.countP (!·.2.isNull)

mutual

/-- Read an order on a model; null is no order. -/
def parse (c : Catalog) (model : ModelId) : Literal → Except Error (Option OrderExpr)
  | .null => .ok none
  | .object entries =>
    if presentCount entries = 1 then parsePresent c model entries
    else .error (.orderFieldCount (presentCount entries))
  | _ => .error (.badInput .orderNotAnObject)

/-- Read the first entry that is not null. -/
def parsePresent (c : Catalog) (model : ModelId) :
    List (String × Literal) → Except Error (Option OrderExpr)
  | [] => .ok none
  | (property, value) :: rest =>
    if value.isNull then parsePresent c model rest
    else do
      match ← orderable c model property with
      | none => return some (← parseField property value)
      | some target => match ← parse c target value with
        | some order => return some (relation property target order)
        | none => .error (.orderFieldCount 0)

end

/-- The join that leads from a table along a relation to one entity. -/
def joinAlong (table : String) (r : Relation) : Option Join :=
  match r.link with
  | .belongsTo key => some ⟨r.targetTable, idColumn r.targetTable, .eq, Column.of table key⟩
  | .hasOne key => some ⟨r.targetTable, Column.of r.targetTable key, .eq, idColumn table⟩
  | _ => none

/-- Order a query on the table of a model, below `depth` relations. -/
def applyAt (c : Catalog) (maxDepth : Nat) (q : Query) (model : ModelId) (table : String)
    (depth : Nat) : OrderExpr → Except Error Query
  | field property direction => .ok (q.orderBy (propertyColumn table property) direction)
  | relation property target order => do
    if maxDepth < depth + 1 then .error (.orderTooDeep (depth + 1))
    else
      let r ← c.relation model property
      match joinAlong table r with
      | none => .error (.badInput (.orderByMany property))
      | some join => order.applyAt c maxDepth (q.join join) target r.targetTable (depth + 1)

end OrderExpr

/-- A query on a model's table in an order. -/
def Query.sort (c : Catalog) (maxDepth : Nat) (model : ModelId) (order : OrderExpr) (q : Query) :
    Except Error Query := do
  let table ← c.table model
  order.applyAt c maxDepth q model table 0

end EntityGraph
