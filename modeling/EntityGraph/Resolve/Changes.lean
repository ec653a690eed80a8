import EntityGraph.Model.Catalog
import EntityGraph.Model.Convert

/-!
# Changes

The input of a creation or an update, split into the data of the entity's own row and the links of
relations that are stored elsewhere.
-/

namespace EntityGraph

/-- What an input changes. -/
structure Changes where
  /-- Data of the row by column: scalars and the keys of targets that the row holds. -/
  attributes : Record
  /-- The complete targets of relations that are stored elsewhere. -/
  relations : List (Relation × List Int64)

namespace Changes

/-- No change. -/
def none : Changes := ⟨Dict.empty, []⟩

/-- The key that a literal stands for. -/
def key (property : String) (l : Literal) : Except Error Int64 :=
  l.int?.elim (.error (.badInput (.invalidKey property l))) .ok

/-- The keys of the targets that a literal stands for; null stands for no target. -/
def keys (property : String) : Literal → Except Error (List Int64)
  | .null => .ok []
  | .list items => items.mapM (key property)
  | l => do return [← key property l]

/-- A property that an input may set. -/
def writable (c : Catalog) (m : ModelId) (name : String) : Except Error Property := do
  let p ← c.property m name
  if p.name == idName || !p.isWritable then .error (.badInput (.notWritable m name)) else return p

/-- Changes with a property set. -/
def put (changes : Changes) (c : Catalog) (m : ModelId) (p : Property) (value : Literal) :
    Except Error Changes := do
  match p.type with
  | .scalar kind =>
    let d ← Datum.ofLiteral kind value
    return { changes with attributes := changes.attributes.set (columnName p.name) d }
  | .model _ =>
    let r ← c.relation m p.name
    let targets ← keys p.name value
    match r.link with
    | .belongsTo foreignKey =>
      let attributes := changes.attributes.set foreignKey (.ofInt? targets.head?)
      return { changes with attributes }
    | _ => return { changes with relations := changes.relations ++ [(r, targets)] }
  | type => .error (.unsupportedType m p.name type.text)

/-- Changes with one entry of an input; null entries may mean nothing. -/
def step (c : Catalog) (m : ModelId) (skipNulls : Bool) (changes : Changes)
    (entry : String × Literal) : Except Error Changes := do
  let p ← writable c m entry.1
  if skipNulls && entry.2.isNull then return changes else changes.put c m p entry.2

/-- Split an input for a model. -/
def parse (c : Catalog) (m : ModelId) (skipNulls : Bool) : Literal → Except Error Changes
  | .object entries => entries.foldlM (step c m skipNulls) none
  | _ => .error (.badInput (.inputNotAnObject m))

end Changes

end EntityGraph
