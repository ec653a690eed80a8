/-!
# Dictionaries

Finite maps from names, listed in the order of the names. The order of insertion leaves no trace.
-/

namespace EntityGraph

universe u v

/-- A finite map from strings; its entries are sorted by key. -/
structure Dict (α : Type u) where
  entries : List (String × α)
  deriving Inhabited

namespace Dict

variable {α : Type u} {β : Type v}

/-- The map without entries. -/
def empty : Dict α := ⟨[]⟩

/-- Whether there are no entries. -/
def isEmpty (d : Dict α) : Bool := d.entries.isEmpty

/-- The value at a key. -/
def get? (d : Dict α) (key : String) : Option α := d.entries.lookup key

/-- Whether a key has a value. -/
def contains (d : Dict α) (key : String) : Bool := (d.get? key).isSome

/-- Put an entry at its place in a sorted list, over any entry of the same key. -/
def place (key : String) (a : α) : List (String × α) → List (String × α)
  | [] => [(key, a)]
  | (k, b) :: rest =>
    if key < k then (key, a) :: (k, b) :: rest
    else if key = k then (key, a) :: rest
    else (k, b) :: place key a rest

/-- The map with the value `a` at `key`. -/
def set (d : Dict α) (key : String) (a : α) : Dict α := ⟨place key a d.entries⟩

/-- The map with the value `a` at `key`, unless the key has a value already. -/
def setNew (d : Dict α) (key : String) (a : α) : Dict α :=
  if d.contains key then d else d.set key a

/-- The map without the key. -/
def erase (d : Dict α) (key : String) : Dict α := ⟨d.entries.filter (·.1 != key)⟩

/-- The keys in order. -/
def keys (d : Dict α) : List String := d.entries.map (·.1)

/-- The values in the order of their keys. -/
def values (d : Dict α) : List α := d.entries.map (·.2)

/-- The map of a list of entries; of two entries with one key the later holds. -/
def ofList (entries : List (String × α)) : Dict α :=
  entries.foldl (fun d entry => d.set entry.1 entry.2) empty

/-- The map with a function applied to every value. -/
def map (f : α → β) (d : Dict α) : Dict β := ⟨d.entries.map fun (k, a) => (k, f a)⟩

end Dict

end EntityGraph
