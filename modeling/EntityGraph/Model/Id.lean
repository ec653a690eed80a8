/-!
# Names of models

A model is named by a path such as `library::Book`: its own name after the last double colon, its
namespace before it.
-/

namespace EntityGraph

/-- The path of a model. -/
structure ModelId where
  path : String
  deriving DecidableEq, Inhabited

namespace ModelId

/-- The parts of a text around its last double colon. -/
def splitLast : List Char → Option (List Char × List Char)
  | [] => none
  | c :: rest =>
    match splitLast rest with
    | some (before, after) => some (c :: before, after)
    | none =>
      if c = ':' then
        match rest with
        | d :: after => if d = ':' then some ([], after) else none
        | [] => none
      else none

/-- The model `name` in a namespace; the empty namespace leaves no trace. -/
def of (space name : String) : ModelId :=
  if space.isEmpty then ⟨name⟩ else ⟨space ++ "::" ++ name⟩

/-- The name of a model without its namespace. -/
def name (m : ModelId) : String :=
  match splitLast m.path.toList with
  | some (_, after) => String.ofList after
  | none => m.path

/-- The namespace of a model, empty for none. -/
def space (m : ModelId) : String :=
  match splitLast m.path.toList with
  | some (before, _) => String.ofList before
  | none => ""

end ModelId

end EntityGraph
