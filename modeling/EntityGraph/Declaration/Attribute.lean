import EntityGraph.Declaration.Token

/-!
# Attributes

An attribute is a path of names with what follows it. An attribute of a model holds a list of items,
each a name that may have an argument between parentheses.

* `Attribute.item` reads the item of an attribute of a model;
* `Attribute.arguments` collects the arguments of one name among attributes.
-/

namespace EntityGraph

/-- What can be wrong with the attributes of a declaration. -/
inductive DeclarationFault where
  | malformed
  | qualifiedName
  | malformedArgument (name : String)
  | tooManyKeys (kind property : String) (most : Nat)

/-- The fault in words. -/
def DeclarationFault.message : DeclarationFault → String
  | malformed => "malformed model attribute"
  | qualifiedName => "model attribute must start with an identifier"
  | malformedArgument name => s!"malformed argument to model({name})"
  | tooManyKeys kind property most => s!"{kind}({property}) takes at most {most} key names"

/-- An attribute: the names of its path, the first of them empty if the path starts at the root, and
the tokens after it. -/
structure Attribute where
  path : List String
  rest : List Token

/-- An item of an attribute. -/
structure AttributeItem where
  name : String
  argument : Option (List Token)

namespace Attribute

/-- The names between double colons at the start of some tokens, and what follows them. -/
def readNames : List Token → Option (List String × List Token)
  | .word w :: .mark ':' true :: .mark ':' _ :: rest =>
    (readNames rest).map fun (names, rest) => (w :: names, rest)
  | .word w :: rest => some ([w], rest)
  | _ => none

/-- The path at the start of some tokens, and what follows it. -/
def readPath : List Token → Option (List String × List Token)
  | .mark ':' true :: .mark ':' _ :: rest =>
    (readNames rest).map fun (names, rest) => ("" :: names, rest)
  | tokens => readNames tokens

/-- The attribute that a text writes. -/
def ofText? (s : String) : Option Attribute := do
  let (path, rest) ← readPath (← Token.ofText? s)
  return ⟨path, rest⟩

/-- The last item of a list of at most so many; a comma may end the list. -/
def lastItem : Nat → Option AttributeItem → List Token →
    Except DeclarationFault (Option AttributeItem)
  | _, last, [] => .ok last
  | 0, last, _ => .ok last
  | n + 1, _, tokens =>
    match readPath tokens with
    | none => .error .malformed
    | some ([name], []) => .ok (some ⟨name, none⟩)
    | some ([name], .group '(' content :: []) => .ok (some ⟨name, some content⟩)
    | some ([name], .group '(' content :: .mark ',' _ :: rest) =>
      lastItem n (some ⟨name, content⟩) rest
    | some ([_], _) => .error .malformed
    | some _ => .error .qualifiedName

/-- The item of an attribute of a model. Of several items the last counts, and attributes of other
things have none. -/
def item (a : Attribute) : Except DeclarationFault (Option AttributeItem) :=
  if a.path = ["model"] then
    match a.rest with
    | [.group _ content] => lastItem content.length none content
    | _ => .error .malformed
  else .ok none

/-- The arguments of a name among attributes, in their order. -/
def arguments {α : Type} (read : List Token → Option α) (name : String)
    (attributes : List Attribute) : Except DeclarationFault (List α) :=
  attributes.filterMapM fun a => do
    match ← a.item with
    | some ⟨found, some content⟩ =>
      if found = name then (read content).elim (.error (.malformedArgument name)) (.ok ∘ some)
      else return none
    | _ => return none

/-- The text of an attribute that documents what it stands before. -/
def documentation? (a : Attribute) : Option String :=
  if a.path = ["doc"] then
    match a.rest with
    | [.mark '=' _, .text _ s] => some s
    | _ => none
  else none

end Attribute

end EntityGraph
