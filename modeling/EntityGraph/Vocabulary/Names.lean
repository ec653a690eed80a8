import EntityGraph.Access.Ability
import EntityGraph.Vocabulary.Plural

/-!
# Vocabularies

A vocabulary names the fields at the root of an interface after its models, and words the denial of
an access.
-/

namespace EntityGraph

/-- A language for names and messages; irregular German words can be added. -/
inductive Vocabulary where
  | english
  | german (exceptions : List (String × String))

/-- A name with a capital first letter. -/
def capitalized (s : String) : String :=
  String.ofList (Text.capitalize s.toList)

/-- A name with a small first letter. -/
def decapitalized (s : String) : String :=
  String.ofList (Text.decapitalize s.toList)

namespace Vocabulary

/-- German with further irregular words. -/
def germanWith (exceptions : List (String × String)) : Vocabulary :=
  german (exceptions.foldl Plural.addException Plural.germanExceptions)

/-- The plural of a name. -/
def plural : Vocabulary → String → String
  | english, word => Plural.english word
  | german exceptions, word => Plural.german exceptions word

/-- The field that lists all entities of a model. -/
def all (v : Vocabulary) (model : String) : String :=
  (match v with
    | english => "all"
    | german _ => "alle") ++ capitalized (v.plural model)

/-- The field that creates an entity. -/
def create (v : Vocabulary) (model : String) : String :=
  (match v with
    | english => "create"
    | german _ => "erstelle") ++ capitalized model

/-- The field that updates an entity. -/
def update (v : Vocabulary) (model : String) : String :=
  (match v with
    | english => "update"
    | german _ => "bearbeite") ++ capitalized model

/-- The field that deletes an entity. -/
def delete (v : Vocabulary) (model : String) : String :=
  (match v with
    | english => "delete"
    | german _ => "loesche") ++ capitalized model

/-- The field that shows one entity, and the argument that holds the input of a change. -/
def view (_ : Vocabulary) (model : String) : String :=
  decapitalized model

/-- The message of a denial; a filter on a property names it. -/
def denied (v : Vocabulary) (ability : Ability) (property : Option String) : String :=
  let name := property.getD ""
  match v with
  | english => match ability with
    | .filter => "You are not authorized to filter this type"
    | .filterProperty => s!"You are not authorized to filter the property [{name}]."
    | .create => "You are not authorized to create this model."
    | .delete => "You are not authorized to delete this model."
    | .update => "You are not authorized to update this model."
    | .view => "You are not authorized to view this model."
    | .viewProperty => "You are not authorized to view this property."
    | .viewAny => "You are not authorized to view any model."
  | german _ => match ability with
    | .filter => "Sie sind nicht berechtigt, diesen Filter zu verwenden."
    | .filterProperty => s!"Sie sind nicht berechtigt, die Eigenschaft [{name}] zu filtern."
    | .create => "Sie sind nicht berechtigt, diesen Eintrag zu erstellen."
    | .delete => "Sie sind nicht berechtigt, diesen Eintrag zu löschen."
    | .update => "Sie sind nicht berechtigt, diesen Eintrag zu bearbeiten."
    | .view => "Sie sind nicht berechtigt, diesen Eintrag anzusehen."
    | .viewProperty => "Sie sind nicht berechtigt, diese Eigenschaft anzusehen."
    | .viewAny => "Sie sind nicht berechtigt, diese Einträge anzusehen."

end Vocabulary

end EntityGraph
