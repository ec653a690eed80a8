import EntityGraph.Model.Entity
import EntityGraph.Vocabulary.Names

/-!
# Policies

A check asks whether a caller may take an action on a model, with what the action concerns: an
entity, an input, a property or a filter. A policy answers checks; `Policy.denying` is the policy of
a list of denials.
-/

namespace EntityGraph

/-- The entity on whose behalf a request runs, none for an anonymous one. -/
abbrev Caller := Option Entity

/-- A question to a policy. -/
structure Check where
  ability : Ability
  model : ModelId
  entity : Option Entity
  input : Option Literal
  property : Option String
  filter : Option FilterExpr

/-- A decision on every check of every caller. -/
structure Policy where
  allows : Caller → Check → Bool

/-- A rule that denies an ability; what it does not name it denies whatever it is. -/
structure Denial where
  ability : Ability
  model : Option ModelId
  property : Option String
  entity : Option Int64
  anonymous : Option Bool

/-- Whether a rule denies a check. -/
def Denial.applies (d : Denial) (caller : Caller) (c : Check) : Bool :=
  d.ability == c.ability &&
  (d.model.all fun m => c.model == m) &&
  (d.property.all fun p => c.property == some p) &&
  (d.entity.all fun id => c.entity.bind (·.id?) == some id) &&
  (d.anonymous.all fun anonymous => caller.isNone == anonymous)

namespace Policy

/-- The policy that allows everything. -/
def allowAll : Policy := ⟨fun _ _ => true⟩

/-- The policy that denies what some rule denies. -/
def denying (rules : List Denial) : Policy :=
  ⟨fun caller c => !rules.any fun d => d.applies caller c⟩

end Policy

/-- How a record of checks shows the key of an entity. -/
def Entity.idText (e : Entity) : String :=
  match e.id? with
  | some id => toString id.toInt
  | none => "none"

/-- How a record of checks shows a caller. -/
def Caller.text (caller : Caller) : String :=
  match caller with
  | none => "anonymous"
  | some user => user.model.path ++ "#" ++ user.idText

/-- How a record of checks shows a check of a caller and its answer. -/
def Check.text (c : Check) (caller : Caller) (allowed : Bool) : String :=
  let entity := (c.entity.map fun e => " entity=" ++ e.idText).getD ""
  let input := (c.input.map fun l => " input=" ++ l.text).getD ""
  let property := (c.property.map fun p => " property=" ++ p).getD ""
  let filter := (c.filter.map fun f => " filter=" ++ toString (f.references c.model).length).getD ""
  let answer := if allowed then "allowed" else "denied"
  s!"{caller.text} {c.ability.name} {c.model.path}{entity}{input}{property}{filter} {answer}"

end EntityGraph
