import EntityGraph.Run.Action

/-!
# The guard

The guard puts every question to the policy, notes question and answer in the log, and turns a
denial into an error in the language of the interface.
-/

namespace EntityGraph

/-- A policy with the language of its denials. -/
structure Guard where
  policy : Policy
  vocabulary : Vocabulary

namespace Guard

/-- Put a check to the policy. -/
def ask (g : Guard) (caller : Caller) (c : Check) : Action Bool := do
  let allowed := g.policy.allows caller c
  Action.record (.check caller c allowed)
  return allowed

/-- Fail unless the policy allows a check. -/
def require (g : Guard) (caller : Caller) (c : Check) : Action Unit := do
  if ← g.ask caller c then return ()
  else throw (.denied (g.vocabulary.denied c.ability c.property))

/-- The check of an ability on a model that concerns nothing in particular. -/
def plain (ability : Ability) (model : ModelId) : Check :=
  ⟨ability, model, none, none, none, none⟩

/-- The check to filter a property of a model. -/
def propertyCheck (r : Reference) : Check :=
  { plain .filterProperty r.model with property := some r.property }

/-- The check to view an entity. -/
def viewCheck (e : Entity) : Check :=
  { plain .view e.model with entity := some e }

/-- Require that a caller may filter a model, and by every property that the filter looks at. -/
def requireFilter (g : Guard) (caller : Caller) (model : ModelId) (f : FilterExpr) :
    Action Unit := do
  g.require caller { plain .filter model with filter := some f }
  (f.references model).forM fun r => g.require caller (propertyCheck r)

/-- Require that a caller may create an entity from an input. -/
def requireCreate (g : Guard) (caller : Caller) (model : ModelId) (input : Literal) : Action Unit :=
  g.require caller { plain .create model with input := some input }

/-- Require that a caller may update an entity by an input. -/
def requireUpdate (g : Guard) (caller : Caller) (e : Entity) (input : Literal) : Action Unit :=
  g.require caller { plain .update e.model with entity := some e, input := some input }

/-- Require that a caller may delete an entity. -/
def requireDelete (g : Guard) (caller : Caller) (e : Entity) : Action Unit :=
  g.require caller { plain .delete e.model with entity := some e }

/-- Require that a caller may view an entity. -/
def requireView (g : Guard) (caller : Caller) (e : Entity) : Action Unit :=
  g.require caller (viewCheck e)

/-- Require that a caller may view a property of an entity. -/
def requireViewProperty (g : Guard) (caller : Caller) (e : Entity) (property : String) :
    Action Unit :=
  g.require caller
    { plain .viewProperty e.model with entity := some e, property := some property }

/-- Require that a caller may list the entities of a model. -/
def requireViewAny (g : Guard) (caller : Caller) (model : ModelId) : Action Unit :=
  g.require caller (plain .viewAny model)

/-- Whether a caller may view an entity. -/
def canView (g : Guard) (caller : Caller) (e : Entity) : Action Bool :=
  g.ask caller (viewCheck e)

/-- The entities that a caller may view, in their order. -/
def viewable (g : Guard) (caller : Caller) (entities : List Entity) : Action (List Entity) :=
  entities.filterM (g.canView caller)

end Guard

end EntityGraph
