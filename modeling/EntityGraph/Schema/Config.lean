import EntityGraph.TypeGraph.Build
import EntityGraph.Vocabulary.Names

/-!
# Configurations

A configuration lists the fields at the root of an interface: lists and single entities to view, and
the creation, update and deletion of entities. `RootPlan.build` resolves their names, types and
arguments, and builds the types they need on the way.
-/

namespace EntityGraph

/-- A generated field at the root. -/
inductive RootField where
  | all (model : ModelId) (options : ListOptions)
  | view (model : ModelId)
  | create (model : ModelId)
  | update (model : ModelId)
  | delete (model : ModelId)

namespace RootField

/-- The model of a root field. -/
def model : RootField → ModelId
  | all m _ => m
  | view m => m
  | create m => m
  | update m => m
  | delete m => m

/-- Whether a root field changes entities. -/
def isMutation : RootField → Bool
  | create _ => true
  | update _ => true
  | delete _ => true
  | _ => false

/-- All root fields of a model. -/
def crud (m : ModelId) : List RootField :=
  [all m ⟨true, true, true⟩, view m, create m, update m, delete m]

end RootField

/-- The options of an interface. -/
structure SchemaConfig where
  roots : List RootField
  vocabulary : Vocabulary
  /-- How far below a field its selection is looked at to load relations ahead. -/
  selectionDepth : Nat
  /-- How many relations a filter or an order may go through. -/
  maxRelationDepth : Nat

/-- The configuration without root fields. -/
def SchemaConfig.default : SchemaConfig :=
  ⟨[], .english, 10, 1⟩

/-- A root field with its name, its type, its arguments and the argument that holds an input. -/
structure RootPlan where
  field : RootField
  name : String
  type : TypeRef
  args : List Argument
  input : String

namespace RootPlan

/-- Resolve a root field. -/
def build (c : Catalog) (v : Vocabulary) (f : RootField) : Building RootPlan := do
  let m := f.model
  let object := TypeRef.named (← Building.node c ⟨m, .object⟩).name
  let input := v.view m.name
  let id := Argument.mk "id" (TypeRef.named "Int").required
  match f with
  | .all _ options =>
    let args ← Building.rootListArgs c m options
    if options.paginate then
      let connection ← Building.node c ⟨m, .connection⟩
      return ⟨f, v.all m.name, (TypeRef.named connection.name).required, args, input⟩
    else return ⟨f, v.all m.name, (TypeRef.list object.required).required, args, input⟩
  | .view _ => return ⟨f, v.view m.name, object, [id], input⟩
  | .create _ =>
    let inputNode ← Building.node c ⟨m, .input⟩
    let arg := Argument.mk input (TypeRef.named inputNode.name).required
    return ⟨f, v.create m.name, object.required, [arg], input⟩
  | .update _ =>
    let inputNode ← Building.node c ⟨m, .input⟩
    let arg := Argument.mk input (TypeRef.named inputNode.name).required
    return ⟨f, v.update m.name, (TypeRef.named "Boolean").required, [id, arg], input⟩
  | .delete _ => return ⟨f, v.delete m.name, (TypeRef.named "Boolean").required, [id], input⟩

/-- Resolve root fields in order. -/
def buildAll (c : Catalog) (v : Vocabulary) (roots : List RootField) : Building (List RootPlan) :=
  roots.mapM (build c v)

end RootPlan

end EntityGraph
