import EntityGraph.Proofs.TypeGraph.Admits
import EntityGraph.Schema.Config

/-!
# Types of root fields

Resolving the root fields of an interface builds the types that they need, with all that these refer
to.

* `RootField.asked` are the types that a root field needs;
* `RootPlan.whole_of_buildAll` says that root fields which are resolved leave a whole graph;
* `TypeRequest.Whole.leads` says of a whole graph that fields lead to models which have objects.
-/

namespace EntityGraph

/-- The types that a root field asks for: the object of its model, and those of its arguments and
its answer. -/
def RootField.asked : RootField → List TypeKey
  | all m options => ⟨m, .object⟩ ::
    (options.refers m ++ if options.paginate then [⟨m, .connection⟩] else [])
  | view m => [⟨m, .object⟩]
  | create m => [⟨m, .object⟩, ⟨m, .input⟩]
  | update m => [⟨m, .object⟩, ⟨m, .input⟩]
  | delete m => [⟨m, .object⟩]

theorem RootField.object_mem_asked (f : RootField) : ⟨f.model, .object⟩ ∈ f.asked := by
  cases f <;> exact List.mem_cons_self

/-- The type of the graph that a root field answers, none for a field that answers whether something
was changed. -/
def RootField.key? : RootField → Option TypeKey
  | all m options => some ⟨m, if options.paginate then .connection else .object⟩
  | view m => some ⟨m, .object⟩
  | create m => some ⟨m, .object⟩
  | _ => none

theorem RootField.key?_mem_asked {f : RootField} {k : TypeKey} (h : f.key? = some k) :
    k ∈ f.asked := by
  cases f with
  | all m options =>
    obtain ⟨paginate, filterable, orderable⟩ := options
    cases paginate <;> cases h <;> simp [asked]
  | update m => cases h
  | delete m => cases h
  | _ => exact Option.some.inj h ▸ List.mem_cons_self

namespace RootPlan

open Building

/-- A resolved root field stands for a field, and has the name of the type that this answers. -/
def Resolves (f : RootField) (p : RootPlan) : Prop :=
  p.field = f ∧ p.type.base = f.key?.elim "Boolean" TypeKey.typeName

theorem asks_node (c : Catalog) (k : TypeKey) :
    Asks c (bound c) (node c k) [k] fun g n => g.find? k = some n :=
  asks_nodeWithin (bound c) k

theorem asks_rootListArgs (c : Catalog) (m : ModelId) (options : ListOptions) :
    Asks c (bound c) (rootListArgs c m options) (options.refers m) fun _ _ => True := by
  have hbuild : ByKey (node c) := byKey_nodeWithin c (bound c)
  rw [rootListArgs, listArgs_eq hbuild]
  exact (Asks.askFor (asks_node c) _).map fun _ _ _ _ => trivial

/-- A root field asks for the object of its model first, and then for what it needs besides. -/
theorem asks_build (c : Catalog) (v : Vocabulary) (f : RootField) :
    Asks c (bound c) (build c v f) f.asked fun _ p => Resolves f p := by
  have hname : ∀ {k n} {g : TypeGraph}, g.find? k = some n → n.name = k.typeName := by
    intro k n g hfind
    exact congrArg TypeKey.typeName (TypeGraph.mem_of_find? hfind).2
  have hobject := asks_node c ⟨f.model, .object⟩
  cases f with
  | all m options =>
    refine hobject.bind (R := fun n _ p => n.name = (TypeKey.mk m .object).typeName →
      Resolves (.all m options) p) (fun n => ?_) fun _ _ _ _ hn h => h (hname hn)
    refine (asks_rootListArgs c m options).bind (R := fun _ _ p => n.name =
      (TypeKey.mk m .object).typeName → Resolves (.all m options) p) (fun args => ?_)
      fun _ _ _ _ _ h => h
    obtain ⟨paginate, filterable, orderable⟩ := options
    cases paginate with
    | true => exact (asks_node c ⟨m, .connection⟩).map fun _ _ _ hn _ => ⟨rfl, hname hn⟩
    | false => exact .pure fun _ hn => ⟨rfl, hn⟩
  | view m => exact hobject.map fun _ _ _ hn => ⟨rfl, hname hn⟩
  | create m =>
    exact hobject.bind (R := fun n _ p => n.name = (TypeKey.mk m .object).typeName →
      Resolves (.create m) p) (fun n => (asks_node c ⟨m, .input⟩).map fun _ _ _ _ hn => ⟨rfl, hn⟩)
      fun _ _ _ _ hn h => h (hname hn)
  | update m =>
    exact hobject.bind (R := fun _ _ p => Resolves (.update m) p) (fun n =>
      (asks_node c ⟨m, .input⟩).map fun _ _ _ _ => ⟨rfl, rfl⟩) fun _ _ _ _ _ h => h
  | delete m => exact hobject.map fun _ _ _ _ => ⟨rfl, rfl⟩

/-- Root fields that are resolved leave a whole graph, and stand for themselves. -/
theorem whole_of_buildAll {c : Catalog} {v : Vocabulary} {roots : List RootField}
    {plans : List RootPlan} {g : TypeGraph}
    (h : (buildAll c v roots).run .empty = (.ok plans, g)) :
    TypeRequest.Whole c (roots.flatMap RootField.asked) g ∧
      ∀ p ∈ plans, p.field ∈ roots ∧
        p.type.base = p.field.key?.elim "Boolean" TypeKey.typeName := by
  have hasks := Asks.mapM (asks_build c v) (fun _ _ _ _ h => h) roots
  obtain ⟨hg, hplans⟩ := hasks.whole h
  refine ⟨hg, fun p hp => ?_⟩
  obtain ⟨f, hf, hresolves⟩ := exists_of_forall₂_right hplans hp
  obtain ⟨rfl, hname⟩ := hresolves
  exact ⟨hf, hname⟩

end RootPlan

/-- Only objects have fields that lead to entities, and these show relations. -/
theorem TypeKind.target_of_fieldOf {kind : TypeKind} {m target : ModelId} {p : Property}
    {f : FieldNode} (hfield : kind.fieldOf m p = .ok f) (htarget : f.shape.target = some target) :
    p.target = some target ∧ kind = .object := by
  unfold fieldOf at hfield
  split at hfield
  case h_2 t htype =>
    obtain rfl := Except.ok.inj hfield
    have hlead : (relationField p t).shape.target = some t := by
      unfold relationField
      split_ifs <;> rfl
    obtain rfl := Option.some.inj (hlead.symm.trans htarget)
    exact ⟨by simp [Property.target, htype], rfl⟩
  case h_9 => cases hfield
  all_goals
    obtain rfl := Except.ok.inj hfield
    cases htarget

namespace TypeRequest.Whole

variable {c : Catalog} {asked : List TypeKey} {g : TypeGraph} {m target : ModelId} {n : TypeNode}
  {f : FieldNode}

theorem mem_keys_of_refers (hg : Whole c asked g) {k k' : TypeKey} (hk : k ∈ g.keys)
    (hrefers : k' ∈ k.refers c) : k' ∈ g.keys := by
  obtain ⟨n, -, rfl, hn, -⟩ := hg.exists_node hk
  exact hg.refers n hn k' hrefers

theorem object_of_edge (hg : Whole c asked g) (hk : ⟨m, .edge⟩ ∈ g.keys) :
    ⟨m, .object⟩ ∈ g.keys :=
  hg.mem_keys_of_refers hk List.mem_cons_self

/-- A connection leads to the object of its model by way of an edge. -/
theorem object_of_connection (hg : Whole c asked g) (hk : ⟨m, .connection⟩ ∈ g.keys) :
    ⟨m, .object⟩ ∈ g.keys :=
  hg.object_of_edge (hg.mem_keys_of_refers hk List.mem_cons_self)

/-- A relation that an object shows leads to a model with an object. -/
theorem object_of_relation (hg : Whole c asked g) (hk : ⟨m, .object⟩ ∈ g.keys) {p : Property}
    (hp : c.property m p.name = .ok p) (hreadable : TypeKind.object.shows p = true)
    (htarget : p.target = some target) : ⟨target, .object⟩ ∈ g.keys := by
  obtain ⟨-, hrefers⟩ := hg.hasField ⟨by decide, by decide⟩ hk hp hreadable
  simp only [TypeKind.refers, htarget] at hrefers
  unfold Property.objectRefers at hrefers
  split_ifs at hrefers with hlist hpaginated
  · exact hg.object_of_connection (hrefers _ (by simp))
  · exact hrefers _ (by simp)
  · exact hrefers _ List.mem_cons_self

/-- The model of every type whose fields stand for properties can be described, and so can the model
of a connection or an edge. -/
theorem exists_describe (hg : Whole c asked g) {k : TypeKey} (hk : k ∈ g.keys) :
    ∃ properties, c.describe k.model = .ok properties := by
  have hown : ∀ {kind : TypeKind}, kind.ofProperties → ∀ {m : ModelId}, ⟨m, kind⟩ ∈ g.keys →
      ∃ properties, c.describe m = .ok properties := by
    intro kind hkind m hk
    obtain ⟨n, -, hkey, -, fields, hfields, -⟩ := hg.exists_node hk
    rw [hkey, Building.declared_eq c m hkind, bind_eq_ok] at hfields
    obtain ⟨properties, hproperties, -⟩ := hfields
    exact ⟨properties, hproperties⟩
  have hobject : ∀ {m : ModelId}, ⟨m, .object⟩ ∈ g.keys →
      ∃ properties, c.describe m = .ok properties := hown ⟨by decide, by decide⟩
  obtain ⟨m, kind⟩ := k
  by_cases hconnection : kind = .connection
  · subst hconnection
    exact hobject (hg.object_of_connection hk)
  by_cases hedge : kind = .edge
  · subst hedge
    exact hobject (hg.object_of_edge hk)
  · exact hown ⟨hconnection, hedge⟩ hk

/-- What a field leads to has an object. -/
theorem object_of_target (hg : Whole c asked g) (hn : n ∈ g.nodes) (hf : f ∈ n.fields)
    (htarget : f.shape.target = some target) : ⟨target, .object⟩ ∈ g.keys := by
  have hcomplete := hg.complete n hn
  have hk : n.key ∈ g.keys := List.mem_map_of_mem hn
  obtain ⟨⟨m, kind⟩, built⟩ := n
  by_cases hconnection : kind = .connection
  · rcases TypeNode.mem_connection hcomplete hconnection hf with rfl | rfl <;> cases htarget
    exact hg.object_of_connection (hconnection ▸ hk)
  by_cases hedge : kind = .edge
  · obtain rfl := TypeNode.mem_edge hcomplete hedge hf
    cases htarget
    exact hg.object_of_edge (hedge ▸ hk)
  rcases TypeNode.mem_fields hcomplete ⟨hconnection, hedge⟩ hf with hf | ⟨p, hp, hshows, hfield⟩
  · rw [TypeKind.shape_of_combining hf] at htarget
    cases htarget
  · obtain ⟨hrelated, hkind⟩ := TypeKind.target_of_fieldOf hfield htarget
    obtain rfl : kind = .object := hkind
    exact hg.object_of_relation hk hp hshows hrelated

end TypeRequest.Whole

end EntityGraph
