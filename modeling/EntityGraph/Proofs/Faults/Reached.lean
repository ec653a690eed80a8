import EntityGraph.Proofs.Faults.Roots
import EntityGraph.Proofs.Resolve.Inputs
import EntityGraph.Proofs.TypeGraph.Roots

/-!
# Models that requests come to

Building types describes the models that they need. A request may come further, along relations that
no type shows, and it asks for the kinds of relations, which no type shows either.

* `Catalog.Reached` are the models that requests can come to, and `Catalog.Explains` the faults that
  they can find there;
* `Catalog.covers_reached` says that these are all faults, and `TypeRequest.Whole.serves` that root
  fields have what their resolvers rely on.
-/

namespace EntityGraph

namespace Catalog

/-- The models that requests can come to: those of the types of a graph, and those behind their
relations, also behind relations which no type shows. -/
inductive Reached (c : Catalog) (g : TypeGraph) : ModelId → Prop where
  | type {k : TypeKey} : k ∈ g.keys → Reached c g k.model
  | relation {m target : ModelId} {name : String} {p : Property} : Reached c g m →
    c.property m name = .ok p → p.target = some target → Reached c g target

/-- The faults that requests can find: of a relation whose declared kind does not fit, and in the
annotations of a model without any type. To the latter leads a relation that no type shows, when it
bears the name before the dot in the name of one that is loaded ahead. -/
def Explains (c : Catalog) (g : TypeGraph) (e : Error) : Prop :=
  ∃ m, c.Reached g m ∧
    ((∃ name p, c.property m name = .ok p ∧ c.Misdeclared m p ∧ e = .metadata m name .cardinality) ∨
      (∀ kind, ⟨m, kind⟩ ∉ g.keys) ∧ c.describe m = .error e)

variable {c : Catalog} {g : TypeGraph} {m : ModelId} {asked : List TypeKey}

theorem contains_of_reached (hg : TypeRequest.Whole c asked g) (hm : c.Reached g m) :
    c.contains m = true := by
  cases hm with
  | type hk => exact hg.sound.known _ hk
  | relation _ hp htarget => exact (contains_of_property hp htarget).2

/-- A known model has no fault but in its annotations. -/
theorem code_of_describe (hm : c.contains m = true) {e : Error} (h : c.describe m = .error e) :
    e.code = "METADATA_PARSE" := by
  obtain ⟨d, hd⟩ := exists_definition_of_contains hm
  rw [describe, hd] at h
  obtain ⟨place, fault, rfl⟩ := Building.metadata_of_parseLines h
  rfl

theorem code_of_explains (hg : TypeRequest.Whole c asked g) {e : Error} (h : c.Explains g e) :
    e.code = "METADATA_PARSE" := by
  obtain ⟨m, hm, ⟨name, p, -, -, rfl⟩ | ⟨-, hdescribe⟩⟩ := h
  · rfl
  · exact code_of_describe (contains_of_reached hg hm) hdescribe

/-- Relations do not lead out of the models that can be reached, and a model with a type is
described already. -/
theorem covers_reached (hg : TypeRequest.Whole c asked g) :
    c.Covers (c.Reached g) (c.Explains g) where
  contains _ hm := .inl (contains_of_reached hg hm)
  describe m e hm he := by
    -- whatever type the model had, its fields could not have been built
    refine ⟨m, hm, .inr ⟨fun kind hk => ?_, he⟩⟩
    obtain ⟨properties, hproperties⟩ := hg.exists_describe hk
    cases hproperties.symm.trans he
  fits m name p hm hp hmisdeclared := ⟨m, hm, .inl ⟨name, p, hp, hmisdeclared, rfl⟩⟩
  closed _ _ _ _ hm hp htarget := .relation hm hp htarget

end Catalog

theorem TypeGraph.exists_object {g : TypeGraph} {m : ModelId} (h : ⟨m, .object⟩ ∈ g.keys) :
    ∃ n, g.object m = .ok n := by
  cases hfind : g.find? ⟨m, .object⟩ with
  | none => exact absurd h (find?_eq_none.1 hfind)
  | some n => exact ⟨n, by rw [object, hfind]; rfl⟩

/-- What leads to entities is a relation of an object, the edges of a connection or the entity of an
edge. -/
theorem TypeNode.Complete.target_cases {c : Catalog} {n : TypeNode} {f : FieldNode}
    {target : ModelId} (hn : n.Complete c) (hf : f ∈ n.fields)
    (htarget : f.shape.target = some target) :
    n.key.kind = .object ∧ f.shape.related = some target ∨
      n.key.kind = .connection ∧ f.shape = .edges target ∧ target = n.key.model ∨
      n.key.kind = .edge ∧ f.shape = .node target ∧ target = n.key.model := by
  by_cases hconnection : n.key.kind = .connection
  · rcases TypeNode.mem_connection hn hconnection hf with rfl | rfl <;> cases htarget
    exact .inr (.inl ⟨hconnection, rfl, rfl⟩)
  by_cases hedge : n.key.kind = .edge
  · obtain rfl := TypeNode.mem_edge hn hedge hf
    cases htarget
    exact .inr (.inr ⟨hedge, rfl, rfl⟩)
  rcases TypeNode.mem_fields hn ⟨hconnection, hedge⟩ hf with hf | ⟨p, -, -, hfield⟩
  · rw [TypeKind.shape_of_combining hf] at htarget
    cases htarget
  · obtain ⟨hp, hkind⟩ := TypeKind.target_of_fieldOf hfield htarget
    refine .inl ⟨hkind, ?_⟩
    rw [hkind] at hfield
    cases htype : p.type with
    | model t =>
      obtain rfl : t = target := by simpa [Property.target, htype] using hp
      simp only [TypeKind.fieldOf, htype, Except.ok.injEq] at hfield
      exact hfield ▸ (TypeKind.shape_relationField p t).1
    | _ => simp [Property.target, htype] at hp

/-- A property with a field of an input is a scalar or a relation. -/
theorem TypeKind.scalar_or_model_of_fieldOf {m : ModelId} {p : Property} {f : FieldNode}
    (h : TypeKind.input.fieldOf m p = .ok f) :
    (∃ kind, p.type = .scalar kind) ∨ ∃ target, p.type = .model target := by
  cases htype : p.type with
  | scalar kind => exact .inl ⟨kind, rfl⟩
  | model target => exact .inr ⟨target, rfl⟩
  | _ => simp [fieldOf, htype] at h

namespace TypeRequest.Whole

variable {c : Catalog} {g : TypeGraph} {m : ModelId} {asked : List TypeKey}

theorem leads_reached (hg : Whole c asked g) : g.Leads (c.Reached g) := by
  intro n hn f hf target htarget
  have hk := hg.object_of_target hn hf htarget
  exact ⟨.type hk, TypeGraph.exists_object hk⟩

theorem relates (hg : Whole c asked g) : g.Relates c where
  relation n hn f hf target htarget := by
    rcases (hg.complete n hn).target_cases hf (FieldShape.target_of_related htarget) with
      ⟨hkind, -⟩ | ⟨-, hshape, -⟩ | ⟨-, hshape, -⟩
    · exact TypeNode.exists_relation (hg.complete n hn) hkind hf htarget
    · rw [hshape] at htarget
      cases htarget
    · rw [hshape] at htarget
      cases htarget
  own n hn f hf target hshape := by
    have htarget : f.shape.target = some target := by
      rcases hshape with hshape | hshape <;> rw [hshape] <;> rfl
    rcases (hg.complete n hn).target_cases hf htarget with
      ⟨-, hrelated⟩ | ⟨-, -, hown⟩ | ⟨-, -, hown⟩
    · rcases hshape with hshape | hshape <;> rw [hshape] at hrelated <;> cases hrelated
    · exact hown
    · exact hown

/-- Requests find the faults of a graph at the models that they can come to. -/
theorem covers_reached (hg : Whole c asked g) : g.Covers c (c.Reached g) (c.Explains g) :=
  ⟨Catalog.covers_reached hg, hg.leads_reached, hg.relates⟩

/-- Where the inputs of a model have a type, its properties can be set. -/
theorem settable (hg : Whole c asked g) (hk : ⟨m, .input⟩ ∈ g.keys) : Changes.Settable c m := by
  intro name p hp
  obtain ⟨hproperty, hshows⟩ := TypeGraph.writable_eq_ok.1 hp
  obtain ⟨n, -, hkey, -, hcomplete⟩ := hg.exists_node hk
  obtain ⟨⟨m, kind⟩, built⟩ := n
  obtain ⟨rfl, rfl⟩ := TypeKey.mk.inj hkey
  obtain ⟨f, -, hfield, -⟩ :=
    TypeNode.exists_declared hcomplete ⟨nofun, nofun⟩ hproperty hshows
  exact TypeKind.scalar_or_model_of_fieldOf hfield

theorem mem_keys_of_asked {roots : List RootField} (hg : Whole c (roots.flatMap RootField.asked) g)
    {f : RootField} (hf : f ∈ roots) {k : TypeKey} (hk : k ∈ f.asked) : k ∈ g.keys :=
  (hg.exact k).2 ⟨k, List.mem_flatMap.2 ⟨f, hf, hk⟩, .refl⟩

/-- A root field has the types that its resolver relies on. -/
theorem serves {roots : List RootField} (hg : Whole c (roots.flatMap RootField.asked) g)
    {sv : Service} (hcatalog : sv.catalog = c) (hgraph : sv.graph = g) {f : RootField}
    (hf : f ∈ roots) : sv.Serves (c.Reached g) f := by
  have hkeys : ∀ k ∈ f.asked, k ∈ g.keys := fun k => hg.mem_keys_of_asked hf
  have hobject := hkeys _ f.object_mem_asked
  subst hcatalog hgraph
  refine ⟨.type hobject, TypeGraph.exists_object hobject, ?_⟩
  rintro ⟨m, rfl | rfl⟩
  · exact hg.settable (hkeys _ (List.mem_cons_of_mem _ List.mem_cons_self))
  · exact hg.settable (hkeys _ (List.mem_cons_of_mem _ List.mem_cons_self))

end TypeRequest.Whole

end EntityGraph
