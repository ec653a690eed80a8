import EntityGraph.Proofs.Faults.Execution
import EntityGraph.Proofs.Faults.Reached
import EntityGraph.Proofs.TypeGraph.Names
import EntityGraph.Sample.Shelf

/-!
# Faults in requests

An interface is built only where types can be built from the properties of all models that are
needed. What the types do not show is found when a request comes to it.

* `Schema.supports_of_assemble` says that the fields of a schema have what their resolvers rely on;
* `Interface.Covers.answers` says that fields answer values which fit their types, if entities that
  may stand for the model of one type may stand for that of another type of its name;
* `SchemaConfig.faults_explained` is the result for all interfaces.
-/

namespace EntityGraph

variable {S : ModelId → Prop} {known known' : Error → Prop} {stands : ModelId → Entity → Prop}

/-- What a field of an object relies on: that a generated field belongs to a type of the graph which
has the name of the object, and that the model of a root field has its types. Both have the name of
the type of the graph to which they lead. -/
def Service.Supports (sv : Service) (S : ModelId → Prop) (type : String) (f : SchemaField) : Prop :=
  match f.resolver with
  | .generated node => f.type.Names sv.graph node.shape.key? ∧
    ∃ n ∈ sv.graph.nodes, n.key.kind.isInput = false ∧ n.name = type ∧ node ∈ n.fields
  | .root field _ => f.type.Names sv.graph field.key? ∧ sv.Serves S field
  | .constant _ => True

/-- A resolved root field names the type of the graph that it answers. -/
theorem RootPlan.names {g : TypeGraph} {p : RootPlan}
    (h : p.type.base = p.field.key?.elim "Boolean" TypeKey.typeName)
    (hkeys : ∀ k, p.field.key? = some k → k ∈ g.keys) : p.type.Names g p.field.key? := by
  cases hk : p.field.key? with
  | none => exact .inl ⟨.boolean, h.trans (by rw [hk]; rfl)⟩
  | some k => exact ⟨hkeys k hk, h.trans (by rw [hk]; rfl)⟩

namespace Schema

variable {sv : Service} {plans : List RootPlan} {custom : CustomParts} {fields : List SchemaField}
  {type : String}

/-- Hand-written fields rely on nothing, and root fields on the types of their models. -/
theorem supports_rootFields
    (hplans : ∀ p ∈ plans, p.type.Names sv.graph p.field.key? ∧ sv.Serves S p.field)
    (ok : RootPlan → Bool) (texts : List String) :
    ∀ f ∈ (plans.filter ok).map rootField ++ texts.map CustomParts.field, sv.Supports S type f := by
  intro f hf
  rcases List.mem_append.1 hf with hf | hf
  · obtain ⟨p, hp, rfl⟩ := List.mem_map.1 hf
    exact hplans p (List.mem_filter.1 hp).1
  · obtain ⟨text, -, rfl⟩ := List.mem_map.1 hf
    trivial

/-- The fields of the objects of a schema have what their resolvers rely on. -/
theorem supports_of_assemble
    (hnames : ∀ n ∈ sv.graph.nodes, n.key.kind.isInput = false → ∀ f ∈ n.fields,
      f.type.Names sv.graph f.shape.key?)
    (hplans : ∀ p ∈ plans, p.type.Names sv.graph p.field.key? ∧ sv.Serves S p.field)
    (h : .object type fields ∈ (assemble sv.graph plans custom).types) :
    ∀ f ∈ fields, sv.Supports S type f := by
  have hmem := (mem_foldl_put h).resolve_left List.not_mem_nil
  simp only [List.mem_append] at hmem
  rcases hmem with ((((hmem | hmem) | hmem) | hmem) | hmem) | hmem
  · simp [SchemaType.builtIn] at hmem
  · simp [SchemaType.shared, SchemaType.ofScalarFilter] at hmem
  -- only objects have resolvers: of the generated types, those in a role that is no input
  · obtain ⟨n, hn, heq⟩ := List.mem_map.1 hmem
    unfold SchemaType.ofNode at heq
    split_ifs at heq with hinput
    obtain ⟨rfl, rfl⟩ := SchemaType.object.inj heq
    intro f hf
    obtain ⟨node, hnode, rfl⟩ := List.mem_map.1 hf
    have hinput := Bool.eq_false_iff.2 hinput
    exact ⟨hnames n hn hinput node hnode, n, hn, hinput, rfl, hnode⟩
  · obtain ⟨-, rfl⟩ := SchemaType.object.inj (List.mem_singleton.1 hmem)
    exact supports_rootFields hplans _ _
  · split_ifs at hmem
    · cases hmem
    · obtain ⟨-, rfl⟩ := SchemaType.object.inj (List.mem_singleton.1 hmem)
      exact supports_rootFields hplans _ _
  · obtain ⟨type, -, heq⟩ := List.mem_map.1 hmem
    obtain ⟨-, rfl⟩ := SchemaType.object.inj heq
    exact List.forall_mem_singleton.2 trivial

end Schema

/-- A value fits a name if it may stand for the models of all objects of a graph that have it. -/
def TypeGraph.Fits (g : TypeGraph) (stands : ModelId → Entity → Prop) (type : String)
    (v : FieldValue) : Prop :=
  ∀ n ∈ g.nodes, n.key.kind.isInput = false → n.name = type → v.At stands n.key.model

/-- What may stand for the model of an object of a graph may stand for that of another one of the
same name. -/
def TypeGraph.Agrees (g : TypeGraph) (stands : ModelId → Entity → Prop) : Prop :=
  ∀ k ∈ g.keys, k.kind.isInput = false → ∀ k' ∈ g.keys, k'.kind.isInput = false →
    k.typeName = k'.typeName → ∀ e, stands k.model e → stands k'.model e

theorem FieldShape.target_eq (shape : FieldShape) : shape.target = shape.key?.map (·.model) := by
  cases shape <;> rfl

theorem FieldShape.isInput_of_key? {shape : FieldShape} {k : TypeKey} (h : shape.key? = some k) :
    k.kind.isInput = false := by
  cases shape <;> cases h <;> rfl

theorem RootField.isInput_of_key? {f : RootField} {k : TypeKey} (h : f.key? = some k) :
    k.kind.isInput = false := by
  cases f with
  | all m options =>
    cases h
    split_ifs <;> rfl
  | _ => cases h <;> rfl

/-- What answers a field that leads to a type of the graph fits the name of the type. -/
theorem TypeGraph.Agrees.fits {g : TypeGraph} (hg : g.Agrees stands) {t : TypeRef}
    {k? : Option TypeKey} (hnames : t.Names g k?)
    (hinput : ∀ k, k? = some k → k.kind.isInput = false) {v : FieldValue}
    (hv : v.Answers stands (k?.map (·.model))) : g.Fits stands t.base v := by
  intro n hn houtput hname
  cases k? with
  | none =>
    obtain ⟨l, rfl⟩ := hv
    exact .literal l
  | some k =>
    obtain ⟨hk, hbase⟩ := hnames
    exact FieldValue.At.mono hv
      (hg k hk (hinput k rfl) n.key (List.mem_map_of_mem hn) houtput (hbase.symm.trans hname.symm))

namespace Interface

/-- What requests rely on: a service with known faults, and a schema whose fields have what their
resolvers rely on. -/
structure Covers (i : Interface) (S : ModelId → Prop) (known : Error → Prop) : Prop where
  service : i.service.graph.Covers i.service.catalog S known
  supports : ∀ {type fields}, .object type fields ∈ i.schema.types →
    ∀ f ∈ fields, i.service.Supports S type f

variable {i : Interface}

theorem Covers.mono (h : i.Covers S known) (hknown : ∀ e, known e → known' e) :
    i.Covers S known' where
  service := ⟨h.service.catalog.mono hknown, h.service.leads, h.service.relates⟩
  supports := h.supports

/-- Every field, be it generated, a root field or a constant, answers what fits its type. -/
theorem Covers.answers (h : i.Covers S known)
    (hstands : i.service.catalog.Standing S known stands)
    (hagrees : i.service.graph.Agrees stands) :
    i.Answers known (Selection.Readable i.service.catalog known)
      (i.service.graph.Fits stands) where
  literal _ l := fun _ _ _ _ => .literal l
  items hv hitems := fun x hx n hn houtput hname => (hv n hn houtput hname).items hitems x hx
  valueOf {type fields f parent caller t} htype hf hparent ht := by
    have hsupports := h.supports htype f hf
    unfold valueOf
    unfold Service.Supports at hsupports
    cases hresolver : f.resolver with
    | generated node =>
      rw [hresolver] at hsupports
      obtain ⟨hnames, n, hn, houtput, hname, hnode⟩ := hsupports
      have hvalue : Action.Ends known (i.service.resolveField caller node parent t)
          (Shown (FieldValue.Answers stands node.shape.target)) :=
        Service.ends_resolveField h.service hstands hn hnode (hparent n hn houtput hname) ht
      rw [FieldShape.target_eq] at hvalue
      exact hvalue.mono fun v hv x hx =>
        hagrees.fits hnames (fun _ => FieldShape.isInput_of_key?) (hv x hx)
    | root field input =>
      rw [hresolver] at hsupports
      obtain ⟨hnames, hserves⟩ := hsupports
      exact (Service.ends_resolveRoot h.service hstands hserves input ht).mono fun v hv x hx =>
        hagrees.fits hnames (fun _ => RootField.isInput_of_key?) (hv x hx)
    | constant answer => exact .pure (shown_some fun _ _ _ _ => .literal _)

/-- A request finds known faults only. -/
theorem known_of_execute (h : i.Covers S known) (r : Request) (w : World) (e : Error)
    (he : .resolver e ∈ ((i.execute r).run w).1.errors) (hfault : e.isFault = true) : known e := by
  have ht : Tolerant fun e => e.isFault = true → known e := by
    intro e hinternal hfault
    rw [Error.isFault_of_isInternal hinternal] at hfault
    cases hfault
  have hcovers : i.Covers S fun e => e.isFault = true → known e :=
    h.mono fun _ hknown _ => hknown
  -- entities are among the known models, and neither models nor types are told apart
  have hanswers := hcovers.answers (Catalog.standing_among ht) fun _ _ _ _ _ _ _ _ he => he
  have hread : ∀ s ∈ r.selections, s.Each (Selection.Readable i.service.catalog _) := fun s hs =>
    Selection.each_of_inside (fun _ _ => Selection.readable_of_tolerant ht _ _) s (.top hs)
  exact hanswers.known_of_execute hread w _ he (Error.isOrdinary_of_isFault hfault) hfault

end Interface

namespace SchemaConfig

variable {config : SchemaConfig} {c : Catalog} {custom : CustomParts} {policy : Policy}
  {i : Interface}

/-- An interface serves the graph that its root fields leave. -/
theorem interface_eq_ok (h : config.interface c custom policy = .ok i) :
    ∃ plans, (RootPlan.buildAll c config.vocabulary config.roots).run .empty =
      (.ok plans, i.service.graph) ∧ i.service.catalog = c ∧
        i.schema = Schema.assemble i.service.graph plans custom := by
  obtain ⟨built, hbuilt, h⟩ := bind_eq_ok.1 h
  obtain rfl := pure_eq_ok.1 h
  unfold SchemaConfig.build at hbuilt
  split at hbuilt
  · cases hbuilt
  next plans graph hrun =>
    dsimp only at hbuilt
    split_ifs at hbuilt
    obtain rfl := Except.ok.inj hbuilt
    exact ⟨plans, hrun, rfl, rfl⟩

/-- Requests to an interface come to the models that can be reached from its types, and find the
faults there. -/
theorem covers_reached (h : config.interface c custom policy = .ok i) :
    TypeRequest.Whole c (config.roots.flatMap RootField.asked) i.service.graph ∧
      i.Covers (c.Reached i.service.graph) (c.Explains i.service.graph) := by
  obtain ⟨plans, hrun, hcatalog, hschema⟩ := interface_eq_ok h
  obtain ⟨hg, hplans⟩ := RootPlan.whole_of_buildAll hrun
  refine ⟨hg, hcatalog ▸ hg.covers_reached, fun {type fields} hobject => ?_⟩
  rw [hschema] at hobject
  refine Schema.supports_of_assemble (fun n hn houtput f hf => ?_) (fun p hp => ?_) hobject
  · have hnames := (hg.names_field hn hf).1
    rwa [TypeKey.referred, houtput, if_neg Bool.false_ne_true] at hnames
  · obtain ⟨hroot, hname⟩ := hplans p hp
    exact ⟨RootPlan.names hname fun k hk => hg.mem_keys_of_asked hroot
      (RootField.key?_mem_asked hk), hg.serves hcatalog rfl hroot⟩

/-- Where the types of all root fields can be built, every field of an object that shows a relation
has a property behind it, and the relation is resolved if its kind fits the field. A kind that does
not fit comes up in requests, as do the annotations of models without types; no other fault of the
models does, and none of an unknown model or an unsupported type. -/
theorem faults_explained (c : Catalog) (config : SchemaConfig) :
    (∀ plans g, (RootPlan.buildAll c config.vocabulary config.roots).run .empty = (.ok plans, g) →
      ∀ n ∈ g.nodes, n.key.kind = .object →
      ∀ f ∈ n.fields, ∀ target, f.shape.related = some target →
        ∃ d p, c.definition n.key.model = .ok d ∧ c.property n.key.model f.name = .ok p ∧
          ((d.kindOf p).isToOne = f.shape.isToOne →
            ∃ r, c.relation n.key.model f.name = .ok r ∧ r.target = target ∧
              r.link.isToOne = f.shape.isToOne) ∧
          ((d.kindOf p).isToOne ≠ f.shape.isToOne → c.relation n.key.model f.name =
            .error (.metadata n.key.model f.name .cardinality))) ∧
    ∀ custom policy i, config.interface c custom policy = .ok i → ∀ r w e,
      .resolver e ∈ ((i.execute r).run w).1.errors →
        e.code ∈ ["METADATA_PARSE", "UNSUPPORTED_TYPE", "UNKNOWN_MODEL"] →
          e.code = "METADATA_PARSE" ∧ c.Explains i.service.graph e := by
  constructor
  · intro plans g hrun n hn hkind f hf target htarget
    obtain ⟨hg, -⟩ := RootPlan.whole_of_buildAll hrun
    exact TypeNode.relation_of_mem (hg.complete n hn) hkind hf htarget
  · intro custom policy i hi r w e he hcode
    obtain ⟨hg, hcovers⟩ := covers_reached hi
    have hexplained := Interface.known_of_execute hcovers r w _ he (Error.isFault_iff.2 hcode)
    exact ⟨Catalog.code_of_explains hg hexplained, hexplained⟩

open Sample.Shelf

/-- The configuration of an interface that shows books. -/
def viewBooks : SchemaConfig :=
  { SchemaConfig.default with roots := [.view book] }

/-- The request for the author of the first book. -/
def authorship : Request :=
  ⟨false, none, [⟨"book", "book", [("id", .int 1)],
    [⟨"author", "author", [], [⟨"name", "name", [], []⟩]⟩]⟩]⟩

/-- Whether an error is found in the declarations of a model. -/
def ofMetadata : FieldError → Bool
  | .resolver e => e.code == "METADATA_PARSE"
  | .misfit => false

/-- Books which are declared to have many authors can be shown, but the author of a book cannot. -/
theorem exists_misdeclared : ∃ i e,
    viewBooks.interface misdeclaredCatalog .none Policy.allowAll = .ok i ∧
      .resolver e ∈ ((i.execute authorship).run ⟨store, []⟩).1.errors ∧
      e.code = "METADATA_PARSE" := by
  have hruns : ((viewBooks.interface misdeclaredCatalog .none Policy.allowAll).toOption.any fun i =>
      ((i.execute authorship).run ⟨store, []⟩).1.errors.any ofMetadata) = true := by
    decide +kernel
  obtain ⟨i, hi, herrors⟩ := (Option.any_eq_true _ _).1 hruns
  obtain ⟨e, he, hmetadata⟩ := List.any_eq_true.1 herrors
  cases e with
  | misfit => cases hmetadata
  | resolver e => exact ⟨i, e, eq_ok_of_toOption hi, he, beq_iff_eq.1 hmetadata⟩

/-- Whether a field of an object shows one author by a relation which is not resolved. -/
def isMisfit (n : TypeNode) (f : FieldNode) : Bool :=
  n.key.kind == .object && f.shape.related == some author && f.shape.isToOne
    && !(misdeclaredCatalog.relation n.key.model f.name).isOk

/-- The object of books shows one author, and the relation behind this field does not fit. -/
theorem exists_misfit : ∃ plans g, ∃ n ∈ g.nodes, ∃ f ∈ n.fields,
    (RootPlan.buildAll misdeclaredCatalog .english [.view book]).run .empty = (.ok plans, g) ∧
      n.key.kind = .object ∧ f.shape.related = some author ∧ f.shape.isToOne = true ∧
      (misdeclaredCatalog.relation n.key.model f.name).isOk = false := by
  have hruns : (((RootPlan.buildAll misdeclaredCatalog .english [.view book]).run .empty).1.isOk &&
      ((RootPlan.buildAll misdeclaredCatalog .english [.view book]).run .empty).2.nodes.any
        fun n => n.fields.any (isMisfit n)) = true := by
    decide +kernel
  obtain ⟨hok, hany⟩ := Bool.and_eq_true_iff.1 hruns
  obtain ⟨n, hn, hfields⟩ := List.any_eq_true.1 hany
  obtain ⟨f, hf, hmisfit⟩ := List.any_eq_true.1 hfields
  obtain ⟨plans, hplans⟩ := Building.exists_run_of_isOk hok
  refine ⟨plans, _, n, hn, f, hf, hplans, ?_⟩
  simpa [isMisfit, and_assoc] using hmisfit

/-- The author of a book is not resolved because its kind does not fit, and the request for it fails
with a fault that is explained. -/
theorem faults_explained_misdeclared :
    (∃ plans g, ∃ n ∈ g.nodes, ∃ f ∈ n.fields,
      (RootPlan.buildAll misdeclaredCatalog .english [.view book]).run .empty = (.ok plans, g) ∧
        f.shape.related = some author ∧ misdeclaredCatalog.relation n.key.model f.name =
          .error (.metadata n.key.model f.name .cardinality)) ∧
    ∃ i e, viewBooks.interface misdeclaredCatalog .none Policy.allowAll = .ok i ∧
      .resolver e ∈ ((i.execute authorship).run ⟨store, []⟩).1.errors ∧
      e.code = "METADATA_PARSE" ∧ misdeclaredCatalog.Explains i.service.graph e := by
  obtain ⟨hrelations, hrequests⟩ := faults_explained misdeclaredCatalog viewBooks
  constructor
  · obtain ⟨plans, g, n, hn, f, hf, hrun, hkind, hrelated, -, hfails⟩ := exists_misfit
    obtain ⟨d, p, -, -, hfits, hmisfits⟩ := hrelations plans g hrun n hn hkind f hf author hrelated
    refine ⟨plans, g, n, hn, f, hf, hrun, hrelated, hmisfits fun heq => ?_⟩
    obtain ⟨r, hr, -⟩ := hfits heq
    rw [hr] at hfails
    cases hfails
  · obtain ⟨i, e, hi, he, hcode⟩ := exists_misdeclared
    exact ⟨i, e, hi, he, hrequests _ _ i hi authorship _ e he (by simp [hcode])⟩

/-- Misdeclared relations are not found when types are built: a field of a built type may show a
relation that is not resolved, and a request may fail for that reason. -/
theorem not_faults_found_early :
    (¬ ∀ (c : Catalog) (config : SchemaConfig) plans g,
      (RootPlan.buildAll c config.vocabulary config.roots).run .empty = (.ok plans, g) →
        ∀ n ∈ g.nodes, n.key.kind = .object →
        ∀ f ∈ n.fields, ∀ target, f.shape.related = some target →
          ∃ r, c.relation n.key.model f.name = .ok r ∧ r.link.isToOne = f.shape.isToOne) ∧
    ¬ ∀ (c : Catalog) (config : SchemaConfig) custom policy i,
      config.interface c custom policy = .ok i → ∀ r w e,
        .resolver e ∈ ((i.execute r).run w).1.errors →
          e.code ∉ ["METADATA_PARSE", "UNSUPPORTED_TYPE", "UNKNOWN_MODEL"] := by
  constructor
  · intro h
    obtain ⟨plans, g, n, hn, f, hf, hrun, hkind, hrelated, -, hfails⟩ := exists_misfit
    obtain ⟨r, hr, -⟩ := h misdeclaredCatalog viewBooks plans g hrun n hn hkind f hf author hrelated
    rw [hr] at hfails
    cases hfails
  · intro h
    obtain ⟨i, e, hi, he, hcode⟩ := exists_misdeclared
    exact h misdeclaredCatalog viewBooks _ _ i hi authorship _ e he (by simp [hcode])

end SchemaConfig

end EntityGraph
