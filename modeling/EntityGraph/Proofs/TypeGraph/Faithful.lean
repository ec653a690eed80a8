import EntityGraph.Proofs.Annotations.Block
import EntityGraph.Proofs.Put
import EntityGraph.TypeGraph.Build

/-!
# Fields of built types

The fields of an object type show properties of its model as the catalog describes them, at every
moment of the construction: also while types are under construction, and after a failure.

* `TypeGraph.BuiltFrom` are the graphs that building types and root arguments leads to;
* `Building.Ensures` says that a step keeps an invariant of the graph, and what it answers;
* `TypeGraph.BuiltFrom.faithful` is the invariant of the built graphs.
-/

namespace EntityGraph

/-- A described property is found under its name. -/
theorem Catalog.property_of_describe {c : Catalog} {model : ModelId} {properties : List Property}
    {p : Property} (h : c.describe model = .ok properties) (hp : p ∈ properties) :
    c.property model p.name = .ok p := by
  have hnodup : (properties.map (·.name)).Nodup := by
    simp only [describe, bind_eq_ok] at h
    obtain ⟨d, -, h⟩ := h
    exact (Annotations.parse_eq_ok.1 h).2
  have hfind : properties.find? (·.name == p.name) = some p := by
    cases hq : properties.find? (·.name == p.name) with
    | none => simpa using List.find?_eq_none.1 hq p hp
    | some q =>
      have hname : q.name = p.name := by simpa using List.find?_some hq
      rw [List.inj_on_of_nodup_map hnodup (List.mem_of_find?_eq_some hq) hp hname]
  exact bind_eq_ok.2 ⟨properties, h, by rw [findProperty, hfind]; rfl⟩

/-- A known model has a definition. -/
theorem Catalog.exists_definition_of_contains {c : Catalog} {m : ModelId}
    (h : c.contains m = true) : ∃ d, c.definition m = .ok d := by
  obtain ⟨d, hd, hid⟩ := List.any_eq_true.1 h
  cases hfind : c.definitions.find? (·.id == m) with
  | none => exact absurd hid (List.find?_eq_none.1 hfind d hd)
  | some d' => exact ⟨d', by rw [definition, hfind]; rfl⟩

/-- A field shows a property of a model: a field that leads to entities of another model shows a
relation to that model, which is a list unless the field leads to one entity. -/
def FieldNode.Shows (c : Catalog) (model : ModelId) (f : FieldNode) : Prop :=
  ∃ p, c.property model f.name = .ok p ∧
    (∀ target, f.shape = .toOne target → p.target = some target ∧ p.isList = false) ∧
    ∀ target, f.shape = .toMany target ∨ f.shape = .connection target →
      p.target = some target ∧ p.isList = true

/-- The fields of the objects of a graph show properties of their models. -/
def TypeGraph.Faithful (c : Catalog) (g : TypeGraph) : Prop :=
  ∀ n ∈ g.nodes, n.key.kind = .object → ∀ f ∈ n.fields, f.Shows c n.key.model

/-- The graphs that are built from a catalog: types and arguments of root fields are asked for one
after the other, whether they can be built or not. -/
inductive TypeGraph.BuiltFrom (c : Catalog) : TypeGraph → Prop where
  | empty : BuiltFrom c .empty
  | node {g : TypeGraph} (k : TypeKey) : BuiltFrom c g → BuiltFrom c ((Building.node c k).run g).2
  | rootListArgs {g : TypeGraph} (m : ModelId) (options : ListOptions) :
    BuiltFrom c g → BuiltFrom c ((Building.rootListArgs c m options).run g).2

namespace Building

/-- A second step goes on from the graph that the first one leaves, unless that fails. -/
theorem run_bind {α β : Type} (a : Building α) (f : α → Building β) (g : TypeGraph) :
    (a >>= f).run g = match a.run g with
      | (.ok x, g) => (f x).run g
      | (.error e, g) => (.error e, g) := by
  change StateT.bind a.run (ExceptT.bindCont fun x => f x) g = _
  rw [StateT.bind]
  simp only [Bind.bind]
  rcases a.run g with ⟨r, g'⟩
  cases r <;> rfl

theorem exists_run_of_isOk {α : Type} {a : Building α} {g : TypeGraph}
    (h : (a.run g).1.isOk = true) : ∃ v, a.run g = (.ok v, (a.run g).2) := by
  obtain ⟨v, hv⟩ := exists_of_isOk h
  exact ⟨v, Prod.ext hv rfl⟩

/-- A step keeps an invariant of the graph, and its result has a property. -/
def Ensures {α : Type} (I : TypeGraph → Prop) (a : Building α) (P : α → Prop) : Prop :=
  ∀ g, I g → I (a.run g).2 ∧ ∀ x, (a.run g).1 = .ok x → P x

namespace Ensures

variable {α β : Type} {I : TypeGraph → Prop} {P : α → Prop} {Q : β → Prop}

theorem pure {x : α} (hx : P x) : Ensures I (Pure.pure x) P :=
  fun _ hg => ⟨hg, fun _ heq => Except.ok.inj heq ▸ hx⟩

theorem throw (e : Error) : Ensures I (MonadExcept.throw e : Building α) P :=
  fun _ hg => ⟨hg, fun _ heq => nomatch heq⟩

theorem ofExcept {x : Except Error α} (hx : ∀ a, x = .ok a → P a) :
    Ensures I (Building.ofExcept x) P := by
  cases x with
  | error e => exact throw e
  | ok a => exact pure (hx a rfl)

theorem get : Ensures I (MonadState.get : Building TypeGraph) I :=
  fun _ hg => ⟨hg, fun _ heq => Except.ok.inj heq ▸ hg⟩

theorem set {g : TypeGraph} (hg : I g) :
    Ensures I (MonadStateOf.set g : Building PUnit) fun _ => True :=
  fun _ _ => ⟨hg, fun _ _ => trivial⟩

theorem bind {a : Building α} {f : α → Building β} (ha : Ensures I a P)
    (hf : ∀ x, P x → Ensures I (f x) Q) : Ensures I (a >>= f) Q := by
  intro g hg
  obtain ⟨hI, hP⟩ := ha g hg
  have hrun := run_bind a f g
  rcases ha' : a.run g with ⟨r, g'⟩
  rw [ha'] at hrun hI hP
  cases r with
  | error e => exact hrun ▸ ⟨hI, fun _ heq => nomatch heq⟩
  | ok x => exact hrun ▸ hf x (hP x rfl) g' hI

/-- A step of whose result nothing is needed. -/
theorem seq {a : Building α} {f : α → Building β} (ha : Ensures I a fun _ => True)
    (hf : ∀ x, Ensures I (f x) Q) : Ensures I (a >>= f) Q :=
  ha.bind fun x _ => hf x

theorem done (x : α) : Ensures I (Pure.pure x) fun _ => True := pure trivial

theorem mono {P' : α → Prop} {a : Building α} (ha : Ensures I a P) (hP : ∀ x, P x → P' x) :
    Ensures I a P' :=
  fun g hg => ⟨(ha g hg).1, fun x hx => hP x ((ha g hg).2 x hx)⟩

theorem mapM {f : α → Building β} {l : List α} (hf : ∀ x ∈ l, Ensures I (f x) Q) :
    Ensures I (l.mapM f) (fun ys => ∀ y ∈ ys, Q y) := by
  induction l with
  | nil =>
    rw [List.mapM_nil]
    exact pure (by simp)
  | cons x l ih =>
    rw [List.mapM_cons]
    refine bind (hf x List.mem_cons_self) fun y hy => ?_
    refine bind (ih fun z hz => hf z (List.mem_cons_of_mem x hz)) fun ys hys => ?_
    exact pure (List.forall_mem_cons.2 ⟨hy, hys⟩)

end Ensures

section Fields

variable {I : TypeGraph → Prop} {build : TypeKey → Building TypeNode} {c : Catalog} {m : ModelId}
  (hbuild : ∀ k, Ensures I (build k) fun _ => True)

include hbuild

theorem ensures_typeOf (kind : TypeKind) : Ensures I (typeOf build m kind) fun _ => True :=
  .seq (hbuild _) fun _ => .done _

theorem ensures_listArgs (options : ListOptions) :
    Ensures I (listArgs build m options) fun _ => True := by
  unfold listArgs
  have hfilter := ensures_typeOf (m := m) hbuild .filter
  have horder := ensures_typeOf (m := m) hbuild .order
  dsimp only
  generalize (if options.paginate then [Argument.mk "limit" (.named "Int"),
    Argument.mk "offset" (.named "Int")] else []) = window
  split_ifs
  · exact .seq hfilter fun _ => .seq (.done _) fun _ => .seq horder fun _ => .seq (.done _) fun _ =>
      .done _
  · exact .seq hfilter fun _ => .seq (.done _) fun _ => .seq (.done _) fun _ => .done _
  · exact .seq (.done _) fun _ => .seq horder fun _ => .seq (.done _) fun _ => .done _
  · exact .seq (.done _) fun _ => .seq (.done _) fun _ => .done _

/-- The field of a described property shows it. -/
theorem ensures_objectField {p : Property} (hp : c.property m p.name = .ok p) :
    Ensures I (objectField build m p) (FieldNode.Shows c m) := by
  unfold objectField
  split
  · exact .pure ⟨p, hp, by simp, by simp⟩
  next target htarget =>
    have hlink : p.target = some target := by rw [Property.target, htarget]
    have htype : ∀ kind, Ensures I (typeOf build target kind) fun _ => True :=
      ensures_typeOf hbuild
    split_ifs with hlist hpaginated
    · refine .seq (htype _) fun type => .pure ⟨p, hp, ?_, by simp⟩
      rintro target ⟨⟩
      exact ⟨hlink, by simpa using hlist⟩
    · refine .seq (ensures_listArgs hbuild _) fun args => .seq (htype _) fun type =>
        .pure ⟨p, hp, by simp, ?_⟩
      rintro target (h | h)
      · cases h
      · cases h
        exact ⟨hlink, by simpa using hlist⟩
    · refine .seq (ensures_listArgs hbuild _) fun args => .seq (htype _) fun type =>
        .pure ⟨p, hp, by simp, ?_⟩
      rintro target (h | h)
      · cases h
        exact ⟨hlink, by simpa using hlist⟩
      · cases h
  · exact .throw _

theorem ensures_objectFields :
    Ensures I (objectFields build c m) fun fields => ∀ f ∈ fields, f.Shows c m := by
  unfold objectFields
  refine .bind (.ofExcept fun properties h => h) fun properties (hproperties : _ = _) => ?_
  exact .mapM fun p hp => ensures_objectField hbuild
    (Catalog.property_of_describe hproperties (List.mem_of_mem_filter hp))

/-- The fields of an object show properties; of those of other types nothing is said. -/
theorem ensures_fieldsOf (k : TypeKey) : Ensures I (fieldsOf build c k) fun fields =>
    k.kind = .object → ∀ f ∈ fields, f.Shows c k.model := by
  obtain ⟨m, kind⟩ := k
  have hdescribe : ∀ {m : ModelId}, Ensures I (Building.ofExcept (c.describe m)) fun _ => True :=
    .ofExcept fun _ _ => trivial
  have htype : ∀ {m kind}, Ensures I (typeOf build m kind) fun _ => True := ensures_typeOf hbuild _
  cases kind with
  | object => exact (ensures_objectFields hbuild).mono fun fields h _ => h
  | input =>
    refine Ensures.mono (P := fun _ => True) ?_ fun _ _ h => nomatch h
    refine .seq hdescribe fun properties => Ensures.mono (.mapM (Q := fun _ => True) fun p _ => ?_)
      fun _ _ => trivial
    unfold inputField
    split
    · exact .done _
    · exact .done _
    · exact .throw _
  | filter =>
    refine Ensures.mono (P := fun _ => True) ?_ fun _ _ h => nomatch h
    refine .seq hdescribe fun properties => .seq (Ensures.mono (.mapM (Q := fun _ => True)
      fun p _ => ?_) fun _ _ => trivial) fun _ => .done _
    unfold filterField
    split
    · exact .done _
    · exact .seq htype fun _ => .done _
    · exact .throw _
  | order =>
    refine Ensures.mono (P := fun _ => True) ?_ fun _ _ h => nomatch h
    refine .seq hdescribe fun properties => Ensures.mono (.mapM (Q := fun _ => True) fun p _ => ?_)
      fun _ _ => trivial
    unfold orderField
    split
    · exact .done _
    · exact .seq htype fun _ => .done _
    · exact .throw _
  | connection =>
    refine Ensures.mono (P := fun _ => True) ?_ fun _ _ h => nomatch h
    exact .seq htype fun _ => .done _
  | edge =>
    refine Ensures.mono (P := fun _ => True) ?_ fun _ _ h => nomatch h
    exact .seq htype fun _ => .done _

end Fields

variable {c : Catalog}

theorem ensures_register (k : TypeKey) :
    Ensures (TypeGraph.Faithful c) (register k) fun _ => True := by
  refine fun g hg => ⟨fun n hn hkind f hf => ?_, fun _ _ => trivial⟩
  rcases List.mem_append.1 hn with hn | hn
  · exact hg n hn hkind f hf
  · rw [List.mem_singleton.1 hn] at hf
    simp [TypeNode.fields] at hf

theorem ensures_complete {k : TypeKey} {fields : List FieldNode}
    (hfields : k.kind = .object → ∀ f ∈ fields, f.Shows c k.model) :
    Ensures (TypeGraph.Faithful c) (complete k fields) fun _ => True := by
  refine .bind .get fun g hg => ?_
  split
  · exact .throw _
  · refine .seq (.set fun n hn hkind f hf => ?_) fun _ => .done _
    obtain ⟨n', hn', rfl⟩ := List.mem_map.1 hn
    split_ifs at hkind hf ⊢
    · rcases mem_foldl_put hf with hf | hf
      · cases hf
      · exact hfields hkind f hf
    · exact hg n' hn' hkind f hf

/-- Building a type keeps the fields of objects faithful. -/
theorem ensures_nodeWithin (depth : Nat) (k : TypeKey) :
    Ensures (TypeGraph.Faithful c) (nodeWithin c depth k) fun _ => True := by
  induction depth generalizing k with
  | zero => exact .throw _
  | succ depth ih =>
    rw [nodeWithin]
    split_ifs
    · exact .throw _
    · refine .bind .get fun g _ => ?_
      split
      · exact .done _
      · refine .seq (ensures_register k) fun _ => ?_
        exact .bind (ensures_fieldsOf ih k) fun fields hfields => ensures_complete hfields

end Building

/-- The fields of the objects of a built graph show properties of their models. -/
theorem TypeGraph.BuiltFrom.faithful {c : Catalog} {g : TypeGraph} (h : g.BuiltFrom c) :
    g.Faithful c := by
  induction h with
  | empty => exact fun n hn => nomatch hn
  | node k _ ih => exact (Building.ensures_nodeWithin _ k _ ih).1
  | rootListArgs m options _ ih =>
    exact (Building.ensures_listArgs (fun k => Building.ensures_nodeWithin _ k) options _ ih).1

end EntityGraph
