import EntityGraph.Proofs.Faults.Loading

/-!
# Faults in resolvers

A field of an object that may stand for a model resolves to values that may stand for the model to
which the field leads, and finds no other faults than the known ones.

* `FieldValue.At` says that a value holds entities and lists which may stand for a model;
* `Service.ends_paginate` and `Service.ends_eagerLoad` are about lists and what is loaded ahead;
* `Service.ends_resolveField` is the result, one case for each kind of field.
-/

namespace EntityGraph

/-- The entities of a list may stand for a model, also those that are still to be selected. -/
structure Paginator.At (stands : ModelId → Entity → Prop) (m : ModelId) (p : Paginator) :
    Prop where
  fresh : ∀ record, stands m (.of p.model record)
  entries : ∀ entities, p.entries = some entities → ∀ e ∈ entities, stands m e
  source : ∀ entities, p.source = .materialized entities → ∀ e ∈ entities, stands m e

/-- The entities and lists in a value may stand for a model. -/
inductive FieldValue.At (stands : ModelId → Entity → Prop) (m : ModelId) : FieldValue → Prop where
  | literal (l : Literal) : At stands m (.literal l)
  | entity {e : Entity} : stands m e → At stands m (.entity e)
  | paginator {p : Paginator} : p.At stands m → At stands m (.paginator p)
  | list {items : List FieldValue} : (∀ v ∈ items, At stands m v) → At stands m (.list items)

/-- A value answers a field that leads to a model, or to none: then it is a literal. -/
def FieldValue.Answers (stands : ModelId → Entity → Prop) (target : Option ModelId)
    (v : FieldValue) : Prop :=
  match target with
  | some m => v.At stands m
  | none => ∃ l, v = .literal l

/-- The relation that shows the targets of an owner has a query for them, unless it leads to one
entity. -/
theorem Relation.exists_query {r : Relation} (h : r.link.isToOne = false) (owner : Entity) :
    ∃ q, r.query owner = some q := by
  obtain ⟨property, ownerTable, target, targetTable, link⟩ := r
  cases link with
  | belongsTo key => cases h
  | hasOne key => cases h
  | hasMany key => exact ⟨_, rfl⟩
  | belongsToMany pivot ownerKey relatedKey => exact ⟨_, rfl⟩

section

variable {c : Catalog} {S : ModelId → Prop} {known : Error → Prop}
  {stands : ModelId → Entity → Prop} {m : ModelId}

theorem FieldValue.At.items {v : FieldValue} {items : List FieldValue} (h : v.At stands m)
    (hitems : v.items? = some items) : ∀ x ∈ items, x.At stands m := by
  intro x hx
  cases h with
  | literal l =>
    cases l with
    | list ls =>
      cases hitems
      obtain ⟨l, -, rfl⟩ := List.mem_map.1 hx
      exact .literal l
    | _ => cases hitems
  | entity _ => cases hitems
  | paginator _ => cases hitems
  | list hall =>
    cases hitems
    exact hall x hx

theorem Paginator.At.mono {p : Paginator} {m' : ModelId} (h : p.At stands m)
    (hstands : ∀ e, stands m e → stands m' e) : p.At stands m' :=
  ⟨fun record => hstands _ (h.fresh record),
    fun entities hentities e he => hstands e (h.entries entities hentities e he),
    fun entities hsource e he => hstands e (h.source entities hsource e he)⟩

theorem FieldValue.At.mono {v : FieldValue} {m' : ModelId} (h : v.At stands m)
    (hstands : ∀ e, stands m e → stands m' e) : v.At stands m' := by
  induction h with
  | literal l => exact .literal l
  | entity he => exact .entity (hstands _ he)
  | paginator hp => exact .paginator (hp.mono hstands)
  | list _ ih => exact .list ih

theorem FieldValue.at_entities {entities : List Entity} (h : ∀ e ∈ entities, stands m e) :
    (FieldValue.entities entities).At stands m := by
  refine .list fun v hv => ?_
  obtain ⟨e, he, rfl⟩ := List.mem_map.1 hv
  exact .entity (h e he)

/-- A field that has a value has one that meets a condition. -/
def Shown (P : FieldValue → Prop) (v : Option FieldValue) : Prop :=
  ∀ x, v = some x → P x

theorem shown_some {P : FieldValue → Prop} {x : FieldValue} (h : P x) : Shown P (some x) := by
  rintro _ ⟨⟩
  exact h

theorem shown_none {P : FieldValue → Prop} : Shown P none :=
  fun _ h => nomatch h

namespace Paginator

variable {p : Paginator}

/-- A list of entities of a model before it is filtered and ordered: there is a query to restrict,
unless internal errors do not matter. -/
structure Restrictable (c : Catalog) (known : Error → Prop) (stands : ModelId → Entity → Prop)
    (m : ModelId) (p : Paginator) : Prop where
  catalog : p.catalog = c
  model : p.model = m
  holds : p.At stands m
  source : Tolerant known ∨ ∃ q, p.source = .query q

theorem Restrictable.withQuery (hp : p.Restrictable c known stands m) (q : Query)
    (filter : Option FilterExpr) (order : Option OrderExpr) :
    { p with source := .query q, filter, order }.Restrictable c known stands m :=
  ⟨hp.catalog, hp.model, ⟨hp.holds.fresh, hp.holds.entries, fun _ h => nomatch h⟩, .inr ⟨q, rfl⟩⟩

theorem ends_sourceQuery (hp : p.Restrictable c known stands m) {e : Error}
    (he : e.isInternal = true) : Ends known (p.sourceQuery e) fun _ => True := by
  unfold sourceQuery
  split
  · exact .pure trivial
  next entities hsource =>
    rcases hp.source with ht | ⟨q, hq⟩
    · exact .fail (ht e he)
    · cases hq.symm.trans hsource

theorem ends_requireFilter (g : Guard) (caller : Caller) (m : ModelId) (f : FilterExpr) :
    Action.Ends known (g.requireFilter caller m f) fun _ => True :=
  .bind (.require _ _ _) fun _ _ => .forM fun _ _ => .require _ _ _

theorem ends_restrict (h : c.Covers S known) (hm : S m) (hp : p.Restrictable c known stands m)
    (g : Guard) (caller : Caller) (f : FilterExpr) :
    Action.Ends known (p.restrict g caller f) (Restrictable c known stands m) := by
  obtain rfl := hp.catalog
  obtain rfl := hp.model
  unfold restrict
  split_ifs
  · exact .pure hp
  · exact .bind (ends_requireFilter g caller _ f) fun _ _ =>
      .ofExcept_bind (ends_sourceQuery hp rfl) fun q _ _ =>
        .ofExcept_bind (Query.ends_restrict h hm _ f q) fun q' _ _ => .pure (hp.withQuery q' _ _)

theorem ends_sort (hp : p.Restrictable c known stands m) {args : ListArgs}
    (hargs : args.Sorts c known m) : Ends known (p.sort args.order) (At stands m) := by
  obtain rfl := hp.catalog
  obtain rfl := hp.model
  cases horder : args.order with
  | none => exact .pure hp.holds
  | some order =>
    exact (ends_sourceQuery hp rfl).bind fun q _ _ => (hargs order horder _ q).bind fun q' _ _ =>
      .pure (hp.withQuery q' _ _).holds

theorem ends_count : Action.Ends known p.count fun _ => True := by
  unfold count
  split
  · exact .count _
  · exact .pure trivial

theorem ends_get (hp : p.At stands m) :
    Action.Ends known p.get fun entities => ∀ e ∈ entities, stands m e := by
  unfold get
  split
  next entities hentries => exact .pure (hp.entries entities hentries)
  next =>
    split
    next =>
      refine .bind (.query _) fun records _ => .pure fun e he => ?_
      obtain ⟨record, -, rfl⟩ := List.mem_map.1 he
      exact hp.fresh record
    next entities hsource =>
      exact .pure fun e he => hp.source entities hsource e (Loader.mem_of_mem_paginate he)

end Paginator

namespace Service

variable {sv : Service} {caller : Caller} {t : Selection}
  (h : sv.graph.Covers sv.catalog S known) (hstands : sv.catalog.Standing S known stands)

include h hstands

/-- The list of a source that a client restricts. -/
theorem ends_paginate (hm : S m) {source : ListSource} {args : ListArgs}
    (hargs : args.Sorts sv.catalog known m) (hquery : Tolerant known ∨ ∃ q, source = .query q)
    (hsource : ∀ entities, source = .materialized entities → ∀ e ∈ entities, stands m e) :
    Action.Ends known (sv.paginate caller m source args) (Paginator.At stands m) := by
  have hplain : (((Paginator.of sv.catalog sv.maxDepth m source).withLimit args.limit).withOffset
      args.offset).Restrictable sv.catalog known stands m :=
    ⟨rfl, rfl, ⟨hstands.fresh hm, (fun _ he => nomatch he), hsource⟩, hquery⟩
  unfold paginate Paginator.restricted
  cases args.filter with
  | none =>
    exact .bind (P := Paginator.Restrictable sv.catalog known stands m) (.pure hplain)
      fun p hp => .ofExcept (p.ends_sort hp hargs)
  | some f =>
    exact .bind (Paginator.ends_restrict h.catalog hm hplain sv.guard caller f)
      fun p hp => .ofExcept (p.ends_sort hp hargs)

theorem ends_eagerLoad (hm : S m) (hobject : ∃ n, sv.graph.object m = .ok n)
    {entities : List Entity} (hentities : ∀ e ∈ entities, stands m e)
    {selections : List Selection}
    (hselections : ∀ s ∈ selections, s.Each (Selection.Readable sv.catalog known)) :
    Action.Ends known (sv.eagerLoad m entities selections) fun loaded =>
      ∀ e ∈ loaded, stands m e := by
  obtain ⟨root, hroot⟩ := hobject
  obtain ⟨hmem, hkey⟩ := TypeGraph.object_eq_ok hroot
  have hplan := LoadPlan.ends_ofSelections h hmem hselections
  rw [hkey] at hplan
  unfold eagerLoad
  rw [hroot]
  refine .ofExcept_bind (P := fun _ => True) trivial fun _ heq _ => ?_
  cases heq
  refine .ofExcept_bind hplan fun plan _ hsorts => ?_
  split_ifs
  · exact .pure hentities
  · exact Loader.ends_loaded (l := sv.loader) h.catalog hstands hm hsorts hentities

section Fields

variable {f : FieldNode} {target : ModelId} {e : Entity}

omit hstands in
theorem ends_resolveScalar (hm : S e.model) :
    Action.Ends known (sv.resolveScalar caller f e) (Shown (FieldValue.Answers stands none)) :=
  .bind (.require _ _ _) fun _ _ => .ofExcept_bind (P := fun _ => True)
    ((Catalog.ends_definition h.catalog hm).bind fun _ _ _ => .pure trivial)
    fun _ _ _ => .pure (shown_some ⟨_, rfl⟩)

theorem ends_loadOne (hm : S e.model) (htarget : S target) (property : String) :
    Action.Ends known (sv.loadOne e property target) fun found =>
      ∀ t, found = some t → stands target t := by
  refine .ofExcept_bind (Catalog.ends_relation h.catalog hm) fun r _ _ => ?_
  split
  · exact .pure fun _ ht => nomatch ht
  · exact .bind (.query _) fun records _ => .pure fun t ht =>
      hstands.ofRecords htarget records t (List.mem_of_head? ht)

/-- The targets of an owner are loaded along the relation of its own model. -/
theorem ends_loadMany {property : String} (he : stands m e)
    (hlead : sv.catalog.LeadsTo m property target) (htarget : S target) {args : ListArgs}
    (hargs : args.Read sv.catalog target) :
    Action.Ends known (sv.loadMany e property args) fun targets =>
      ∀ t ∈ targets, stands target t := by
  have hm := hstands.model he
  have hrelation : Ends known (sv.catalog.relation e.model property) fun r => S r.target :=
    Catalog.ends_relation h.catalog hm
  have howner : ∀ o ∈ [Entity.of e.model e.attributes], stands e.model o :=
    List.forall_mem_singleton.2 (hstands.fresh hm _)
  refine .bind (Loader.ends_load (l := sv.loader) h.catalog hstands hm howner fun r hr => ?_)
    fun loaded ⟨hloaded, r, hr⟩ => ?_
  · exact hargs.sorts h.catalog htarget (hrelation.of_ok hr) (hstands.relation he hlead hr).2
  · split
    next targets hmany =>
      obtain ⟨owner, howner, hfound⟩ := Option.bind_eq_some_iff.1 hmany
      exact .pure fun t ht => (hstands.relation he hlead hr).1 t (hstands.behind
        (hloaded owner (List.mem_of_head? howner)) (Catalog.leadsTo_of_relation hr) hfound t ht)
    next => exact .pure fun _ ht => nomatch ht

omit h hstands in
theorem ends_showOne {related : Option Entity}
    (hrelated : ∀ t, related = some t → stands target t) :
    Action.Ends known (do
      match related with
      | none => return none
      | some related =>
        sv.guard.requireView caller related
        return some (.entity related)) (Shown (FieldValue.At stands target)) := by
  cases related with
  | none => exact .pure shown_none
  | some t => exact .bind (.require _ _ _) fun _ _ => .pure (shown_some (.entity (hrelated t rfl)))

theorem ends_resolveToOne (he : stands m e) (hlead : sv.catalog.LeadsTo m f.name target)
    (htarget : S target) :
    Action.Ends known (sv.resolveToOne caller f target e)
      (Shown (FieldValue.At stands target)) := by
  refine .bind (.require _ _ _) fun _ _ => ?_
  split
  next loaded hloaded =>
    refine .bind (P := fun found => ∀ t, found = some t → stands target t) (.pure fun t ht => ?_)
      fun related hrelated => ends_showOne hrelated
    exact hstands.behind he hlead hloaded t (Option.mem_toList.2 ht)
  next =>
    exact .bind (ends_loadOne h hstands (hstands.model he) htarget f.name)
      fun related hrelated => ends_showOne hrelated

omit h hstands in
theorem ends_showMany {related : List Entity} (hrelated : ∀ t ∈ related, stands target t) :
    Action.Ends known (do return some (.entities (← sv.guard.viewable caller related)))
      (Shown (FieldValue.At stands target)) :=
  .bind (.viewable _ _ _) fun _ hshown => .pure
    (shown_some (FieldValue.at_entities fun e he => hrelated e (hshown e he)))

/-- Targets are found where they were loaded before, or loaded now. -/
theorem ends_findMany {property : String} (he : stands m e)
    (hlead : sv.catalog.LeadsTo m property target) (htarget : S target) {args : ListArgs}
    (hargs : args.Read sv.catalog target) :
    Action.Ends known (do
      let related ← match e.relationWith property args with
        | some (.many loaded) => pure loaded
        | _ => sv.loadMany e property args
      return some (.entities (← sv.guard.viewable caller related)))
      (Shown (FieldValue.At stands target)) := by
  split
  next loaded hloaded =>
    exact .bind (P := fun targets => ∀ t ∈ targets, stands target t)
      (.pure (hstands.behind he hlead (Entity.relation_of_relationWith hloaded)))
      fun related hrelated => ends_showMany hrelated
  next =>
    exact .bind (ends_loadMany h hstands he hlead htarget hargs)
      fun related hrelated => ends_showMany hrelated

theorem ends_resolveToMany (he : stands m e) (hlead : sv.catalog.LeadsTo m f.name target)
    (htarget : S target) (ht : t.Each (Selection.Readable sv.catalog known)) :
    Action.Ends known (sv.resolveToMany caller f target e t.args)
      (Shown (FieldValue.At stands target)) := by
  refine .bind (.require _ _ _) fun _ _ =>
    .ofExcept_bind (ListArgs.ends_parse h.catalog htarget t.args (ht.field.parse target))
      fun args _ hargs => ?_
  cases args.filter with
  | none => exact ends_findMany h hstands he hlead htarget hargs
  | some filter =>
    exact .bind (Paginator.ends_requireFilter _ _ _ _) fun _ _ =>
      ends_findMany h hstands he hlead htarget hargs

omit h in
/-- An owner without a key of its target has no query, but then the relation leads to one entity,
and is no connection. -/
theorem exists_query_of_connection (he : stands m e) {p : Property}
    (hp : sv.catalog.property m f.name = .ok p) (hlist : p.isList = true) {r : Relation}
    (hr : sv.catalog.relation e.model f.name = .ok r) :
    Tolerant known ∨ ∃ q, r.query e = some q := by
  rcases hstands.apart with hmodel | ⟨-, ht⟩
  · rw [hmodel m e he] at hr
    obtain ⟨-, -, p', hp', -, hkind⟩ := Catalog.relation_eq_ok hr
    obtain rfl := Except.ok.inj (hp.symm.trans hp')
    exact .inr (Relation.exists_query (hkind.trans (by rw [hlist]; rfl)) e)
  · exact .inl ht

theorem ends_resolveConnection (he : stands m e) (hlead : sv.catalog.LeadsTo m f.name target)
    (hquery : ∀ r, sv.catalog.relation e.model f.name = .ok r →
      Tolerant known ∨ ∃ q, r.query e = some q)
    (htarget : S target) (ht : t.Each (Selection.Readable sv.catalog known)) :
    Action.Ends known (sv.resolveConnection caller f target e t.args)
      (Shown (FieldValue.At stands target)) := by
  refine .bind (.require _ _ _) fun _ _ =>
    .ofExcept_bind (ListArgs.ends_parse h.catalog htarget t.args (ht.field.parse target))
      fun args _ hargs =>
    .ofExcept_bind (Catalog.ends_relation h.catalog (hstands.model he)) fun r hr _ =>
    .bind (ends_paginate h hstands htarget (hargs.sorts h.catalog htarget htarget (.inr rfl))
      ((hquery r hr).imp_right fun ⟨q, hq⟩ => ⟨q, by rw [hq]⟩) fun entities hentities => ?_)
      fun p hp => ?_
  -- an owner without a key has no query, but the empty list
  · split at hentities
    · cases hentities
    · cases hentities
      exact fun _ hx => nomatch hx
  · split
    next loaded hloaded =>
      refine .pure (shown_some (.paginator ⟨hp.fresh, ?_, hp.source⟩))
      rintro _ ⟨⟩
      exact hstands.behind he hlead (Entity.relation_of_relationWith hloaded)
    next => exact .pure (shown_some (.paginator hp))

omit h hstands in
theorem ends_resolveTotalCount (p : Paginator) :
    Action.Ends known (sv.resolveTotalCount caller p)
      (Shown (FieldValue.Answers stands none)) :=
  .bind (.require _ _ _) fun _ _ => .bind p.ends_count fun _ _ => .pure (shown_some ⟨_, rfl⟩)

theorem ends_resolveEdges {p : Paginator} (hp : p.At stands target) (htarget : S target)
    (hobject : ∃ n, sv.graph.object target = .ok n)
    (ht : t.Each (Selection.Readable sv.catalog known)) :
    Action.Ends known (sv.resolveEdges caller target p t)
      (Shown (FieldValue.At stands target)) := by
  refine .bind (.require _ _ _) fun _ _ => .bind (Paginator.ends_get hp) fun entries hentries => ?_
  split_ifs
  · exact .pure (shown_some (FieldValue.at_entities hentries))
  · exact .bind (ends_eagerLoad h hstands htarget hobject hentries ((ht.upTo _ t).descend _))
      fun _ hloaded => .pure (shown_some (FieldValue.at_entities hloaded))

/-- A field of a generated type finds no other faults, and what it answers may stand for the model
to which the field leads. -/
theorem ends_resolveField {n : TypeNode} (hn : n ∈ sv.graph.nodes) (hf : f ∈ n.fields)
    {parent : FieldValue} (hparent : parent.At stands n.key.model)
    (ht : t.Each (Selection.Readable sv.catalog known)) :
    Action.Ends known (sv.resolveField caller f parent t)
      (Shown (FieldValue.Answers stands f.shape.target)) := by
  have hentity : Ends known (entityParent f.name parent) (stands n.key.model) := by
    cases hparent with
    | entity he => exact .pure he
    | _ => exact .ordinary rfl
  have hpaginator : Ends known (paginatorParent f.name parent)
      (Paginator.At stands n.key.model) := by
    cases hparent with
    | paginator hp => exact .pure hp
    | _ => exact .ordinary rfl
  -- the field leads to a known model, by a property of the model to which its type belongs
  have hleads := h.leads n hn f hf
  have hrelates := h.relates.relation n hn f hf
  have hown := h.relates.own n hn f hf
  unfold resolveField
  cases hshape : f.shape with
  | scalar kind =>
    exact .ofExcept_bind hentity fun e _ he => ends_resolveScalar h (hstands.model he)
  | toOne target =>
    obtain ⟨htarget, -⟩ := hleads target (by rw [hshape]; rfl)
    obtain ⟨p, hp, hlead, -⟩ := hrelates target (by rw [hshape]; rfl)
    exact .ofExcept_bind hentity fun e _ he =>
      ends_resolveToOne h hstands he ⟨p, hp, hlead⟩ htarget
  | toMany target =>
    obtain ⟨htarget, -⟩ := hleads target (by rw [hshape]; rfl)
    obtain ⟨p, hp, hlead, -⟩ := hrelates target (by rw [hshape]; rfl)
    exact .ofExcept_bind hentity fun e _ he =>
      ends_resolveToMany h hstands he ⟨p, hp, hlead⟩ htarget ht
  | connection target =>
    obtain ⟨htarget, -⟩ := hleads target (by rw [hshape]; rfl)
    obtain ⟨p, hp, hlead, hone⟩ := hrelates target (by rw [hshape]; rfl)
    have hlist : p.isList = true := by simpa [hshape, FieldShape.isToOne] using hone
    exact .ofExcept_bind hentity fun e _ he => ends_resolveConnection h hstands he ⟨p, hp, hlead⟩
      (fun r hr => exists_query_of_connection hstands he hp hlist hr) htarget ht
  | totalCount => exact .ofExcept_bind hpaginator fun p _ _ => ends_resolveTotalCount p
  | edges target =>
    obtain ⟨htarget, hobject⟩ := hleads target (by rw [hshape]; rfl)
    obtain rfl := hown target (.inl hshape)
    exact .ofExcept_bind hpaginator fun p _ hp => ends_resolveEdges h hstands hp htarget hobject ht
  | node target =>
    obtain rfl := hown target (.inr hshape)
    exact .ofExcept_bind hentity fun e _ he => .pure (shown_some (.entity he))
  | input => exact .throw rfl

end Fields

end Service

end

end EntityGraph
