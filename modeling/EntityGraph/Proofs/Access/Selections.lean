import EntityGraph.Proofs.Access.Mutations
import EntityGraph.Proofs.Relation.Pairs
import EntityGraph.Proofs.Relation.Restriction
import EntityGraph.Proofs.Resolve.Changes
import EntityGraph.Proofs.Run.Trace

/-!
# What selections are restricted by

Every selection that a resolver runs is one that the resolver needs by itself, of a table or by
keys, restricted by at most one filter of the client.

* `Service.Base` are the selections without a filter, and `Service.Selects` those with at most one;
* `Service.Vetted` are the filters which the policy allowed, and `Service.Planned` those of
  relations that are loaded ahead;
* `Service.Tells` says of each part of a resolver that its selections are restricted by such filters
  only: `tells_loaded` of loading, `tells_paginate` of lists, and so on.
-/

namespace EntityGraph

open Guard

/-- A selection in a request: one at the top, or one inside another. -/
inductive Selection.Inside (top : List Selection) : Selection → Prop where
  | top {s : Selection} : s ∈ top → Inside top s
  | child {s t : Selection} : Inside top s → t ∈ s.children → Inside top t

/-- Whatever its other arguments are, a list keeps the filter that was read. -/
theorem ListArgs.filter_of_rest {c : Catalog} {m : ModelId} {literals : List (String × Literal)}
    {filter : Option FilterExpr} {args : ListArgs} (h : (do
      let order ← match literals.lookup "order" with
        | some l => OrderExpr.parse c m l
        | .none => pure .none
      let limit ← parseCount "limit" (literals.lookup "limit")
      let offset ← parseCount "offset" (literals.lookup "offset")
      return (⟨filter, order, limit, offset⟩ : ListArgs)) = Except.ok args) :
    args.filter = filter := by
  cases ho : literals.lookup "order" with
  | none =>
    simp only [ho, bind_eq_ok, pure_eq_ok] at h
    obtain ⟨order, -, limit, -, offset, -, rfl⟩ := h
    rfl
  | some l =>
    simp only [ho, bind_eq_ok, pure_eq_ok] at h
    obtain ⟨order, -, limit, -, offset, -, rfl⟩ := h
    rfl

/-- The filter of a list was read from the argument of this name. -/
theorem ListArgs.lookup_of_parse_filter {c : Catalog} {m : ModelId}
    {literals : List (String × Literal)} {args : ListArgs} {f : FilterExpr}
    (h : parse c m literals = .ok args) (hf : args.filter = some f) :
    ∃ l, literals.lookup "filter" = some l ∧ FilterExpr.parse c m l = .ok f := by
  unfold parse at h
  cases hl : literals.lookup "filter" with
  | none =>
    rw [hl] at h
    cases hf.symm.trans (filter_of_rest h)
  | some l =>
    rw [hl] at h
    obtain ⟨g, hg, h⟩ := bind_eq_ok.1 h
    have hsome := hf.symm.trans (filter_of_rest h)
    split_ifs at hsome
    exact ⟨l, rfl, by rw [hg, Option.some.inj hsome]⟩

theorem ListArgs.exists_parse_filter {c : Catalog} {m : ModelId}
    {literals : List (String × Literal)} {args : ListArgs} {f : FilterExpr}
    (h : parse c m literals = .ok args) (hf : args.filter = some f) :
    ∃ l, FilterExpr.parse c m l = .ok f :=
  (lookup_of_parse_filter h hf).imp fun _ hl => hl.2

namespace Service

/-- The queries for the rows that hold some keys in a column by which a relation is stored. -/
inductive Keyed (sv : Service) : Query → Prop where
  | mk {m property r T key} (keys : List Datum) : sv.catalog.relation m property = .ok r →
    Column.of T key ∈ r.keyColumns → Keyed sv ((Query.all T).filter (.oneOf (Column.of T key) keys))

/-- The queries that resolvers need by themselves: for a table, for an entity, for the targets of an
owner, for the rows that hold some keys, and for the pairs of an owner. -/
inductive Base (sv : Service) : Query → Prop where
  | table {m T} : sv.catalog.table m = .ok T → Base sv (.all T)
  | entity {m T} (id : Int64) : sv.catalog.table m = .ok T → Base sv (Persist.findQuery T id)
  | related {m property r} {owner : Entity} {q} : sv.catalog.relation m property = .ok r →
    r.query owner = some q → Base sv q
  | keyed {q} : sv.Keyed q → Base sv q
  | paired {m property r pivot key} (owner : Int64) : sv.catalog.relation m property = .ok r →
    Column.of pivot key ∈ r.keyColumns → Base sv (Store.pairsQuery pivot key owner)

/-- A selection of what some query asks for, in some order and window, restricted by at most one
filter on a model; the filter is one that may be. -/
def Selects (sv : Service) (base : Query → Prop) (may : FilterExpr → ModelId → Prop) (s : Select) :
    Prop :=
  ∃ q, base q ∧ s.table = q.table ∧ (s.filters = q.filters ∨ ∃ f m clause, may f m ∧
    f.compile sv.catalog sv.maxDepth m = .ok clause ∧ s.filters = (q.filter clause).filters)

/-- A field that is declared to list a model lists another: the same, or the one to which the
relation of its name leads. -/
def Lists (sv : Service) (declared m : ModelId) : Prop :=
  declared = m ∨ ∃ (f : FieldNode) (owner : ModelId) (r : Relation), f.shape = .toMany declared ∧
    sv.catalog.relation owner f.name = .ok r ∧ r.target = m

/-- A filter that was read on a model was allowed: to filter the model by it, and each property that
it looks at, at any depth. -/
def Vetted (sv : Service) (caller : Caller) (seen : List LogEntry) (f : FilterExpr) (m : ModelId) :
    Prop :=
  ∃ declared l, sv.Lists declared m ∧ FilterExpr.parse sv.catalog declared l = .ok f ∧
    .check caller { plain .filter declared with filter := some f } true ∈ seen ∧
    ∀ ref, FilterExpr.Names sv.catalog declared f ref →
      .check caller (propertyCheck ref) true ∈ seen

/-- A filter belongs to a relation that is loaded ahead for a selection of a request, or for the
entities below its edges. -/
def Planned (sv : Service) (top : List Selection) (f : FilterExpr) : Prop :=
  ∃ t root nodes plan x, Selection.Inside top t ∧
    (nodes = [t.upTo sv.selectionDepth] ∨ nodes = (t.upTo sv.selectionDepth).descend ["node"]) ∧
    LoadPlan.ofSelections sv.catalog sv.graph root nodes = .ok plan ∧ x ∈ plan ∧
    x.2.filter = some f

/-- What a request may select in view of what it has logged: restricted by a filter that was
allowed, or ahead of its field. -/
def MaySelect (sv : Service) (caller : Caller) (top : List Selection) (seen : List LogEntry)
    (s : Select) : Prop :=
  sv.Selects sv.Base (sv.Vetted caller seen) s ∨
    sv.Selects sv.Keyed (fun f _ => sv.Planned top f) s

variable {sv : Service} {caller : Caller} {top : List Selection} {seen more : List LogEntry}
  {f : FilterExpr} {m : ModelId} {q q' : Query} {s : Select} {base : Query → Prop}
  {may : FilterExpr → ModelId → Prop}

theorem Vetted.append (h : sv.Vetted caller seen f m) : sv.Vetted caller (seen ++ more) f m := by
  obtain ⟨declared, l, hlists, hparse, hmodel, hnames⟩ := h
  refine ⟨declared, l, hlists, hparse, List.mem_append_left _ hmodel, fun ref href => ?_⟩
  exact List.mem_append_left _ (hnames ref href)

theorem Selects.append (h : sv.Selects base (sv.Vetted caller seen) s) :
    sv.Selects base (sv.Vetted caller (seen ++ more)) s := by
  obtain ⟨q, hq, htable, hfilters | ⟨f, m, clause, hmay, hclause, hfilters⟩⟩ := h
  · exact ⟨q, hq, htable, .inl hfilters⟩
  · exact ⟨q, hq, htable, .inr ⟨f, m, clause, hmay.append, hclause, hfilters⟩⟩

/-- Orders and windows do not matter. -/
theorem Selects.congr (h : sv.Selects base may q.toSelect) (htable : q'.table = q.table)
    (hfilters : q'.filters = q.filters) : sv.Selects base may q'.toSelect := by
  obtain ⟨q₀, hbase, htable', hfilters'⟩ := h
  refine ⟨q₀, hbase, htable.trans htable', ?_⟩
  rcases hfilters' with hsame | ⟨f, m, clause, hmay, hclause, hadded⟩
  · exact .inl (hfilters.trans hsame)
  · exact .inr ⟨f, m, clause, hmay, hclause, hfilters.trans hadded⟩

theorem selects_of_base (h : base q) : sv.Selects base may q.toSelect :=
  ⟨q, h, rfl, .inl rfl⟩

/-- A query that a resolver needs by itself has one condition at most. -/
theorem Base.length_filters_le (h : sv.Base q) : q.filters.length ≤ 1 := by
  have hfilter : ∀ (q : Query) clause, q.filters = [] → (q.filter clause).filters.length ≤ 1 := by
    intro q clause hq
    unfold Query.filter
    split_ifs <;> simp [hq]
  cases h with
  | table hT => exact Nat.zero_le 1
  | entity id hT => exact hfilter _ _ rfl
  | @related m property r owner q hr hq =>
    unfold Relation.query at hq
    cases hlink : r.link with
    | belongsTo key =>
      simp only [hlink] at hq
      split_ifs at hq
      cases hq
      exact hfilter _ _ rfl
    | hasOne key =>
      simp only [hlink] at hq
      cases hq
      exact hfilter _ _ rfl
    | hasMany key =>
      simp only [hlink] at hq
      cases hq
      exact hfilter _ _ rfl
    | belongsToMany pivot ownerKey relatedKey =>
      simp only [hlink] at hq
      cases hq
      exact hfilter _ _ (by rw [Query.join_eq]; rfl)
  | keyed h =>
    obtain ⟨keys, -, -⟩ := h
    exact hfilter _ _ rfl
  | paired owner hr hkey => exact hfilter _ _ rfl

/-- An order changes neither the table nor the conditions. -/
theorem Selects.sort {order : OrderExpr} {c : Catalog} {maxDepth : Nat}
    (h : sv.Selects base may q.toSelect) (hsort : q.sort c maxDepth m order = .ok q') :
    sv.Selects base may q'.toSelect := by
  obtain ⟨T, -, hat⟩ := bind_eq_ok.1 hsort
  obtain rfl := Except.ok.inj (((OrderExpr.applyAt_eq_ok hat).1 q).symm.trans hat)
  refine h.congr ?_ ?_
  · show (q.joinAll (order.joins c m T)).table = q.table
    rw [Query.joinAll_eq]
  · show (q.joinAll (order.joins c m T)).filters = q.filters
    rw [Query.joinAll_eq]

theorem selects_restrict (hbase : base q) (hmay : may f m)
    (h : q.restrict sv.catalog sv.maxDepth m f = .ok q') : sv.Selects base may q'.toSelect := by
  obtain ⟨clause, hclause, hq'⟩ := bind_eq_ok.1 h
  obtain rfl := pure_eq_ok.1 hq'
  refine ⟨q, hbase, ?_, .inr ⟨f, m, clause, hmay, hclause, rfl⟩⟩
  show (q.filter clause).table = q.table
  unfold Query.filter
  split_ifs <;> rfl

theorem selects_refine {args : ListArgs} (hbase : base q)
    (hmay : ∀ f, args.filter = some f → may f m)
    (h : args.refine sv.catalog sv.maxDepth m q = .ok q') : sv.Selects base may q'.toSelect := by
  rw [ListArgs.refine_eq_bind] at h
  obtain ⟨q₁, hfilter, horder⟩ := bind_eq_ok.1 h
  have hq₁ : sv.Selects base may q₁.toSelect := by
    cases hf : args.filter with
    | none =>
      rw [hf] at hfilter
      obtain rfl := pure_eq_ok.1 hfilter
      exact selects_of_base hbase
    | some f =>
      rw [hf] at hfilter
      exact selects_restrict hbase (hmay f hf) hfilter
  cases ho : args.order with
  | none =>
    rw [ho] at horder
    obtain rfl := pure_eq_ok.1 horder
    exact hq₁
  | some order =>
    rw [ho] at horder
    exact hq₁.sort horder

/-- An action of a request runs no selections but those that the request may run. -/
abbrev Tells (sv : Service) (caller : Caller) (top : List Selection) (seen : List LogEntry)
    {α : Type} (a : Action α) (P : List LogEntry → α → Prop) : Prop :=
  Action.Logs (sv.MaySelect caller top) seen a P

/-- Once the filter that was read on a model is allowed, it is vetted for the lists that the model
is declared for. -/
theorem tells_requireFilter {declared : ModelId} {l : Literal}
    (hparse : FilterExpr.parse sv.catalog declared l = .ok f) :
    sv.Tells caller top seen (sv.guard.requireFilter caller declared f) fun seen _ =>
      ∀ m, sv.Lists declared m → sv.Vetted caller seen f m := by
  have hagrees := FilterExpr.agrees_of_parse declared l f hparse
  refine Action.Logs.bind (Action.Logs.require _ _ _) fun more _ hmodel => ?_
  have hrefs : sv.Tells caller top (seen ++ more)
      ((f.references declared).forM fun ref => sv.guard.require caller (propertyCheck ref))
      fun seen _ => ∀ ref ∈ f.references declared, .check caller (propertyCheck ref) true ∈ seen :=
    Action.Logs.forM (fun _ _ _ h => List.mem_append_left _ h) fun _ _ _ =>
      Action.Logs.require _ _ _
  refine (hrefs.frame fun more' => List.mem_append_left more' hmodel).mono ?_
  rintro seen _ ⟨hmodel, hrefs⟩ m hlists
  exact ⟨declared, l, hlists, hparse, hmodel, fun ref href =>
    hrefs ref ((FilterExpr.mem_references hagrees).2 href)⟩

theorem tells_query (h : sv.MaySelect caller top seen q.toSelect) :
    sv.Tells caller top seen (Action.query q) fun _ _ => True :=
  Action.Logs.select h

theorem tells_find {T : String} (hT : sv.catalog.table m = .ok T) (id : Int64) :
    sv.Tells caller top seen (Persist.find m T id) fun _ _ => True := by
  have hquery : sv.Tells caller top seen (Action.query (Persist.findQuery T id)) fun _ _ => True :=
    tells_query (.inl (selects_of_base (.entity id hT)))
  exact Action.Logs.bind hquery fun _ _ _ => Action.Logs.pure trivial

section Loading

/-- The filter of a list that is loaded by keys is vetted or planned. -/
def MayLoad (sv : Service) (caller : Caller) (top : List Selection) (seen : List LogEntry)
    (args : ListArgs) (m : ModelId) : Prop :=
  (∀ f, args.filter = some f → sv.Vetted caller seen f m) ∨
    ∀ f, args.filter = some f → sv.Planned top f

variable {property : String} {r : Relation} {args : ListArgs}

theorem MayLoad.append (h : sv.MayLoad caller top seen args m) :
    sv.MayLoad caller top (seen ++ more) args m := by
  rcases h with hvetted | hplanned
  · exact .inl fun f hf => (hvetted f hf).append
  · exact .inr hplanned

section

variable (hr : sv.catalog.relation m property = .ok r)

include hr

theorem tells_targets {key : String} (keys : List Datum)
    (hkey : Column.of r.targetTable key ∈ r.keyColumns)
    (hargs : sv.MayLoad caller top seen args r.target) :
    sv.Tells caller top seen (sv.loader.targets r args key keys) fun _ _ => True := by
  unfold Loader.targets
  split_ifs
  · exact Action.Logs.pure trivial
  · refine Action.Logs.ofExcept_bind fun q hq => ?_
    refine Action.Logs.bind (tells_query ?_) fun _ _ _ => Action.Logs.pure trivial
    have hkeyed : sv.Keyed ((Query.all r.targetTable).filter
        (.oneOf (Column.of r.targetTable key) keys)) := .mk keys hr hkey
    rcases hargs with hvetted | hplanned
    · exact .inl (selects_refine (.keyed hkeyed) hvetted hq)
    · exact .inr (selects_refine hkeyed hplanned hq)

theorem tells_links {pivot ownerKey relatedKey : String} (keys : List Datum)
    (hkey : Column.of pivot ownerKey ∈ r.keyColumns) :
    sv.Tells caller top seen (Loader.links pivot ownerKey relatedKey keys) fun _ _ => True := by
  unfold Loader.links
  split_ifs
  · exact Action.Logs.pure trivial
  · refine Action.Logs.bind (tells_query ?_) fun _ _ _ => Action.Logs.pure trivial
    exact .inl (selects_of_base (.keyed (.mk keys hr hkey)))

theorem tells_shares (owners : List Entity)
    (hargs : sv.MayLoad caller top seen args r.target) :
    sv.Tells caller top seen (sv.loader.shares r args owners) fun _ _ => True := by
  unfold Loader.shares
  cases hlink : r.link with
  | belongsTo key =>
    have hkey : Column.of r.targetTable idName ∈ r.keyColumns := by
      simp [Relation.keyColumns, hlink, idColumn]
    exact Action.Logs.bind (tells_targets hr _ hkey hargs) fun _ _ _ => Action.Logs.pure trivial
  | hasOne key =>
    have hkey : Column.of r.targetTable key ∈ r.keyColumns := by
      simp [Relation.keyColumns, hlink]
    exact Action.Logs.bind (tells_targets hr _ hkey hargs) fun _ _ _ => Action.Logs.pure trivial
  | hasMany key =>
    have hkey : Column.of r.targetTable key ∈ r.keyColumns := by
      simp [Relation.keyColumns, hlink]
    exact Action.Logs.bind (tells_targets hr _ hkey hargs) fun _ _ _ => Action.Logs.pure trivial
  | belongsToMany pivot ownerKey relatedKey =>
    have hpair : Column.of pivot ownerKey ∈ r.keyColumns := by
      simp [Relation.keyColumns, hlink]
    have hkey : Column.of r.targetTable idName ∈ r.keyColumns := by
      simp [Relation.keyColumns, hlink, idColumn]
    refine Action.Logs.bind (tells_links hr _ hpair) fun more pairs _ => ?_
    refine Action.Logs.bind (tells_targets hr _ hkey hargs.append) fun _ _ _ => ?_
    exact Action.Logs.pure trivial

end

theorem tells_load (owners : List Entity) (hargs : ∀ r,
    sv.catalog.relation m property = .ok r → sv.MayLoad caller top seen args r.target) :
    sv.Tells caller top seen (sv.loader.load m owners property args) fun _ _ => True :=
  Action.Logs.ofExcept_bind fun r hr =>
    Action.Logs.bind (tells_shares hr owners (hargs r hr)) fun _ _ _ => Action.Logs.pure trivial

end Loading

section Eager

variable {args : ListArgs} (hargs : ∀ f, args.filter = some f → sv.Planned top f)

include hargs

theorem tells_tryLoad (m : ModelId) (owners : List Entity) (property : String) :
    Logs (sv.MaySelect caller top) seen (sv.loader.tryLoad m owners property args)
      fun _ _ => True := by
  refine Logs.bind (tells_load owners fun r _ => .inr hargs) fun more result _ => ?_
  cases result <;> exact Logs.pure trivial

/-- Relations along a path are loaded as they are planned, or without any filter. -/
theorem tells_loadPath (path : List String) (m : ModelId) (owners : List Entity) :
    Logs (sv.MaySelect caller top) seen (sv.loader.loadPath m args owners path)
      fun _ _ => True := by
  induction path generalizing m owners seen with
  | nil => exact Logs.pure trivial
  | cons property rest ih =>
    cases rest with
    | nil => exact tells_tryLoad hargs m owners property
    | cons next rest =>
      rw [Loader.loadPath_cons_cons]
      -- after the first relation, loaded now or before, come those below it
      have hbelow : ∀ more, ∀ outcome : Loader.Outcome,
          Logs (sv.MaySelect caller top) (seen ++ more)
            (sv.loader.passOn m args property next rest outcome) fun _ _ => True := by
        intro more outcome
        unfold Loader.passOn
        split
        · exact Logs.pure trivial
        · split
          · exact Logs.pure trivial
          · exact Logs.bind (ih _ _) fun _ _ _ => Logs.pure trivial
      split_ifs
      · have hnone : ∀ f, ListArgs.none.filter = some f → sv.Planned top f := by
          intro f hf
          cases hf
        exact Logs.bind (tells_tryLoad hnone m owners property) fun more outcome _ =>
          hbelow more outcome
      · exact Logs.bind (Logs.pure (P := fun _ _ => True) trivial) fun more outcome _ =>
          hbelow more outcome

end Eager

theorem tells_loadEach (paths : List (String × ListArgs)) (m : ModelId) (owners : List Entity)
    (hpaths : ∀ x ∈ paths, ∀ f, x.2.filter = some f → sv.Planned top f) :
    Logs (sv.MaySelect caller top) seen (sv.loader.loadEach m owners paths) fun _ _ => True := by
  induction paths generalizing owners seen with
  | nil => exact Logs.pure trivial
  | cons path rest ih =>
    refine Logs.bind (tells_loadPath (hpaths path List.mem_cons_self) _ m owners)
      fun more outcome _ => ?_
    obtain ⟨owners, result⟩ := outcome
    cases result with
    | error e => exact Logs.pure trivial
    | ok _ => exact ih owners fun x hx => hpaths x (List.mem_cons_of_mem path hx)

theorem tells_loaded (plan : LoadPlan) (m : ModelId) (owners : List Entity)
    (hplan : ∀ x ∈ plan, ∀ f, x.2.filter = some f → sv.Planned top f) :
    sv.Tells caller top seen (sv.loader.loaded m owners plan) fun _ _ => True := by
  refine Action.Logs.bind (Action.Logs.lift (tells_loadEach _ m owners fun x hx =>
    hplan x (List.mem_mergeSort.1 hx))) fun more outcome _ => ?_
  obtain ⟨owners, result⟩ := outcome
  exact Action.Logs.ofExcept_bind fun _ _ => Action.Logs.pure trivial

/-- What is loaded ahead for selections of a request is restricted by planned filters only. -/
theorem tells_eagerLoad {t : Selection} {nodes : List Selection} (m : ModelId)
    (entities : List Entity) (ht : Selection.Inside top t)
    (hnodes : nodes = [t.upTo sv.selectionDepth] ∨
      nodes = (t.upTo sv.selectionDepth).descend ["node"]) :
    sv.Tells caller top seen (sv.eagerLoad m entities nodes) fun _ _ => True := by
  refine Action.Logs.ofExcept_bind fun root _ => Action.Logs.ofExcept_bind fun plan hplan => ?_
  split_ifs
  · exact Action.Logs.pure trivial
  · exact tells_loaded plan m entities fun x hx f hf =>
      ⟨t, root, nodes, plan, x, ht, hnodes, hplan, hx, hf⟩

theorem tells_withRelations {t : Selection} (m : ModelId) (e : Entity)
    (ht : Selection.Inside top t) :
    sv.Tells caller top seen (sv.withRelations m e t) fun _ v => ∀ x ∈ v, ∃ e, x = .entity e := by
  refine Action.Logs.bind (tells_eagerLoad m [e] ht (.inl rfl)) fun _ loaded _ =>
    Action.Logs.pure fun x hx => ?_
  obtain ⟨e, -, rfl⟩ := Option.map_eq_some_iff.1 hx
  exact ⟨e, rfl⟩

section Lists

/-- A list is ready if its query may be run. -/
def Ready (sv : Service) (caller : Caller) (seen : List LogEntry) (p : Paginator) : Prop :=
  ∀ q, p.source = .query q → sv.Selects sv.Base (sv.Vetted caller seen) q.toSelect

variable {p p' : Paginator}

theorem Ready.sort {order : Option OrderExpr} (hp : sv.Ready caller seen p)
    (h : p.sort order = .ok p') : sv.Ready caller seen p' := by
  cases order with
  | none =>
    obtain rfl := Except.ok.inj h
    exact hp
  | some order =>
    obtain ⟨q, hq, h⟩ := bind_eq_ok.1 h
    obtain ⟨q', hsort, h⟩ := bind_eq_ok.1 h
    obtain rfl := pure_eq_ok.1 h
    intro q'' hq''
    cases hq''
    refine Selects.sort (hp q ?_) hsort
    unfold Paginator.sourceQuery at hq
    split at hq
    · rename_i q₀ hq₀
      rw [hq₀, Except.ok.inj hq]
    · cases hq

/-- The list of a base query, restricted by arguments that were read on its model, is ready. -/
theorem tells_paginate {source : ListSource} {args : ListArgs}
    {literals : List (String × Literal)} (hsource : ∀ q, source = .query q → sv.Base q)
    (hargs : ListArgs.parse sv.catalog m literals = .ok args) :
    sv.Tells caller top seen (sv.paginate caller m source args) fun seen p =>
      sv.Ready caller seen p := by
  unfold paginate Paginator.restricted
  have hplain : ∀ seen, sv.Ready caller seen (((Paginator.of sv.catalog sv.maxDepth m
      source).withLimit args.limit).withOffset args.offset) := fun seen q hq =>
    selects_of_base (hsource q hq)
  cases hf : args.filter with
  | none =>
    refine Action.Logs.bind (P := fun seen p => sv.Ready caller seen p) ?_ fun more p hp => ?_
    · exact Action.Logs.pure (hplain seen)
    · exact Action.Logs.of_ofExcept fun p' hp' => hp.sort hp'
  | some f =>
    obtain ⟨l, hparse⟩ := ListArgs.exists_parse_filter hargs hf
    refine Action.Logs.bind (P := fun seen p => sv.Ready caller seen p) ?_ fun more p hp => ?_
    -- an empty filter restricts nothing, every other one does so once it is allowed
    · unfold Paginator.restrict
      split_ifs
      · exact Action.Logs.pure (hplain seen)
      · refine Action.Logs.bind (tells_requireFilter hparse) fun more _ hvetted => ?_
        refine Action.Logs.ofExcept_bind fun q hq => Action.Logs.ofExcept_bind fun q' hq' =>
          Action.Logs.pure fun q'' hq'' => ?_
        cases hq''
        refine selects_restrict (hsource q ?_) (hvetted m (.inl rfl)) hq'
        cases source with
        | query q₀ => rw [Except.ok.inj hq]
        | materialized entities => cases hq
    · exact Action.Logs.of_ofExcept fun p' hp' => hp.sort hp'

theorem tells_count (hp : sv.Ready caller seen p) :
    sv.Tells caller top seen p.count fun _ _ => True := by
  unfold Paginator.count
  split
  · rename_i q hq
    exact Action.Logs.count (.inl ((hp q hq).congr rfl rfl))
  · exact Action.Logs.pure trivial

theorem tells_get (hp : sv.Ready caller seen p) :
    sv.Tells caller top seen p.get fun _ _ => True := by
  unfold Paginator.get
  split
  · exact Action.Logs.pure trivial
  · split
    · rename_i q hq
      exact Action.Logs.bind (tells_query (.inl ((hp q hq).congr rfl rfl))) fun _ _ _ =>
        Action.Logs.pure trivial
    · exact Action.Logs.pure trivial

end Lists

end Service

/-- A value whose lists are all of some kind. -/
inductive FieldValue.Of (kind : Paginator → Prop) : FieldValue → Prop where
  | literal (l : Literal) : Of kind (.literal l)
  | entity (e : Entity) : Of kind (.entity e)
  | paginator {p : Paginator} : kind p → Of kind (.paginator p)
  | list {items : List FieldValue} : (∀ v ∈ items, Of kind v) → Of kind (.list items)

theorem FieldValue.Of.mono {kind kind' : Paginator → Prop} {v : FieldValue} (h : v.Of kind)
    (himp : ∀ p, kind p → kind' p) : v.Of kind' := by
  induction h with
  | literal l => exact .literal l
  | entity e => exact .entity e
  | paginator hp => exact .paginator (himp _ hp)
  | list _ ih => exact .list ih

theorem FieldValue.of_items? {kind : Paginator → Prop} {v : FieldValue} {items : List FieldValue}
    (h : v.Of kind) (hitems : v.items? = some items) : ∀ x ∈ items, x.Of kind := by
  intro x hx
  cases h with
  | literal l =>
    unfold FieldValue.items? at hitems
    split at hitems
    · rename_i heq
      cases heq
    · cases hitems
      obtain ⟨l, -, rfl⟩ := List.mem_map.1 hx
      exact .literal l
    · cases hitems
  | entity e => cases hitems
  | paginator _ => cases hitems
  | list hall =>
    cases hitems
    exact hall x hx

theorem FieldValue.of_entities {kind : Paginator → Prop} (es : List Entity) :
    (FieldValue.entities es).Of kind := by
  refine .list fun v hv => ?_
  obtain ⟨e, -, rfl⟩ := List.mem_map.1 hv
  exact .entity e

namespace Service

variable {sv : Service} {caller : Caller} {top : List Selection} {seen more : List LogEntry}
  {m : ModelId} {t : Selection}

/-- The value of a field, if it has one, is ready for the fields below it. -/
def Yields (sv : Service) (caller : Caller) (seen : List LogEntry) (v : Option FieldValue) :
    Prop :=
  ∀ x ∈ v, x.Of (sv.Ready caller seen)

theorem Ready.append {p : Paginator} (h : sv.Ready caller seen p) :
    sv.Ready caller (seen ++ more) p :=
  fun q hq => (h q hq).append

theorem yields_some {x : FieldValue} (h : x.Of (sv.Ready caller seen)) :
    sv.Yields caller seen (some x) := by
  intro y hy
  cases hy
  exact h

theorem yields_none : sv.Yields caller seen none := by
  intro y hy
  cases hy

theorem yields_of_entity {v : Option FieldValue} (h : ∀ x ∈ v, ∃ e, x = .entity e) :
    sv.Yields caller seen v := by
  intro x hx
  obtain ⟨e, rfl⟩ := h x hx
  exact .entity e

end Service

end EntityGraph
