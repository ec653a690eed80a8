import EntityGraph.Proofs.Access.Selections
import EntityGraph.Proofs.Order.Levels
import EntityGraph.Proofs.Store.Hidden
import EntityGraph.Sample.Shelf

/-!
# Secret columns

The arguments of a list can name queryable properties only. So the rows that a list query finds, and
how many, do not depend on the cells of a column in which nothing but a write-only property stands.

* `Catalog.Secret` are such columns;
* `Query.Spares` says that a query does not read a column: the queries that resolvers need by
  themselves do not read a secret one, nor do the filters and orders that were read add it;
* `Service.secrets_unprobed` is the result.
-/

namespace EntityGraph

/-- A column stores a write-only scalar and nothing else: no other property, id or key. -/
structure Catalog.Secret (c : Catalog) (ref : Reference) (column : Column) : Prop where
  writeOnly : ∃ p kind T, c.property ref.model ref.property = .ok p ∧ p.type = .scalar kind ∧
    p.visibility = .writeOnly ∧ c.table ref.model = .ok T ∧ column = propertyColumn T ref.property
  alone : ∀ other p T, c.property other.model other.property = .ok p → p.target = none →
    c.table other.model = .ok T → column = propertyColumn T other.property → other = ref
  ne_id : ∀ T, column ≠ idColumn T
  notMem_keys : ∀ m name r, c.relation m name = .ok r → column ∉ r.keyColumns

/-- Whether a column is secret, as far as the models can be described. -/
def Catalog.isSecret (c : Catalog) (ref : Reference) (column : Column) : Bool :=
  (match c.property ref.model ref.property, c.table ref.model with
    | .ok p, .ok T => p.scalarKind.isSome && p.visibility = .writeOnly &&
      column = propertyColumn T ref.property
    | _, _ => false) && column.name ≠ idName &&
  c.definitions.all fun d => match c.describe d.id with
    | .ok properties => properties.all fun p =>
      (p.target.isSome || column ≠ propertyColumn d.tableName p.name || ⟨d.id, p.name⟩ = ref) &&
        match c.relation d.id p.name with
        | .ok r => column ∉ r.keyColumns
        | .error _ => true
    | .error _ => true

theorem Catalog.secret_of_isSecret {c : Catalog} {ref : Reference} {column : Column}
    (h : c.isSecret ref column = true) : c.Secret ref column := by
  simp only [isSecret, Bool.and_eq_true, decide_eq_true_eq, List.all_eq_true] at h
  obtain ⟨⟨hown, hid⟩, hall⟩ := h
  -- a described property is among those that were looked through
  have hdescribed : ∀ m name p, c.property m name = .ok p → p.name = name ∧
      ∃ d : ModelDefinition, c.table m = .ok d.tableName ∧ d.id = m ∧
      (p.target.isSome = true ∨ column ≠ propertyColumn d.tableName p.name ∨
        ⟨d.id, p.name⟩ = ref) ∧
      ∀ r, c.relation d.id p.name = .ok r → column ∉ r.keyColumns := by
    intro m name p hp
    obtain ⟨properties, hproperties, hfind⟩ := bind_eq_ok.1 hp
    obtain ⟨d, hd, hparse⟩ := bind_eq_ok.1 hproperties
    have hfound := elim_error_eq_ok.1 hd
    have hm : d.id = m := by simpa using List.find?_some hfound
    have hname := elim_error_eq_ok.1 hfind
    have hcheck := hall d (List.mem_of_find?_eq_some hfound)
    rw [hm, hproperties, List.all_eq_true] at hcheck
    have hp := hcheck p (List.mem_of_find?_eq_some hname)
    simp only [Bool.and_eq_true, Bool.or_eq_true, decide_eq_true_eq, or_assoc] at hp
    refine ⟨by simpa using List.find?_some hname, d, bind_eq_ok.2 ⟨d, hd, rfl⟩, hm,
      hm ▸ hp.1, fun r hr => ?_⟩
    have hkeys := hp.2
    rw [← hm, hr] at hkeys
    exact of_decide_eq_true hkeys
  constructor
  · split at hown
    next p T hp hT =>
      simp only [Bool.and_eq_true, decide_eq_true_eq] at hown
      obtain ⟨⟨hkind, hvisibility⟩, hcolumn⟩ := hown
      cases htype : p.type with
      | scalar kind => exact ⟨p, kind, T, hp, htype, hvisibility, hT, hcolumn⟩
      | _ => simp [Property.scalarKind, htype] at hkind
    · cases hown
  · rintro ⟨m, name⟩ p T hp htarget hT hcolumn
    obtain ⟨rfl, d, hd, rfl, hother, -⟩ := hdescribed m name p hp
    obtain rfl := Except.ok.inj (hT.symm.trans hd)
    rcases hother with hrelation | hne | href
    · simp [htarget] at hrelation
    · exact absurd hcolumn hne
    · exact href
  · rintro T rfl
    exact hid rfl
  · intro m name r hr
    obtain ⟨p, hp, -⟩ := bind_eq_ok.1 hr
    obtain ⟨rfl, d, -, rfl, -, hkeys⟩ := hdescribed m name p hp
    exact hkeys r hr

/-- A query does not read a column. -/
def Query.Spares (hidden : Column) (q : Query) : Prop :=
  ∀ column ∈ q.reads, column.refersTo hidden = false

variable {hidden : Column}

/-- A qualified column means itself only. -/
theorem Column.refersTo_of_ne {T name : String} (h : Column.of T name ≠ hidden) :
    (Column.of T name).refersTo hidden = false := by
  rw [refersTo_of]
  exact beq_eq_false_iff_ne.2 h

/-- The columns by which a relation is stored are qualified. -/
theorem Relation.exists_of_mem_keyColumns {r : Relation} {column : Column}
    (h : column ∈ r.keyColumns) : ∃ T name, column = Column.of T name := by
  obtain ⟨property, ownerTable, target, targetTable, link⟩ := r
  cases link <;> simp only [keyColumns, List.mem_cons, List.not_mem_nil, or_false] at h
  case belongsToMany => rcases h with rfl | rfl | rfl | rfl <;> exact ⟨_, _, rfl⟩
  all_goals rcases h with rfl | rfl <;> exact ⟨_, _, rfl⟩

/-- The join along a relation compares columns by which it is stored. -/
theorem OrderExpr.mem_keyColumns_of_joinAlong {r : Relation} {j : Join}
    (h : joinAlong r.ownerTable r = some j) {column : Column} (hcolumn : column ∈ j.reads) :
    column ∈ r.keyColumns := by
  obtain ⟨property, ownerTable, target, targetTable, link⟩ := r
  cases link <;> simp only [joinAlong, Option.some.injEq, reduceCtorEq] at h
  all_goals
    subst h
    simp only [Join.reads, List.mem_cons, List.not_mem_nil, or_false] at hcolumn
    rcases hcolumn with rfl | rfl <;> simp [Relation.keyColumns]

/-- The query for the targets of an owner reads columns by which the relation is stored. -/
theorem Relation.mem_keyColumns_of_query {r : Relation} {d : Datum} {column : Column}
    (h : column ∈ Query.reads ⟨r.targetTable, r.linkJoins, [.compare r.linkColumn .eq d], [], none,
      none⟩) : column ∈ r.keyColumns := by
  obtain ⟨property, ownerTable, target, targetTable, link⟩ := r
  cases link <;> simp [Query.reads, linkJoins, linkColumn, Condition.readsAll, Condition.reads,
    keyColumns, pivotJoin, Join.reads] at h ⊢ <;> tauto

/-- The order of a list was read from some argument. -/
theorem ListArgs.read_of_parse {c : Catalog} {m : ModelId} {literals : List (String × Literal)}
    {args : ListArgs} {order : OrderExpr} (h : parse c m literals = .ok args)
    (ho : args.order = some order) : order.Read c m := by
  have hwindow : ∀ (filter : Option FilterExpr) (read : Option OrderExpr), (do
      let limit ← parseCount "limit" (literals.lookup "limit")
      let offset ← parseCount "offset" (literals.lookup "offset")
      return (⟨filter, read, limit, offset⟩ : ListArgs)) = Except.ok args → read = some order := by
    intro filter read h
    simp only [bind_eq_ok, pure_eq_ok] at h
    obtain ⟨limit, -, offset, -, rfl⟩ := h
    exact ho
  revert h
  unfold parse
  cases literals.lookup "order" with
  | none =>
    cases literals.lookup "filter" with
    | none =>
      intro h
      cases hwindow _ _ h
    | some l =>
      intro h
      obtain ⟨f, -, h⟩ := bind_eq_ok.1 h
      cases hwindow _ _ h
  | some o =>
    have hread : ∀ filter, (do
        let read ← OrderExpr.parse c m o
        let limit ← parseCount "limit" (literals.lookup "limit")
        let offset ← parseCount "offset" (literals.lookup "offset")
        return (⟨filter, read, limit, offset⟩ : ListArgs)) = Except.ok args → order.Read c m := by
      intro filter h
      obtain ⟨read, hread, h⟩ := bind_eq_ok.1 h
      obtain rfl := hwindow _ _ h
      exact OrderExpr.read_of_parse hread
    cases literals.lookup "filter" with
    | none => exact hread _
    | some l =>
      intro h
      obtain ⟨f, -, h⟩ := bind_eq_ok.1 h
      exact hread _ h

namespace Catalog.Secret

variable {c : Catalog} {ref other : Reference} {p : Property} {m : ModelId} {name T : String}

/-- A column that stores a queryable property is not secret. -/
theorem refersTo_propertyColumn (h : c.Secret ref hidden) (hp : c.property m name = .ok p)
    (hqueryable : p.isQueryable = true) (htarget : p.target = none) (hT : c.table m = .ok T) :
    (propertyColumn T name).refersTo hidden = false := by
  refine Column.refersTo_of_ne fun heq => ?_
  obtain rfl := h.alone ⟨m, name⟩ p T hp htarget hT heq.symm
  obtain ⟨p', kind, T', hp', -, hvisibility, -⟩ := h.writeOnly
  obtain rfl := Except.ok.inj (hp.symm.trans hp')
  simp [Property.isQueryable, Property.isReadable, hvisibility] at hqueryable

theorem refersTo_key (h : c.Secret ref hidden) {r : Relation} (hr : c.relation m name = .ok r)
    {column : Column} (hcolumn : column ∈ r.keyColumns) : column.refersTo hidden = false := by
  obtain ⟨T, key, rfl⟩ := r.exists_of_mem_keyColumns hcolumn
  exact Column.refersTo_of_ne fun heq => h.notMem_keys m name r hr (heq ▸ hcolumn)

/-- The columns of a queryable property are not secret. -/
theorem refersTo_of_accounts (h : c.Secret ref hidden)
    (hother : ∃ p, c.property other.model other.property = .ok p ∧ p.isQueryable = true)
    {column : Column} (hcolumn : other.Accounts c column) : column.refersTo hidden = false := by
  obtain ⟨p, hp, hqueryable⟩ := hother
  rcases hcolumn with ⟨p', kind, T, hp', hkind, hT, rfl⟩ | ⟨r, hr, hmem⟩
  · obtain rfl := Except.ok.inj (hp.symm.trans hp')
    refine h.refersTo_propertyColumn hp hqueryable ?_ hT
    cases htype : p.type <;> simp_all [Property.scalarKind, Property.target]
  · exact h.refersTo_key hr hmem

end Catalog.Secret

namespace Query.Spares

variable {q : Query} {clause : Condition} {j : Join} {column : Column}

theorem all (T : String) : (Query.all T).Spares hidden :=
  fun _ hcolumn => nomatch hcolumn

theorem filter (h : q.Spares hidden)
    (hclause : ∀ column ∈ clause.reads, column.refersTo hidden = false) :
    (q.filter clause).Spares hidden := by
  unfold Query.filter
  split_ifs with htrivial
  · exact h
  · intro column hcolumn
    simp only [Query.reads, Condition.readsAll_append, Condition.readsAll, List.append_nil,
      List.mem_append] at hcolumn
    rcases hcolumn with (hjoin | hold | hnew) | horder
    · exact h column (by simp [Query.reads, hjoin])
    · exact h column (by simp [Query.reads, hold])
    · exact hclause column hnew
    · exact h column (List.mem_append_right _ horder)

theorem join (h : q.Spares hidden) (hj : ∀ column ∈ j.reads, column.refersTo hidden = false) :
    (q.join j).Spares hidden := by
  unfold Query.join
  split_ifs with hmem
  · exact h
  · intro column hcolumn
    simp only [Query.reads, List.flatMap_append, List.flatMap_singleton, List.mem_append] at hcolumn
    rcases hcolumn with ((hold | hnew) | hfilter) | horder
    · exact h column (List.mem_append_left _ (List.mem_append_left _ hold))
    · exact hj column hnew
    · exact h column (List.mem_append_left _ (List.mem_append_right _ hfilter))
    · exact h column (List.mem_append_right _ horder)

theorem orderBy (h : q.Spares hidden) (hcolumn : column.refersTo hidden = false)
    (direction : Direction) : (q.orderBy column direction).Spares hidden := by
  intro column' hcolumn'
  simp only [Query.reads, Query.orderBy, List.map_append, List.map_cons, List.map_nil,
    List.mem_append, List.mem_singleton] at hcolumn'
  rcases hcolumn' with (hjoin | hfilter) | hold | rfl
  · exact h column' (List.mem_append_left _ (List.mem_append_left _ hjoin))
  · exact h column' (List.mem_append_left _ (List.mem_append_right _ hfilter))
  · exact h column' (List.mem_append_right _ hold)
  · exact hcolumn

end Query.Spares

namespace Catalog.Secret

variable {c : Catalog} {ref : Reference} {m : ModelId} {maxDepth depth : Nat} {T : String}
  {q q' : Query}

/-- A filter that was read adds no secret column to a query. -/
theorem restrict (h : c.Secret ref hidden) {f : FilterExpr}
    (hf : ∃ l, FilterExpr.parse c m l = .ok f) (hq : q.Spares hidden)
    (hrestrict : q.restrict c maxDepth m f = .ok q') : q'.Spares hidden := by
  obtain ⟨clause, hclause, hadded⟩ := bind_eq_ok.1 hrestrict
  obtain rfl := pure_eq_ok.1 hadded
  obtain ⟨T, hT, hcompile⟩ := FilterExpr.compile_eq_ok.1 hclause
  refine hq.filter fun column hcolumn => ?_
  obtain ⟨other, hnames, haccounts⟩ := FilterExpr.reads_compileAt hT hcompile column hcolumn
  exact h.refersTo_of_accounts (FilterExpr.queryable_of_names hnames hf) haccounts

/-- An order that was read adds no secret column to a query. -/
theorem applyAt (h : c.Secret ref hidden) {order : OrderExpr} (horder : order.Read c m)
    (hT : c.table m = .ok T) (hq : q.Spares hidden)
    (happly : order.applyAt c maxDepth q m T depth = .ok q') : q'.Spares hidden := by
  induction order generalizing m T depth q with
  | field property direction =>
    obtain rfl := Except.ok.inj happly
    obtain ⟨p, hp, hqueryable, htarget⟩ := horder
    exact hq.orderBy (h.refersTo_propertyColumn hp hqueryable htarget hT) direction
  | relation property target order ih =>
    obtain ⟨⟨p, hp, -, -, htarget⟩, horder⟩ := horder
    simp only [OrderExpr.applyAt] at happly
    split_ifs at happly
    obtain ⟨r, hr, hrest⟩ := bind_eq_ok.1 happly
    cases hjoin : OrderExpr.joinAlong T r with
    | none =>
      rw [hjoin] at hrest
      cases hrest
    | some j =>
      rw [hjoin] at hrest
      obtain ⟨howner, hrelated, p', hp', htarget', -⟩ := Catalog.relation_eq_ok hr
      obtain rfl := Except.ok.inj (hp.symm.trans hp')
      obtain rfl := Option.some.inj (htarget.symm.trans htarget')
      obtain rfl := Except.ok.inj (hT.symm.trans howner)
      refine ih horder hrelated (hq.join fun column hcolumn => ?_) hrest
      exact h.refersTo_key hr (OrderExpr.mem_keyColumns_of_joinAlong hjoin hcolumn)

/-- The arguments of a list that were read add no secret column to a query. -/
theorem refine (h : c.Secret ref hidden) {literals : List (String × Literal)} {args : ListArgs}
    (hargs : ListArgs.parse c m literals = .ok args) (hq : q.Spares hidden)
    (hrefine : args.refine c maxDepth m q = .ok q') : q'.Spares hidden := by
  rw [ListArgs.refine_eq_bind] at hrefine
  obtain ⟨q₁, hfilter, horder⟩ := bind_eq_ok.1 hrefine
  have hq₁ : q₁.Spares hidden := by
    cases hf : args.filter with
    | none =>
      rw [hf] at hfilter
      exact pure_eq_ok.1 hfilter ▸ hq
    | some f =>
      rw [hf] at hfilter
      exact h.restrict (ListArgs.exists_parse_filter hargs hf) hq hfilter
  cases ho : args.order with
  | none =>
    rw [ho] at horder
    exact pure_eq_ok.1 horder ▸ hq₁
  | some order =>
    rw [ho] at horder
    obtain ⟨T, hT, happly⟩ := bind_eq_ok.1 horder
    exact h.applyAt (ListArgs.read_of_parse hargs ho) hT hq₁ happly

/-- The queries that resolvers need by themselves read no secret column. -/
theorem base {sv : Service} (h : sv.catalog.Secret ref hidden) (hq : sv.Base q) :
    q.Spares hidden := by
  cases hq with
  | table _ => exact .all _
  | @entity m T id _ =>
    refine (Query.Spares.all T).filter fun column hcolumn => ?_
    obtain rfl := List.mem_singleton.1 hcolumn
    exact Column.refersTo_of_ne (h.ne_id T).symm
  | @related m property r owner q hr hquery =>
    rw [Relation.query_eq_some hquery]
    intro column hcolumn
    exact h.refersTo_key hr (Relation.mem_keyColumns_of_query hcolumn)
  | keyed hkeyed =>
    cases hkeyed with
    | @mk m property r T key keys hr hkey =>
      refine (Query.Spares.all T).filter fun column hcolumn => ?_
      obtain rfl := List.mem_singleton.1 hcolumn
      exact h.refersTo_key hr hkey
  | @paired m property r pivot key owner hr hkey =>
    refine (Query.Spares.all pivot).filter fun column hcolumn => ?_
    obtain rfl := List.mem_singleton.1 hcolumn
    exact h.refersTo_key hr hkey

end Catalog.Secret

/-- What filters and orders name at any level, but for null entries, are queryable properties. So
for every secret column, a list query finds the same rows in the same order, up to this column, and
counts as many, on all databases that differ in its cells only. -/
theorem Service.secrets_unprobed (sv : Service) (m : ModelId) :
    (∀ l f, FilterExpr.parse sv.catalog m l = .ok f → ∀ m' n entries,
      Place.Contains sv.catalog FilterExpr.combinators ⟨m, 0, l⟩ ⟨m', n, .object entries⟩ →
        ∀ key value, (key, value) ∈ entries → key ∉ FilterExpr.combinators →
          value.isNull = false →
            ∃ p, sv.catalog.property m' key = .ok p ∧ p.isQueryable = true) ∧
    (∀ l read, OrderExpr.parse sv.catalog m l = .ok read → ∀ m' n entries,
      Place.Contains sv.catalog [] ⟨m, 0, l⟩ ⟨m', n, .object entries⟩ →
        ∀ key value, (key, value) ∈ entries → value.isNull = false →
          ∃ p, sv.catalog.property m' key = .ok p ∧ p.isQueryable = true) ∧
    ∀ ref hidden, sv.catalog.Secret ref hidden → ∀ s s' : Store, s.AgreesOff hidden s' →
      ∀ literals args, ListArgs.parse sv.catalog m literals = .ok args →
        ∀ base q, sv.Base base → args.refine sv.catalog sv.maxDepth m base = .ok q →
          (∀ limit offset, Alike (List.Forall₂ (Record.AgreesOff hidden q.table))
            (s.select ((q.withLimit limit).withOffset offset).toSelect)
            (s'.select ((q.withLimit limit).withOffset offset).toSelect)) ∧
          s.count q.withoutWindow.toSelect = s'.count q.withoutWindow.toSelect := by
  refine ⟨?_, ?_, ?_⟩
  · intro l f hf m' n entries hcontains key value hentry hkey hvalue
    obtain ⟨fs, hfs⟩ := FilterExpr.accepted_of_contains hcontains ⟨f, hf⟩
    obtain ⟨g, hg⟩ := FilterExpr.exists_parse_object hfs
    exact FilterExpr.queryable_of_accepted hg hentry hkey hvalue
  · intro l read hread m' n entries hcontains key value hentry hvalue
    obtain ⟨read', hread'⟩ := OrderExpr.accepted_of_contains hcontains ⟨read, hread⟩
    obtain ⟨p, hp, hqueryable, -⟩ := OrderExpr.orderable_of_accepted hread' hentry hvalue
    exact ⟨p, hp, hqueryable⟩
  · intro ref hidden hsecret s s' hs literals args hargs base q hbase hq
    -- the query spares the column: no property by which one can filter or order is stored there
    have hspares : q.Spares hidden := hsecret.refine hargs (hsecret.base hbase) hq
    exact ⟨fun limit offset => Store.select_agrees (q := (q.withLimit limit).withOffset offset) hs
      hspares, Store.count_agrees (q := q.withoutWindow) hs hspares⟩

namespace Sample.Shelf

/-- The service for authors with a password. -/
def guardedService : Service := service guardedCatalog author Policy.allowAll

/-- The filter for the authors of a book. -/
def ofStudyology : Literal :=
  .object [("books", .object [("title", .object [("eq", .string "Studyology")])])]

/-- The order by name. -/
def byName : Literal := .object [("name", .object [("order", .string "desc")])]

theorem secret_password :
    guardedCatalog.Secret ⟨author, "password"⟩ (Column.of "authors" "password") :=
  Catalog.secret_of_isSecret (by decide +kernel)

/-- Two databases with different passwords agree otherwise. -/
theorem guardedStore_agreesOff (annie abed annie' abed' : String) :
    (guardedStore annie abed).AgreesOff (Column.of "authors" "password")
      (guardedStore annie' abed') := by
  have hrow : ∀ (i : Int64) (name password password' : String),
      Row.AgreesOff (Column.of "authors" "password")
        [Column.of "authors" "id", Column.of "authors" "name", Column.of "authors" "password"]
        [.int i, .text name, .text password] [.int i, .text name, .text password'] :=
    fun i name password password' => .cons (fun _ => rfl) (.cons (fun _ => rfl)
      (.cons (fun h => absurd rfl h) .nil))
  have hbooks : books.Full := by decide
  exact .cons ⟨rfl, rfl, .cons (hrow _ _ _ _) (.cons (hrow _ _ _ _) .nil)⟩
    (.cons hbooks.agreesOff .nil)

end Sample.Shelf

/-- Such arguments are accepted and have a query, and what the filter goes through is a relation. -/
theorem Sample.Shelf.exists_query_ofStudyology : (∃ f,
      FilterExpr.parse guardedCatalog author ofStudyology = .ok f) ∧
    (∃ order, OrderExpr.parse guardedCatalog author byName = .ok order) ∧
    (∃ args q, ListArgs.parse guardedCatalog author [("filter", ofStudyology), ("order", byName)]
      = .ok args ∧ args.refine guardedCatalog 3 author (.all "authors") = .ok q) ∧
    (∃ p, guardedCatalog.property author "books" = .ok p ∧ p.target = some book) ∧
    guardedCatalog.table author = .ok "authors" := by
  have hruns : ((ListArgs.parse guardedCatalog author
        [("filter", ofStudyology), ("order", byName)]).toOption.any fun args =>
          (args.refine guardedCatalog 3 author (.all "authors")).isOk) = true ∧
      ((FilterExpr.parse guardedCatalog author ofStudyology).isOk = true ∧
      (OrderExpr.parse guardedCatalog author byName).isOk = true) ∧
      (guardedCatalog.property author "books").toOption.bind (·.target) = some book ∧
      (guardedCatalog.table author).toOption = some "authors" := by decide +kernel
  obtain ⟨hquery, ⟨hfilter, horder⟩, htarget, htable⟩ := hruns
  refine ⟨exists_of_isOk hfilter, exists_of_isOk horder, ?_, ?_, eq_ok_of_toOption htable⟩
  · obtain ⟨args, hargs, hquery⟩ := (Option.any_eq_true _ _).1 hquery
    obtain ⟨q, hq⟩ := exists_of_isOk hquery
    exact ⟨args, q, eq_ok_of_toOption hargs, hq⟩
  · obtain ⟨p, hp, htarget⟩ := Option.bind_eq_some_iff.1 htarget
    exact ⟨p, eq_ok_of_toOption hp, htarget⟩

/-- The authors of a book, their number and their order do not tell the passwords: neither the
filter nor the order names more than queryable properties. -/
theorem Service.secrets_unprobed_ofStudyology :
    (∃ p, Sample.Shelf.guardedCatalog.property Sample.Shelf.book "title" = .ok p ∧
      p.isQueryable = true) ∧
    (∃ p, Sample.Shelf.guardedCatalog.property Sample.Shelf.author "name" = .ok p ∧
      p.isQueryable = true) ∧
    ∃ args q, ListArgs.parse Sample.Shelf.guardedCatalog Sample.Shelf.author
        [("filter", Sample.Shelf.ofStudyology), ("order", Sample.Shelf.byName)] = .ok args ∧
      args.refine Sample.Shelf.guardedCatalog 3 Sample.Shelf.author (.all "authors") = .ok q ∧
      Alike (List.Forall₂ (Record.AgreesOff (Column.of "authors" "password") q.table))
        ((Sample.Shelf.guardedStore "xyzzy" "plugh").select
          ((q.withLimit (some 1)).withOffset none).toSelect)
        ((Sample.Shelf.guardedStore "plover" "").select
          ((q.withLimit (some 1)).withOffset none).toSelect) ∧
      (Sample.Shelf.guardedStore "xyzzy" "plugh").count q.withoutWindow.toSelect
        = (Sample.Shelf.guardedStore "plover" "").count q.withoutWindow.toSelect := by
  obtain ⟨⟨f, hf⟩, ⟨order, horder⟩, ⟨args, q, hargs, hq⟩, ⟨p, hp, htarget⟩, htable⟩ :=
    Sample.Shelf.exists_query_ofStudyology
  obtain ⟨hfilters, horders, hqueries⟩ :=
    secrets_unprobed Sample.Shelf.guardedService Sample.Shelf.author
  have hlevel : Place.Contains Sample.Shelf.guardedCatalog FilterExpr.combinators
      ⟨Sample.Shelf.author, 0, Sample.Shelf.ofStudyology⟩
      ⟨Sample.Shelf.book, 1, .object [("title", .object [("eq", .string "Studyology")])]⟩ :=
    .single (.relation (by decide) List.mem_cons_self rfl hp htarget)
  have hanswers := hqueries _ _ Sample.Shelf.secret_password _ _
    (Sample.Shelf.guardedStore_agreesOff "xyzzy" "plugh" "plover" "") _ _ hargs _ _
    (.table htable) hq
  exact ⟨hfilters _ _ hf _ _ _ hlevel _ _ List.mem_cons_self (by decide) rfl,
    horders _ _ horder _ _ _ .refl _ _ List.mem_cons_self rfl,
    args, q, hargs, hq, hanswers.1 _ _, hanswers.2⟩

/-- Whether an error refuses a filter by the password. -/
def refusesPassword : Error → Bool
  | .badFilter (.notFilterable "password") => true
  | _ => false

theorem eq_of_refusesPassword {e : Error} (h : refusesPassword e = true) :
    e = .badFilter (.notFilterable "password") := by
  unfold refusesPassword at h
  split at h
  · rfl
  · cases h

/-- A null entry is passed over before its name is looked up, so it may name a property that is not
queryable. -/
theorem FilterExpr.null_names_password :
    (∃ p, Sample.Shelf.guardedCatalog.property Sample.Shelf.author "password" = .ok p ∧
      p.isQueryable = false) ∧
    (∃ f, FilterExpr.parse Sample.Shelf.guardedCatalog Sample.Shelf.author
      (.object [("password", .null)]) = .ok f) ∧
    FilterExpr.parse Sample.Shelf.guardedCatalog Sample.Shelf.author
      (.object [("password", .object [("eq", .string "xyzzy")])])
        = .error (.badFilter (.notFilterable "password")) ∧
    ∃ order, OrderExpr.parse Sample.Shelf.guardedCatalog Sample.Shelf.author
      (.object [("password", .null), ("name", .object [("order", .string "desc")])])
        = .ok (some order) := by
  have hruns : (Sample.Shelf.guardedCatalog.property Sample.Shelf.author "password").toOption.map
        (·.isQueryable) = some false ∧
      fails (FilterExpr.parse Sample.Shelf.guardedCatalog Sample.Shelf.author
        (.object [("password", .object [("eq", .string "xyzzy")])])) refusesPassword = true ∧
      (OrderExpr.parse Sample.Shelf.guardedCatalog Sample.Shelf.author
        (.object [("password", .null), ("name", .object [("order", .string "desc")])])).toOption
          = some (some (.field "name" .desc)) := by decide +kernel
  obtain ⟨hproperty, hrefused, horder⟩ := hruns
  refine ⟨?_, ⟨.empty, rfl⟩, ?_, _, eq_ok_of_toOption horder⟩
  · obtain ⟨p, hp, hqueryable⟩ := Option.map_eq_some_iff.1 hproperty
    exact ⟨p, eq_ok_of_toOption hp, hqueryable⟩
  · obtain ⟨e, he, hrefused⟩ := exists_of_fails hrefused
    rw [hrefused, eq_of_refusesPassword he]

end EntityGraph
