import EntityGraph.Proofs.Order.Chain
import EntityGraph.Proofs.Relation.Answer
import EntityGraph.Sample.Shelf

/-!
# Answers of ordered queries

A query on a model's table that is ordered along a chain of relations answers the rows from which
the chain leads to a target, as the query without the order answers them, sorted by what stands at
the end of the chain.

* `OrderExpr.InOrder` says that a record may stand before another;
* `OrderExpr.sort_answers` is the result, for chains in which no table comes twice;
* `OrderExpr.sort_managers` shows what becomes of a chain from a model to itself.
-/

namespace EntityGraph

theorem Direction.orient_swap (direction : Direction) (o : Ordering) :
    (direction.orient o).swap = direction.orient o.swap := by
  cases direction <;> rfl

namespace OrderExpr

variable {c : Catalog} {maxDepth : Nat} {model : ModelId} {T : String} {order : OrderExpr}
  {s : Store} {t : Table} {x : Row}

/-- Whether an order finds a datum from a record of a model. -/
noncomputable def finds (c : Catalog) (s : Store) (order : OrderExpr) (model : ModelId)
    (x : Record) : Bool :=
  @decide (∃ d, order.Reaches c s (Entity.of model x) d) (Classical.propDecidable _)

theorem finds_iff {x : Record} :
    order.finds c s model x = true ↔ ∃ d, order.Reaches c s (Entity.of model x) d :=
  @decide_eq_true_iff _ (Classical.propDecidable _)

/-- A record may stand before another in an order: what the order finds from it does not come after
what the order finds from the other. -/
def InOrder (c : Catalog) (s : Store) (order : OrderExpr) (model : ModelId) (x y : Record) : Prop :=
  ∀ d e, order.Reaches c s (Entity.of model x) d → order.Reaches c s (Entity.of model y) e →
    order.direction.orient (d.sortCompare e) ≠ .gt

/-- What an order finds from a record of a model, if it finds something. -/
noncomputable def found (c : Catalog) (s : Store) (order : OrderExpr) (model : ModelId)
    (x : Record) : Datum :=
  Classical.epsilon fun d => order.Reaches c s (Entity.of model x) d

theorem reaches_found {x : Record} (h : order.finds c s model x = true) :
    order.Reaches c s (Entity.of model x) (order.found c s model x) :=
  Classical.epsilon_spec (finds_iff.1 h)

theorem found_eq {x : Record} {d : Datum} (h : order.Reaches c s (Entity.of model x) d) :
    order.found c s model x = d :=
  (reaches_found (finds_iff.2 ⟨d, h⟩)).unique h

/-- Conditions on a table do not see what is joined behind it. -/
theorem testAll_tail {js : List Join} (hs : s.Full) (ht : s.table T = .ok t)
    (hapart : ∀ j ∈ js, j.table ≠ T) {filters : List Condition}
    (hscope : ∀ column ∈ Condition.scopeAll filters, column.table = some T) (hx : x ∈ t.rows)
    {b : Row} (hb : b ∈ s.tails t.columns x js) :
    s.testAll (t.columns ++ s.tailColumns js) (x ++ b) filters
      = s.testAll t.columns x filters := by
  have hreads := Table.readsFrom hs ht hx
  have hlength : b.length = (s.tailColumns js).length := by
    have h := (hreads.tails hs b hb).length_eq
    rw [List.length_append, List.length_append, hreads.length_eq] at h
    exact Nat.add_left_cancel h
  refine Store.testAll_congr filters fun column hcolumn => ?_
  have hget := Row.get_insert (S := []) (b := []) hreads.length_eq hlength fun d hd =>
    Column.refersTo_eq_false (hscope column hcolumn) (Store.tailColumns_ne hapart d hd)
  simpa only [List.append_nil] using hget

/-- No table comes twice among the table of a model and those along the chain of an order. -/
structure Apart (c : Catalog) (order : OrderExpr) (model : ModelId) (T : String) : Prop where
  first : ∀ j ∈ order.joins c model T, j.table ≠ T
  rest : ((order.joins c model T).map (·.table)).Nodup

theorem Apart.fresh (h : order.Apart c model T) (ht : s.table T = .ok t) :
    ∀ j ∈ order.joins c model T, ∀ column ∈ t.columns, column.table ≠ some j.table :=
  fun j hj => Store.columns_ne ht (h.first j hj)

section Joined

variable (hs : s.Full) (hfits : order.Fits c s model T) (ht : s.table T = .ok t)
  (hapart : order.Apart c model T)

include hs hfits ht hapart

/-- The joined rows of an ordered query. -/
theorem frame_joins : s.frame T (order.joins c model T) = .ok
    ⟨t.columns ++ s.tailColumns (order.joins c model T),
      t.rows.flatMap fun x => (s.tails t.columns x (order.joins c model T)).map (x ++ ·)⟩ := by
  obtain ⟨g, hg⟩ := exists_joinAll hs hfits ht (f := Frame.ofTable t)
    (fun x hx => ⟨x, hx, Row.Shows.self (hs.table ht) hx⟩) (hapart.fresh ht) hapart.rest
  rw [Store.frame_eq_ok.2 ⟨t, ht, hg⟩, Store.joinAll_tails hg]
  rfl

/-- What a row adds to the answer of an ordered query: its record with the datum that it is sorted
by, if the row meets the conditions and there is one. -/
theorem block_eq {filters : List Condition}
    (hscope : ∀ column ∈ Condition.scopeAll filters, column.table = some T) (hx : x ∈ t.rows) :
    ((s.tails t.columns x (order.joins c model T)).filter fun b => holds (s.testAll
        (t.columns ++ s.tailColumns (order.joins c model T)) (x ++ b) filters)).map
      (fun b => Select.ranked [⟨order.sortColumn c model T, order.direction⟩] T
        (t.columns ++ s.tailColumns (order.joins c model T)) (x ++ b))
      = if holds (s.testAll t.columns x filters) && order.finds c s model (t.record x)
        then [([order.found c s model (t.record x)], t.record x)] else [] := by
  have htest := fun b => testAll_tail (b := b) hs ht hapart.first hscope hx
  -- the row is joined with nothing, or with one target after the other
  rcases tails_joins hs hfits ht hx (Row.Shows.self (hs.table ht) hx)
    (hapart.fresh ht) hapart.rest with ⟨hnone, hnot⟩ | ⟨b, d, htail, hd, hget⟩
  · have hfinds : order.finds c s model (t.record x) = false := by
      rw [Bool.eq_false_iff]
      intro h
      obtain ⟨d, hd⟩ := finds_iff.1 h
      exact hnot d hd
    rw [hnone, hfinds, Bool.and_false]
    rfl
  · have hranked : Select.ranked [⟨order.sortColumn c model T, order.direction⟩] T
        (t.columns ++ s.tailColumns (order.joins c model T)) (x ++ b) = ([d], t.record x) := by
      refine Prod.ext ?_ ?_
      · simp [Select.ranked, Select.sortKeys, Row.datum_of_get hget]
      · have hname := (Store.mem_of_table ht).2
        subst hname
        exact Select.part_append (hs.table ht x hx) (Store.tailColumns_ne hapart.first)
    rw [htail, List.filter_singleton, htest b (by simp [htail]), finds_iff.2 ⟨d, hd⟩, found_eq hd]
    cases holds (s.testAll t.columns x filters) with
    | false => rfl
    | true => exact congrArg (fun y => [y]) hranked

/-- The rows of an ordered query, each with the datum that it is sorted by. -/
theorem kept_eq {filters : List Condition}
    (hscope : ∀ column ∈ Condition.scopeAll filters, column.table = some T) :
    s.kept ⟨T, order.joins c model T, filters, [⟨order.sortColumn c model T, order.direction⟩],
        none, none⟩ ⟨t.columns ++ s.tailColumns (order.joins c model T),
          t.rows.flatMap fun x => (s.tails t.columns x (order.joins c model T)).map (x ++ ·)⟩
      = ((((t.rows.filter fun x => holds (s.testAll t.columns x filters)).map t.record).filter
          (order.finds c s model)).map fun x => ([order.found c s model x], x)) := by
  rw [Store.kept, List.filter_flatMap, List.map_flatMap, List.filter_map, List.map_map,
    List.filter_filter]
  -- the rows from which nothing is found, or that miss a condition, add nothing
  refine (ListArgs.Added.flatMap_eq_flatMap_filter (f := fun x =>
    [([order.found c s model (t.record x)], t.record x)]) fun x hx => ?_).trans
      List.map_eq_flatMap.symm
  rw [List.filter_map, List.map_map, Function.comp_apply, Bool.and_comm]
  exact block_eq hs hfits ht hapart hscope hx

theorem exists_select_sorted {filters : List Condition}
    (hscope : ∀ column ∈ Condition.scopeAll filters, column.table = some T)
    (htests : ∀ x ∈ t.rows, ∃ b, s.testAll t.columns x filters = .ok b) :
    ∃ records, s.select (Query.toSelect ⟨T, order.joins c model T, filters,
      [⟨order.sortColumn c model T, order.direction⟩], none, none⟩) = .ok records := by
  refine Store.exists_select (frame_joins hs hfits ht hapart) (fun row hrow => ?_)
    fun row hrow term hterm => ?_
  · obtain ⟨x, hx, hrow⟩ := List.mem_flatMap.1 hrow
    obtain ⟨b, hb, rfl⟩ := List.mem_map.1 hrow
    rw [testAll_tail hs ht hapart.first hscope hx hb]
    exact htests x hx
  · obtain rfl := List.mem_singleton.1 hterm
    obtain ⟨x, hx, hrow⟩ := List.mem_flatMap.1 hrow
    obtain ⟨b, hb, rfl⟩ := List.mem_map.1 hrow
    rcases tails_joins hs hfits ht hx (Row.Shows.self (hs.table ht) hx)
      (hapart.fresh ht) hapart.rest with ⟨hnone, -⟩ | ⟨b', d, htail, -, hget⟩
    · rw [hnone] at hb
      cases hb
    · rw [htail, List.mem_singleton] at hb
      exact ⟨d, hb ▸ hget⟩

end Joined

/-- A query without joins that is ordered joins the tables along the chain. -/
theorem sort_eq {filters : List Condition} {q : Query} (hT : c.table model = .ok T)
    (hapart : order.Apart c model T)
    (h : Query.sort c maxDepth model order ⟨T, [], filters, [], none, none⟩ = .ok q) :
    q = ⟨T, order.joins c model T, filters, [⟨order.sortColumn c model T, order.direction⟩], none,
      none⟩ := by
  obtain ⟨T', hT', happly⟩ := bind_eq_ok.1 h
  obtain rfl := Except.ok.inj (hT.symm.trans hT')
  obtain rfl := Except.ok.inj (((applyAt_eq_ok happly).1 _).symm.trans happly)
  rw [Query.joinAll_eq, Query.joins_joinAll_of_nodup hapart.rest.of_map fun _ _ => List.not_mem_nil]
  rfl

/-- Of two rows that are sorted by one column at most one precedes the other. -/
theorem precedes_asymm (term : OrderTerm) (a b : List Datum × Record)
    (h : Select.precedes [term] a b = true) : Select.precedes [term] b a = false := by
  obtain ⟨ds, x⟩ := a
  obtain ⟨es, y⟩ := b
  cases ds with
  | nil => cases h
  | cons d ds =>
    cases es with
    | nil => cases h
    | cons e es =>
      simp only [Select.precedes, Select.compareKeys, Ordering.then_eq] at h ⊢
      rw [← Datum.sortCompare_swap, ← Direction.orient_swap, beq_iff_eq.1 h]
      rfl

/-- Where one row does not precede another, its record may stand behind that of the other. -/
theorem inOrder_of_precedes {column : Column} {x y : Record}
    (h : Select.precedes [⟨column, order.direction⟩] ([order.found c s model y], y)
      ([order.found c s model x], x) = false) : order.InOrder c s model x y := by
  intro d e hd he
  rw [found_eq hd, found_eq he] at h
  simp only [Select.precedes, Select.compareKeys, Ordering.then_eq, beq_eq_false_iff_ne] at h
  rw [← Datum.sortCompare_swap, ← Direction.orient_swap]
  intro hgt
  exact h (Ordering.swap_eq_gt.1 hgt)

/-- Records sorted by what an order finds from them. -/
noncomputable def sortRecords (c : Catalog) (s : Store) (order : OrderExpr) (model : ModelId)
    (column : Column) (l : List Record) : List Record :=
  (Select.stableSort (Select.precedes [⟨column, order.direction⟩])
    (l.map fun x => ([order.found c s model x], x))).map (·.2)

section Records

variable (c s order model) (column : Column) (l : List Record)

theorem perm_sortRecords : (order.sortRecords c s model column l).Perm l := by
  refine ((Select.perm_stableSort _ _).map _).trans ?_
  rw [List.map_map]
  exact List.Perm.of_eq (List.map_id l)

theorem isChain_sortRecords :
    (order.sortRecords c s model column l).IsChain (order.InOrder c s model) := by
  refine (List.isChain_map _).2
    ((Select.isChain_stableSort (precedes_asymm _) _).imp_of_mem_imp fun a b ha hb hab => ?_)
  obtain ⟨x, -, rfl⟩ := List.mem_map.1 (Select.mem_stableSort.1 ha)
  obtain ⟨y, -, rfl⟩ := List.mem_map.1 (Select.mem_stableSort.1 hb)
  exact inOrder_of_precedes hab

theorem pairwise_sortRecords (kind : String)
    (hkind : ∀ x ∈ l, (order.found c s model x).SortsAs kind) :
    (order.sortRecords c s model column l).Pairwise (order.InOrder c s model) := by
  have hranks : Select.Ranks (Select.precedes [⟨column, order.direction⟩])
      (l.map fun x => ([order.found c s model x], x)) := by
    refine Select.ranks_keys (Nat.le_refl 1) fun term _ => ⟨kind, fun a ha => ?_⟩
    obtain ⟨x, hx, rfl⟩ := List.mem_map.1 ha
    exact ⟨_, rfl, hkind x hx⟩
  refine List.pairwise_map.2 ((Select.pairwise_stableSort hranks).imp_of_mem ?_)
  intro a b ha hb hab
  obtain ⟨x, -, rfl⟩ := List.mem_map.1 (Select.mem_stableSort.1 ha)
  obtain ⟨y, -, rfl⟩ := List.mem_map.1 (Select.mem_stableSort.1 hb)
  exact inOrder_of_precedes hab

end Records

/-- Compiled filters look at columns of the model's table only. -/
theorem scopeAll_of_compile {filters : List Condition} (hT : c.table model = .ok T)
    (hfilters : ∀ clause ∈ filters, ∃ (f : FilterExpr) (depth : Nat),
      f.compile c depth model = .ok clause) :
    ∀ column ∈ Condition.scopeAll filters, column.table = some T := by
  intro column hcolumn
  obtain ⟨clause, hclause, hmem⟩ := Condition.mem_scopeAll.1 hcolumn
  obtain ⟨f, depth, hcompile⟩ := hfilters clause hclause
  obtain ⟨T', hT', hcompile⟩ := FilterExpr.compile_eq_ok.1 hcompile
  obtain rfl := Except.ok.inj (hT.symm.trans hT')
  exact FilterExpr.scope_compileAt hT hcompile column hmem

/-- An ordered query answers those records of the query without the order from which the order
finds something, unchanged and as often as that query, and of two neighbours the first may stand
before the second. Where what is found is null or of one kind, and a number if it is of floating
point, any record may stand before those behind it. -/
theorem sort_answers (s : Store) (hs : s.Full) {filters : List Condition} {q : Query}
    {unordered : List Record} (hT : c.table model = .ok T)
    (hfilters : ∀ clause ∈ filters, ∃ (f : FilterExpr) (depth : Nat),
      f.compile c depth model = .ok clause)
    (hsort : Query.sort c maxDepth model order ⟨T, [], filters, [], none, none⟩ = .ok q)
    (hfits : order.Fits c s model T) (hapart : order.Apart c model T)
    (hbefore : s.select (Query.toSelect ⟨T, [], filters, [], none, none⟩) = .ok unordered) :
    ∃ records, s.select q.toSelect = .ok records ∧
      records.Perm (unordered.filter (order.finds c s model)) ∧
      records.IsChain (order.InOrder c s model) ∧
      ∀ kind, (∀ x ∈ unordered, ∀ d, order.Reaches c s (Entity.of model x) d → d.SortsAs kind) →
        records.Pairwise (order.InOrder c s model) := by
  obtain ⟨t, ht, htests, rfl⟩ := Store.select_rows_eq_ok.1 hbefore
  have hscope := scopeAll_of_compile hT hfilters
  obtain ⟨records, hselect⟩ := exists_select_sorted hs hfits ht hapart hscope htests
  obtain rfl := sort_eq hT hapart hsort
  obtain ⟨f, hf, hrecords⟩ := Store.select_ranked hselect
  obtain rfl := Except.ok.inj ((frame_joins hs hfits ht hapart).symm.trans hf)
  rw [kept_eq hs hfits ht hapart hscope] at hrecords
  -- the joined rows are those of the unordered answer, each with the datum that is found
  obtain rfl : records = order.sortRecords c s model (order.sortColumn c model T)
      (((t.rows.filter fun x => holds (s.testAll t.columns x filters)).map t.record).filter
        (order.finds c s model)) := hrecords
  refine ⟨_, hselect, perm_sortRecords _ _ _ _ _ _, isChain_sortRecords _ _ _ _ _ _,
    fun kind hkind => pairwise_sortRecords _ _ _ _ _ _ kind fun x hx => ?_⟩
  obtain ⟨hx, hfinds⟩ := List.mem_filter.1 hx
  exact hkind x hx _ (reaches_found hfinds)

section Shelf

open Sample

/-- Books by the names of their authors. -/
def byAuthor : OrderExpr := .relation "author" Shelf.author (.field "name" .asc)

/-- The relation of a book to its author. -/
def bookAuthor : Relation := ⟨"author", "books", Shelf.author, "authors", .belongsTo "author_id"⟩

/-- A filter that all rows of the shelf meet. -/
def positive : FilterExpr := .mk [.predicate "id" .gt (.int 0)] [] [] none

/-- The condition of the filter on books. -/
def positiveId : Condition := .compare (Column.of "books" "id") .gt (.int 0)

theorem relation_author : Shelf.catalog.relation Shelf.book "author" = .ok bookAuthor :=
  eq_ok_of_toOption (by decide +kernel)

theorem fits_byAuthor : byAuthor.Fits Shelf.catalog Shelf.store Shelf.book "books" := by
  refine ⟨bookAuthor, relation_author, ⟨fun t ht => ?_,
    ⟨Shelf.authors, rfl, by decide⟩, fun t ht => ?_⟩, Shelf.authors, rfl, by decide +kernel⟩
  · obtain rfl : Shelf.books = t := Except.ok.inj ht
    exact ⟨by decide, by simpa [Shelf.books] using ⟨⟨some 1, rfl⟩, ⟨some 2, rfl⟩, none, rfl⟩⟩
  · obtain rfl : Shelf.authors = t := Except.ok.inj ht
    exact ⟨by decide, [1, 2], by decide, rfl⟩

theorem apart_byAuthor : byAuthor.Apart Shelf.catalog Shelf.book "books" := by
  have hjoins : byAuthor.joins Shelf.catalog Shelf.book "books"
      = [⟨"authors", Column.of "authors" "id", .eq, Column.of "books" "author_id"⟩] := rfl
  constructor
  · rw [hjoins]
    decide
  · rw [hjoins]
    decide

/-- What the order finds from a book is a name. -/
theorem sortsAs_byAuthor : ∀ x ∈ Shelf.books.rows.map Shelf.books.record, ∀ d,
    byAuthor.Reaches Shelf.catalog Shelf.store (Entity.of Shelf.book x) d → d.SortsAs "text" := by
  have hname : ∀ name, (Datum.text name).SortsAs "text" := fun name =>
    Datum.OfKind.sortsAs (.inr rfl) (by decide)
  intro x hx d hd
  obtain ⟨row, hrow, rfl⟩ := List.mem_map.1 hx
  obtain rfl | rfl | rfl := by simpa [Shelf.books] using hrow
  · have hannie : byAuthor.Reaches Shelf.catalog Shelf.store
        (Entity.of Shelf.book (Shelf.books.record [.int 1, .text "Studyology", .int 1]))
        (.text "Annie") := ⟨bookAuthor, _, _, relation_author, rfl, rfl, rfl⟩
    exact hd.unique hannie ▸ hname "Annie"
  · have habed : byAuthor.Reaches Shelf.catalog Shelf.store
        (Entity.of Shelf.book (Shelf.books.record [.int 2, .text "Learning!", .int 2]))
        (.text "Abed") := ⟨bookAuthor, _, _, relation_author, rfl, rfl, rfl⟩
    exact hd.unique habed ▸ hname "Abed"
  · obtain ⟨r, q, record, hr, hq, -⟩ := hd
    obtain rfl := Except.ok.inj (relation_author.symm.trans hr)
    cases hq

/-- The books of known authors stand in the order of the names of these. -/
theorem sort_answers_shelf :
    ∃ q records, Query.sort Shelf.catalog 3 Shelf.book byAuthor
        ⟨"books", [], [positiveId], [], none, none⟩ = .ok q ∧
      Shelf.store.select q.toSelect = .ok records ∧
      records.Perm ((Shelf.books.rows.map Shelf.books.record).filter
        (byAuthor.finds Shelf.catalog Shelf.store Shelf.book)) ∧
      records.Pairwise (byAuthor.InOrder Shelf.catalog Shelf.store Shelf.book) := by
  have hfilters : ∀ clause ∈ [positiveId], ∃ (f : FilterExpr) (depth : Nat),
      f.compile Shelf.catalog depth Shelf.book = .ok clause := by
    intro clause hclause
    obtain rfl := List.mem_singleton.1 hclause
    exact ⟨positive, 3, rfl⟩
  obtain ⟨q, hsort⟩ : ∃ q, Query.sort Shelf.catalog 3 Shelf.book byAuthor
      ⟨"books", [], [positiveId], [], none, none⟩ = .ok q := ⟨_, rfl⟩
  obtain ⟨records, hselect, hperm, -, hsorted⟩ := sort_answers Shelf.store (by decide) rfl hfilters
    hsort fits_byAuthor apart_byAuthor rfl
  exact ⟨q, records, hsort, hselect, hperm, hsorted "text" sortsAs_byAuthor⟩

end Shelf

section Staff

/-- Employees, each with a manager or none. -/
def staff : Catalog :=
  ⟨[⟨"Employee", "", some "employees",
    "@property int $id\n@property string $name\n@property ?Employee $manager", [], none⟩]⟩

/-- The model of employees. -/
def employee : ModelId := ⟨"Employee"⟩

/-- Annie, who is her own manager. -/
def annie : Row := [.int 1, .text "Annie", .int 1]

/-- Abed, who has no manager. -/
def abed : Row := [.int 2, .text "Abed", .null]

/-- The table of employees. -/
def employees : Table :=
  ⟨"employees", [⟨"id", .serial, .null⟩, ⟨"name", .text, .null⟩, ⟨"manager_id", .int, .null⟩],
    [annie, abed], 3⟩

/-- The relation of an employee to the manager. -/
def manager : Relation := ⟨"manager", "employees", employee, "employees", .belongsTo "manager_id"⟩

/-- Employees by the names of their managers. -/
def byManager : OrderExpr := .relation "manager" employee (.field "name" .asc)

theorem relation_manager : staff.relation employee "manager" = .ok manager :=
  eq_ok_of_toOption (by decide +kernel)

theorem fits_byManager : byManager.Fits staff ⟨[employees]⟩ employee "employees" := by
  refine ⟨manager, relation_manager, ⟨fun t ht => ?_, ⟨employees, rfl, by decide⟩,
    fun t ht => ?_⟩, employees, rfl, by decide +kernel⟩
  · obtain rfl : employees = t := Except.ok.inj ht
    exact ⟨by decide, by simpa [employees] using ⟨⟨some 1, rfl⟩, none, rfl⟩⟩
  · obtain rfl : employees = t := Except.ok.inj ht
    exact ⟨by decide, [1, 2], by decide, rfl⟩

/-- Employees in the order of their managers' names: the chain leads from a table to itself, and the
answer has Abed, from whom the order finds nothing. -/
theorem sort_managers :
    Store.Full ⟨[employees]⟩ ∧ byManager.Fits staff ⟨[employees]⟩ employee "employees" ∧
    (∃ d, byManager.Reaches staff ⟨[employees]⟩ (Entity.of employee (employees.record annie)) d) ∧
    (¬ ∃ d, byManager.Reaches staff ⟨[employees]⟩
      (Entity.of employee (employees.record abed)) d) ∧
    ∃ q, Query.sort staff 3 employee byManager ⟨"employees", [], [], [], none, none⟩ = .ok q ∧
      Store.select ⟨[employees]⟩ q.toSelect
        = .ok [employees.record annie, employees.record abed] := by
  refine ⟨by decide, fits_byManager, ?_, ?_, _, rfl, rfl⟩
  · exact ⟨_, manager, _, employees.record annie, relation_manager, rfl, rfl, rfl⟩
  · rintro ⟨d, r, q, record, hr, hq, -⟩
    obtain rfl := Except.ok.inj (relation_manager.symm.trans hr)
    cases hq

end Staff

end OrderExpr

end EntityGraph
