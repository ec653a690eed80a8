import EntityGraph.Proofs.Filter.Same
import EntityGraph.Proofs.Store.Test
import EntityGraph.Sample.Shelf

/-!
# Compiled filters mean what filters mean

A compiled filter, tested on a row of its model's table, decides the meaning of the filter. The row
may be the front part of a joined row: that is how the targets of a relation are tested.

* `FilterExpr.test_predicateCondition` and `FilterExpr.test_linked` are the two kinds of conditions
  on a property;
* `FilterExpr.test_compileAt` is the step for a whole filter, by induction on the filters inside it;
* `FilterExpr.compile_decides_meaning` is the result for filters on a model, with its consequence
  for filters that differ in the order and repetition of their parts. What a filter reads from the
  record of a row stands in one column of the row's table.
-/

namespace EntityGraph

namespace Literal

variable {kind : ScalarKind}

mutual

/-- A literal that stands for a datum does so with strings in the place of enum values. -/
theorem ofLiteral_plain : ∀ (l : Literal) (d : Datum),
    Datum.ofLiteral kind l = .ok d → Datum.ofLiteral kind l.plain = .ok d
  | .enum s, d, h => by
    cases kind <;> simp_all [Datum.ofLiteral, plain]
  | .list items, d, h => by
    simp only [Datum.ofLiteral, bind_eq_ok, pure_eq_ok] at h
    obtain ⟨ds, hds, rfl⟩ := h
    simp only [plain, Datum.ofLiteral, bind_eq_ok, pure_eq_ok]
    exact ⟨ds, ofLiterals_plain items ds hds, rfl⟩
  | .null, d, h => h
  | .bool b, d, h => h
  | .int n, d, h => h
  | .float x, d, h => h
  | .string s, d, h => h
  | .object fields, d, h => h

theorem ofLiterals_plain : ∀ (ls : List Literal) (ds : List Datum),
    Datum.ofLiterals kind ls = .ok ds → Datum.ofLiterals kind (plainItems ls) = .ok ds
  | [], ds, h => h
  | l :: ls, ds, h => by
    simp only [Datum.ofLiterals, bind_eq_ok, pure_eq_ok] at h
    obtain ⟨d, hd, ds, hds, rfl⟩ := h
    simp only [plainItems, Datum.ofLiterals, bind_eq_ok, pure_eq_ok]
    exact ⟨d, ofLiteral_plain l d hd, ds, ofLiterals_plain ls ds hds, rfl⟩

end

end Literal

/-- An ordering operator decides whether a datum meets an operand that is not null. -/
theorem FilterOperator.satisfies_decides {op : FilterOperator} {x operand : Datum}
    (hop : op ∈ [eq, ne, lt, gt, lte, gte]) (hoperand : operand.isNull = false) :
    Decides (x.satisfies op.comparison operand) (op.Meets x operand) := by
  cases hx : x.isNull with
  | true =>
    obtain rfl : x = .null := Datum.isNull_iff.1 hx
    refine ⟨false, by simp [Datum.satisfies, hx], ?_⟩
    rw [FilterExpr.null_meets_iff]
    simp only [Bool.false_eq_true, false_iff, not_and]
    rintro rfl rfl
    simp [Datum.isNull] at hoperand
  | false =>
    have hsat : ∀ o, x.satisfies o operand = o.holds (x.compare? operand) := by
      intro o
      simp [Datum.satisfies, hx, hoperand]
    rw [hsat]
    simp only [List.mem_cons, List.not_mem_nil, or_false] at hop
    rcases hop with rfl | rfl | rfl | rfl | rfl | rfl
    · exact ⟨_, rfl, by cases operand <;> simp_all [Meets, Datum.isNull]⟩
    · exact ⟨_, rfl, by cases operand <;> simp_all [Meets, Datum.isNull]⟩
    · exact ⟨_, rfl, by simp [Meets]⟩
    · exact ⟨_, rfl, by simp [Meets]⟩
    · exact ⟨_, rfl, by simp [Meets]⟩
    · exact ⟨_, rfl, by simp [Meets]⟩

namespace FilterExpr

variable {c : Catalog} {s : Store} {maxDepth depth : Nat} {schema : List Column} {row : Row}

section Predicates

variable {column : Column} {op : FilterOperator} {operand x : Datum} {condition : Condition}

theorem test_of_get {e : Datum → Except StoreFailure Bool} {P : Prop}
    (hx : row.get schema column = .ok x) (h : Decides (e x) P) :
    Decides (do let d ← row.get schema column; e d) P := by
  rw [hx]
  exact h

theorem test_compare (hx : row.get schema column = .ok x)
    (hop : op ∈ [FilterOperator.eq, .ne, .lt, .gt, .lte, .gte])
    (hoperand : operand.isNull = false) :
    Decides (s.test schema row (.compare column op.comparison operand)) (op.Meets x operand) := by
  rw [Store.test]
  exact test_of_get hx (FilterOperator.satisfies_decides hop hoperand)

theorem test_like (hx : row.get schema column = .ok x) (pattern : String) (negated : Bool) :
    Decides (s.test schema row (.like column pattern negated))
      (∃ t, x = .text t ∧ isLike t pattern = !negated) := by
  rw [Store.test]
  refine test_of_get hx ?_
  cases x <;> first | exact ⟨false, rfl, by simp⟩ | skip
  case text t => exact ⟨_, rfl, by cases negated <;> simp⟩

theorem test_date (hx : row.get schema column = .ok x) (u : Timestamp) {P : Ordering → Prop}
    {o : Comparison} (ho : ∀ r, Decides (o.holds (some r)) (P r)) :
    Decides (s.test schema row (.date column o (.timestamp u)))
      (∃ t, x = .timestamp t ∧ P (t.date.compare u.date)) := by
  rw [Store.test]
  refine test_of_get hx ?_
  cases x <;> first | exact ⟨false, rfl, by simp⟩ | skip
  case timestamp t => exact (ho (t.date.compare u.date)).congr (by simp)

/-- The condition of a comparison decides whether the datum in its column meets the operand. -/
theorem test_predicateCondition (hx : row.get schema column = .ok x)
    (h : predicateCondition column op operand = .ok condition) :
    Decides (s.test schema row condition) (op.Meets x operand) := by
  unfold predicateCondition at h
  split at h
  · -- null
    split at h <;> cases h <;> rw [Store.test]
    · exact test_of_get hx (.ok _)
    · exact test_of_get hx ⟨_, rfl, by simp [FilterOperator.Meets]⟩
  · -- a list
    split at h <;> cases h <;> rw [Store.test]
    · exact test_of_get hx ⟨_, rfl, by simp [FilterOperator.Meets, Datum.equals_iff]⟩
    · exact test_of_get hx ⟨_, rfl, by simp [FilterOperator.Meets, ← Datum.equals_iff]⟩
  · -- a single datum
    rename_i hnull hlist
    have hoperand : operand.isNull = false := by
      cases operand <;> first | rfl | exact absurd rfl hnull
    split at h
    · cases h
    · cases h
    · split at h <;> cases h
      exact test_like hx _ false
    · split at h <;> cases h
      exact test_like hx _ true
    · split at h <;> cases h
      exact test_date hx _ (P := (· = .eq)) fun r => ⟨_, rfl, by simp⟩
    · split at h <;> cases h
      exact test_date hx _ (P := (· ≠ .eq)) fun r => ⟨_, rfl, by simp⟩
    · cases h
      refine test_compare hx ?_ hoperand
      cases op <;> simp_all

end Predicates

section Links

variable {r : Relation} {t : Table} {record : Record} {d : Datum} {filter : Condition}
  {P : Record → Prop}

/-- The condition of a filter on a relation decides whether the query for the targets of the row's
entity finds one that the nested condition accepts. -/
theorem test_linked (hs : s.Full) (hlinks : s.Links r) (ht : s.table r.targetTable = .ok t)
    (model : ModelId) (hd : row.get schema (Column.of r.ownerTable r.ownerKey) = .ok d)
    (hrecord : record.get? r.ownerKey = some d)
    (hfilter : ∀ others a b, a ∈ t.rows →
      Decides (s.test (t.columns ++ others) (a ++ b) filter) (P (t.record a))) :
    Decides (s.test schema row (linked r filter)) (∃ q records target,
      r.query (Entity.of model record) = some q ∧ s.select q.toSelect = .ok records ∧
        target ∈ records ∧ P target) := by
  obtain ⟨F⟩ := hlinks.frame hs ht
  have hget : (Entity.of model record).get r.ownerKey = d := Entity.get_of hrecord
  have hrow : ∀ joined ∈ F.rows, Decides
      (do let k ← Row.get (t.columns ++ F.others) joined r.linkColumn
          if ← k.satisfies .eq d then s.test (t.columns ++ F.others) joined filter
          else return false)
      ((joined.datum (t.columns ++ F.others) r.linkColumn).equals d = true ∧
        P (Select.part r.targetTable (t.columns ++ F.others) joined)) := by
    intro joined hjoined
    obtain ⟨a, b, rfl, ha⟩ := F.split joined hjoined
    obtain ⟨k, hk⟩ := F.key _ hjoined
    rw [← (Store.mem_of_table ht).2, Select.part_append (hs.table ht a ha) F.others_ne,
      Row.datum_of_get hk]
    have hequals : Decides (k.satisfies .eq d) (k.equals d = true) :=
      ⟨_, Datum.satisfies_eq k d, Iff.rfl⟩
    exact test_of_get hk (hequals.and fun _ => hfilter F.others a b ha)
  have htest : Decides (s.test schema row (linked r filter)) (∃ joined ∈ F.rows,
      (joined.datum (t.columns ++ F.others) r.linkColumn).equals d = true ∧
        P (Select.part r.targetTable (t.columns ++ F.others) joined)) := by
    rw [linked_eq, Store.test]
    refine test_of_get hd ?_
    rw [F.frame_eq]
    exact Decides.anyM hrow
  rw [← hget] at htest
  -- the query for the targets selects the same joined rows
  refine htest.congr ⟨?_, ?_⟩
  · rintro ⟨joined, hjoined, hheld, hP⟩
    obtain ⟨q, records, hq, hrecords, htarget⟩ := F.answers_iff.2 ⟨joined, hjoined, hheld, rfl⟩
    exact ⟨q, records, _, hq, hrecords, htarget, hP⟩
  · rintro ⟨q, records, target, hq, hrecords, htarget, hP⟩
    obtain ⟨joined, hjoined, hheld, rfl⟩ := F.answers_iff.1 ⟨q, records, hq, hrecords, htarget⟩
    exact ⟨joined, hjoined, hheld, hP⟩

end Links

section Filters

variable {model : ModelId} {t : Table} {others : List Column} {a b : Row}

/-- A column of the front table of a joined row holds what the record of its row holds. -/
theorem get_of_hasColumn (others : List Column) (b : Row) (hs : s.Full) {T column : String}
    (ht : s.table T = .ok t) (ha : a ∈ t.rows) (hcolumn : s.HasColumn T column) :
    ∃ d, Row.get (t.columns ++ others) (a ++ b) (Column.of T column) = .ok d ∧
      (t.record a).get? column = some d := by
  obtain ⟨u, hu, hhas⟩ := hcolumn
  obtain rfl : t = u := Except.ok.inj (ht.symm.trans hu)
  obtain ⟨d, hd, hrecord⟩ := Store.exists_get ht (hs.table ht a ha) hhas
  exact ⟨d, (Store.get_front ht (hs.table ht a ha) hhas.hasColumn others b).trans hd, hrecord⟩

theorem test_compilePredicate (hs : s.Full) {T property : String} {op : FilterOperator}
    {operand : Literal} {condition : Condition} (hT : c.table model = .ok T)
    (ht : s.table T = .ok t) (ha : a ∈ t.rows) (hbacks : s.Backs c ⟨model, property⟩)
    (h : compilePredicate c model T property op operand = .ok condition) :
    Decides (s.test (t.columns ++ others) (a ++ b) condition)
      (MeansField c s model (t.record a) (.predicate property op operand)) := by
  obtain ⟨p, kind, datum, hp, hkind, hdatum, hcondition⟩ := compilePredicate_eq_ok.1 h
  obtain ⟨d, hd, hrecord⟩ :=
    get_of_hasColumn others b hs ht ha (hbacks.scalar p kind T hp hkind hT)
  refine (test_predicateCondition hd hcondition).congr ?_
  have hplain := Literal.ofLiteral_plain operand datum hdatum
  simp [MeansField, hp, hkind, hplain, hrecord]

/-- The conditions of a list of filters decide together whether all of the filters hold, and whether
some does: a filter that is left out means the same as one that is kept. -/
theorem test_compileAll (schema : List Column) (row : Row) {filters : List FilterExpr}
    {conditions : List Condition} {T : String} {record : Record}
    (h : compileAll c maxDepth model T depth [] filters = .ok conditions)
    (heach : ∀ g ∈ filters, ∀ clause, g.compileAt c maxDepth model T depth = .ok clause →
      Decides (s.test schema row clause) (Means c s model record g)) :
    Decides (s.testAll schema row conditions) (∀ g ∈ filters, Means c s model record g) ∧
      Decides (s.testAll schema row (alternativesCondition conditions))
        (filters = [] ∨ ∃ g ∈ filters, Means c s model record g) := by
  obtain ⟨kept, hsub, hkept, hcover⟩ := exists_kept h
  have hdecides : List.Forall₂
      (fun g clause => Decides (s.test schema row clause) (Means c s model record g))
      kept conditions := by
    refine forall₂_imp_of_mem hkept fun g hg clause _ hclause => ?_
    exact heach g (hsub hg) clause hclause
  -- a filter is left out only where one that is kept means the same
  have hrest : ∀ f ∈ filters, ∃ g ∈ kept, Means c s model record g ↔ Means c s model record f := by
    intro f hf
    rcases hcover f hf with hmem | ⟨g, hg, hsame⟩
    · exact ⟨f, hmem, Iff.rfl⟩
    · exact ⟨g, by simpa using hg, means_of_same hsame model record⟩
  refine ⟨(Store.testAll_decides hdecides).congr ⟨fun hall f hf => ?_, fun hall g hg =>
    hall g (hsub hg)⟩, ?_⟩
  · obtain ⟨g, hg, hiff⟩ := hrest f hf
    exact hiff.1 (hall g hg)
  · cases hkept with
    | nil =>
      have hnil : filters = [] := List.eq_nil_iff_forall_not_mem.2 fun f hf => by
        obtain ⟨g, hg, -⟩ := hrest f hf
        simp at hg
      exact ⟨true, Store.testAll_nil, by simp [hnil]⟩
    | cons _ _ =>
      rw [alternativesCondition, Store.testAll_singleton, Store.test_disjunction]
      refine (Store.testAny_decides hdecides).congr ⟨fun ⟨g, hg, hmeans⟩ =>
        .inr ⟨g, hsub hg, hmeans⟩, ?_⟩
      rintro (hnil | ⟨f, hf, hmeans⟩)
      · exact absurd (hsub List.mem_cons_self) (by simp [hnil])
      · obtain ⟨g, hg, hiff⟩ := hrest f hf
        exact ⟨g, hg, hiff.2 hmeans⟩
      · simp

/-- A compiled filter, tested on a row of the model's table that may be the front part of a joined
row, decides the meaning of the filter. -/
theorem test_compileAt (hs : s.Full) {f : FilterExpr} {T : String} {clause : Condition}
    (hT : c.table model = .ok T) (ht : s.table T = .ok t) (ha : a ∈ t.rows)
    (hbacks : ∀ ref, Names c model f ref → s.Backs c ref)
    (h : f.compileAt c maxDepth model T depth = .ok clause) :
    Decides (s.test (t.columns ++ others) (a ++ b) clause) (Means c s model (t.record a) f) := by
  induction f using nested_induction generalizing model T t others a b depth clause with
  | step fields conjuncts alternatives negated ihfields ihall ihany ihnot =>
    obtain ⟨own, all, any, not, hown, hall, hany, hnot, rfl⟩ := compileAt_eq_ok.1 h
    rw [Store.test_conjunction, means_mk]
    have hfields : Decides (s.testAll (t.columns ++ others) (a ++ b) own)
        (∀ x ∈ fields, MeansField c s model (t.record a) x) := by
      refine Store.testAll_decides (forall₂_imp_of_mem (compileFields_eq_ok.1 hown)
        fun x hx condition _ hcondition => ?_)
      cases x with
      | predicate property op operand =>
        exact test_compilePredicate hs hT ht ha (hbacks _ (.predicate hx)) hcondition
      | relation property target g =>
        obtain ⟨-, r, inner, hr, hinner, rfl⟩ := compileField_relation_eq_ok.1 hcondition
        obtain ⟨howner, htarget, p, hp, hptarget, -⟩ := Catalog.relation_eq_ok hr
        obtain rfl : T = r.ownerTable := Except.ok.inj (hT.symm.trans howner)
        have hlinks := (hbacks _ (.relation hx)).relation r hr
        obtain ⟨u, hu⟩ := hlinks.targetTable
        obtain ⟨d, hd, hrecord⟩ := get_of_hasColumn others b hs ht ha hlinks.1
        -- the joined rows start with a row of the target, where the nested filter is decided
        have hlinked := test_linked (P := fun target => Means c s r.target target g) hs hlinks hu
          model hd hrecord fun others a b ha => ihfields property target g hx htarget hu ha
            (fun ref href => hbacks ref (.target hx hp hptarget href)) hinner
        exact hlinked.congr (by simp [MeansField, hr])
    have hconjuncts := (test_compileAll (t.columns ++ others) (a ++ b) hall
      fun g hg clause hclause => ihall g hg hT ht ha
        (fun ref href => hbacks ref (.conjunct hg href)) hclause).1
    have halternatives := (test_compileAll (t.columns ++ others) (a ++ b) hany
      fun g hg clause hclause => ihany g hg hT ht ha
        (fun ref href => hbacks ref (.alternative hg href)) hclause).2
    have hnegated : Decides (s.testAll (t.columns ++ others) (a ++ b) not)
        (∀ g ∈ negated, ¬ Means c s model (t.record a) g) := by
      cases negated with
      | none =>
        obtain rfl := hnot
        exact ⟨true, Store.testAll_nil, by simp⟩
      | some g =>
        obtain ⟨clause, hclause, rfl⟩ := hnot
        have hg : Decides (s.test (t.columns ++ others) (a ++ b) clause)
            (Means c s model (t.record a) g) := ihnot g rfl hT ht ha
          (fun ref href => hbacks ref (.negated href)) hclause
        rw [Store.testAll_singleton, Store.test]
        exact hg.not.congr (by simp)
    have hparts := Store.testAll_append_decides (Store.testAll_append_decides
      (Store.testAll_append_decides hfields hconjuncts) halternatives) hnegated
    exact hparts.congr (by simp only [and_assoc])

/-- A compiled filter, tested on a row of the model's table of a database that stores what the
filter looks at, never fails and answers whether the row satisfies the filter. The order and
repetition of conjuncts and alternatives, at any depth, do not matter. -/
theorem compile_decides_meaning (hs : s.Full) {f : FilterExpr} {T : String} {clause : Condition}
    (hT : c.table model = .ok T) (ht : s.table T = .ok t) (ha : a ∈ t.rows)
    (hbacks : ∀ ref, Names c model f ref → s.Backs c ref)
    (h : f.compile c maxDepth model = .ok clause) :
    (∃ answer, s.test t.columns a clause = .ok answer ∧
      (answer = true ↔ Means c s model (t.record a) f)) ∧
    ∀ g clause', Rearranges f g → g.compile c maxDepth model = .ok clause' →
      s.test t.columns a clause' = s.test t.columns a clause := by
  have hdecides : ∀ g clause, Rearranges f g → g.compile c maxDepth model = .ok clause →
      Decides (s.test t.columns a clause) (Means c s model (t.record a) g) := by
    intro g clause hfg hg
    obtain ⟨U, hU, hg⟩ := compile_eq_ok.1 hg
    obtain rfl : T = U := Except.ok.inj (hT.symm.trans hU)
    have hat : Decides (s.test (t.columns ++ []) (a ++ []) clause)
        (Means c s model (t.record a) g) := test_compileAt hs hT ht ha
      (fun ref href => hbacks ref ((names_of_rearranges hfg model ref).2 href)) hg
    simpa only [List.append_nil] using hat
  refine ⟨hdecides f clause (.refl f) h, fun g clause' hfg hg => ?_⟩
  exact (hdecides g clause' hfg hg).unique (hdecides f clause (.refl f) h)
    (means_of_rearranges hfg model _).symm

end Filters

section Shelf

open Sample

/-- The authors of a book of a given title. -/
def ofTitle (title : String) : FilterExpr :=
  mk [.relation "books" Shelf.book (mk [.predicate "title" .eq (.string title)] [] [] none)] [] []
    none

theorem names_ofTitle {title : String} {ref : Reference}
    (h : Names Shelf.catalog Shelf.author (ofTitle title) ref) :
    ref = ⟨Shelf.author, "books"⟩ ∨ ref = ⟨Shelf.book, "title"⟩ := by
  have hbooks : (Shelf.catalog.property Shelf.author "books").toOption.bind (·.target)
      = some Shelf.book := by decide +kernel
  have hmk := names_mk.1 h
  simp only [NamesField, List.mem_singleton, exists_eq_left, List.not_mem_nil, false_and,
    exists_false, or_false, Option.mem_def, reduceCtorEq] at hmk
  rcases hmk with rfl | ⟨p, related, hp, hrelated, hnames⟩
  · exact .inl rfl
  · rw [hp] at hbooks
    obtain rfl : related = Shelf.book := Option.some.inj (hrelated.symm.trans hbooks)
    right
    simpa [names_mk, NamesField] using hnames

theorem backs_ofTitle {title : String} (ref : Reference)
    (h : Names Shelf.catalog Shelf.author (ofTitle title) ref) :
    Shelf.store.Backs Shelf.catalog ref := by
  rcases names_ofTitle h with rfl | rfl
  · have hkind : (Shelf.catalog.property Shelf.author "books").toOption.bind (·.scalarKind)
        = none := by decide +kernel
    have hrelation : (Shelf.catalog.relation Shelf.author "books").toOption
        = some ⟨"books", "authors", Shelf.book, "books", .hasMany "author_id"⟩ := by
      decide +kernel
    refine ⟨fun p kind table hp hp' _ => ?_, fun r hr => ?_⟩
    · simp [hp, Except.toOption, hp'] at hkind
    · rw [hr] at hrelation
      obtain rfl := Option.some.inj hrelation
      exact ⟨⟨Shelf.authors, rfl, by decide⟩, Shelf.books, rfl, by decide⟩
  · have hrelation : (Shelf.catalog.relation Shelf.book "title").toOption = none := by
      decide +kernel
    have htitle : columnName "title" = "title" := by decide +kernel
    refine ⟨fun p kind table _ _ htable => ?_, fun r hr => ?_⟩
    · obtain rfl : table = "books" := Except.ok.inj (htable.symm.trans rfl)
      exact ⟨Shelf.books, rfl, by rw [htitle]; decide⟩
    · simp [hr, Except.toOption] at hrelation

/-- Whether Annie wrote a book of a given title. -/
theorem compile_ofTitle_decides_meaning :
    ∃ clause, (ofTitle "Studyology").compile Shelf.catalog 3 Shelf.author = .ok clause ∧
    (∃ answer, Shelf.store.test Shelf.authors.columns [.int 1, .text "Annie"] clause = .ok answer ∧
      (answer = true ↔ Means Shelf.catalog Shelf.store Shelf.author
        (Shelf.authors.record [.int 1, .text "Annie"]) (ofTitle "Studyology"))) ∧
    ∀ g clause', Rearranges (ofTitle "Studyology") g →
      g.compile Shelf.catalog 3 Shelf.author = .ok clause' →
      Shelf.store.test Shelf.authors.columns [.int 1, .text "Annie"] clause' =
        Shelf.store.test Shelf.authors.columns [.int 1, .text "Annie"] clause := by
  have hcompiles : ((ofTitle "Studyology").compile Shelf.catalog 3 Shelf.author).isOk = true := by
    decide +kernel
  obtain ⟨clause, hclause⟩ := exists_of_isOk hcompiles
  exact ⟨clause, hclause, compile_decides_meaning (T := "authors") (t := Shelf.authors) (by decide)
    rfl rfl (by simp [Shelf.authors]) backs_ofTitle hclause⟩

/-- The books of an author of a given name. -/
def byAuthor (name : String) : FilterExpr :=
  mk [.relation "author" Shelf.author (mk [.predicate "name" .eq (.string name)] [] [] none)] [] []
    none

/-- The author that is found for the book that was given to another is the former one. -/
theorem not_means_byAuthor_abed : ¬ Means Shelf.catalog Shelf.regivenStore Shelf.book
    (Shelf.regivenBooks.record Shelf.regivenBook) (byAuthor "Abed") := by
  have hauthor : Shelf.catalog.relation Shelf.book "author"
      = .ok ⟨"author", "books", Shelf.author, "authors", .belongsTo "author_id"⟩ :=
    eq_ok_of_toOption (by decide +kernel)
  have hkinds : (Shelf.catalog.property Shelf.author "name").toOption.bind (·.scalarKind)
      = some .string := by decide +kernel
  have hcolumn : columnName "name" = "name" := by decide +kernel
  intro h
  obtain ⟨r, q, records, target, hr, hq, hrecords, htarget, hmeans⟩ :=
    (means_mk.1 h).1 _ (List.mem_singleton.2 rfl)
  obtain rfl := Except.ok.inj (hauthor.symm.trans hr)
  cases hq
  cases hrecords
  obtain rfl := List.mem_singleton.1 htarget
  obtain ⟨p, kind, datum, d, hp, hkind, hdatum, hd, hmeets⟩ :=
    (means_mk.1 hmeans).1 _ (List.mem_singleton.2 rfl)
  obtain rfl : kind = .string := by simpa [hp, Except.toOption, hkind] using hkinds
  cases hdatum
  rw [hcolumn] at hd
  cases hd
  have hequal : Datum.compare? (.text "Annie") (.text "Abed") = some .eq := hmeets
  exact absurd hequal (by decide)

/-- A table may have a column twice. A statement reads the first of them and the record of a row
holds the last, by which the author of the book is found: the condition of the filter admits a book
that does not satisfy it. -/
theorem compile_byAuthor_misses_meaning :
    Shelf.createdTwiceKeyed.update Shelf.regiving = .ok (Shelf.regivenStore, 1) ∧
      (∀ column ∈ ["id", "title", "author_id"], Shelf.regivenBooks.hasColumn column = true) ∧
      (∀ column ∈ ["id", "name"], Shelf.authors.hasColumn column = true) ∧
      ∃ clause, (byAuthor "Abed").compile Shelf.catalog 3 Shelf.book = .ok clause ∧
        Shelf.regivenStore.test Shelf.regivenBooks.columns Shelf.regivenBook clause = .ok true ∧
        ¬ Means Shelf.catalog Shelf.regivenStore Shelf.book
          (Shelf.regivenBooks.record Shelf.regivenBook) (byAuthor "Abed") := by
  refine ⟨rfl, by decide, by decide, ?_⟩
  have hcompiles : ((byAuthor "Abed").compile Shelf.catalog 3 Shelf.book).isOk = true := by
    decide +kernel
  obtain ⟨clause, hclause⟩ := exists_of_isOk hcompiles
  have htest : ((byAuthor "Abed").compile Shelf.catalog 3 Shelf.book).toOption.bind
      (fun clause =>
        (Shelf.regivenStore.test Shelf.regivenBooks.columns Shelf.regivenBook clause).toOption)
        = some true := by decide +kernel
  rw [hclause] at htest
  exact ⟨clause, hclause, eq_ok_of_toOption htest, not_means_byAuthor_abed⟩

end Shelf

end FilterExpr

end EntityGraph
