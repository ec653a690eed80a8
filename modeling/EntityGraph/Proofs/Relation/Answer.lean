import EntityGraph.Proofs.Relation.Restriction
import EntityGraph.Proofs.Store.Answer

/-!
# Answers of restricted queries

A query on a model's table with the additions of a list answers for each row of the table a block
of records, one for each tail that meets the filter, and sorts the blocks of the rows that it asks
for. The block of a row is the same whichever rows are asked for, and also if the rows are joined
with a table of pairs that the additions do not look at.

* `ListArgs.Added.select_column` and `ListArgs.Added.select_pivot` say that queries answer so;
* `ListArgs.Added.filter_answer` takes from an answer the rows that meet a narrower test.
-/

namespace EntityGraph

/-- A datum that a database holds in a column of one of its tables. -/
def Store.Holds (s : Store) (column : Column) (d : Datum) : Prop :=
  ∃ t row, column.table = some t.name ∧ s.table t.name = .ok t ∧ row ∈ t.rows ∧
    row.get t.columns column = .ok d

/-- A column holds null and data of one kind, which is not that of floating point numbers. -/
def Store.OneKind (s : Store) (column : Column) : Prop :=
  ∃ kind, kind ≠ "float" ∧ ∀ d, s.Holds column d → d.OfKind kind

/-- A row of joined tables has a datum for each column, and what is read from it in a qualified
column is held in that column. -/
structure Row.ReadsFrom (s : Store) (schema : List Column) (row : Row) : Prop where
  length_eq : row.length = schema.length
  holds : ∀ column d, column.table.isSome → row.get schema column = .ok d → s.Holds column d

section Rows

variable {s : Store} {schema : List Column} {row : Row} {t : Table}

theorem Table.readsFrom (hs : s.Full) {T : String} (ht : s.table T = .ok t) (hrow : row ∈ t.rows) :
    row.ReadsFrom s t.columns := by
  have hname := (Store.mem_of_table ht).2
  have hlen : row.length = t.columns.length := (hs.table ht row hrow).trans t.length_columns.symm
  refine ⟨hlen, fun column d hsome hd => ⟨t, row, ?_, hname ▸ ht, hrow, hd⟩⟩
  -- the column is found in the schema, so it is one of the table's
  obtain ⟨c, hc, hrefers⟩ : ∃ c ∈ t.columns, column.refersTo c = true := by
    by_contra hnone
    have hfind : t.columns.findIdx? column.refersTo = none := List.findIdx?_eq_none_iff.2
      fun c hc => by simpa using fun h => hnone ⟨c, hc, h⟩
    simp [Row.get, hfind] at hd
  have heq : column = c := by simpa [Column.refersTo, hsome] using hrefers
  exact heq ▸ Table.table_of_mem_columns hc

theorem Row.ReadsFrom.append (hrow : row.ReadsFrom s schema) {b : Row}
    (hb : b.ReadsFrom s t.columns) : Row.ReadsFrom s (schema ++ t.columns) (row ++ b) where
  length_eq := by rw [List.length_append, List.length_append, hrow.length_eq, hb.length_eq]
  holds column d hsome hd := by
    by_cases h : ∃ c ∈ schema, column.refersTo c = true
    · rw [Row.get_append_left hrow.length_eq h] at hd
      exact hrow.holds column d hsome hd
    · rw [Row.get_append_right hrow.length_eq fun c hc => by
        simpa using fun hr => h ⟨c, hc, hr⟩] at hd
      exact hb.holds column d hsome hd

theorem Row.ReadsFrom.tails (hs : s.Full) {js : List Join} (hrow : row.ReadsFrom s schema) :
    ∀ b ∈ s.tails schema row js, Row.ReadsFrom s (schema ++ s.tailColumns js) (row ++ b) := by
  induction js generalizing schema row with
  | nil => simpa [Store.tails, Store.tailColumns] using hrow
  | cons j js ih =>
    intro b hb
    rw [Store.tails] at hb
    rw [Store.tailColumns]
    cases ht : s.table j.table with
    | error e => simp [ht] at hb
    | ok t =>
      simp only [ht, List.mem_flatMap, List.mem_map, List.mem_filter] at hb ⊢
      obtain ⟨x, ⟨hx, -⟩, y, hy, rfl⟩ := hb
      have h := ih (hrow.append (Table.readsFrom hs ht hx)) y hy
      simpa only [List.append_assoc] using h

/-- Null or a datum held in the column. -/
theorem Row.ReadsFrom.ofKind (hrow : row.ReadsFrom s schema) {column : Column} {kind : String}
    (hsome : column.table.isSome) (hkind : ∀ d, s.Holds column d → d.OfKind kind) :
    (row.datum schema column).OfKind kind := by
  unfold Row.datum
  cases hd : row.get schema column with
  | error e => exact .inl rfl
  | ok d => exact hkind d (hrow.holds column d hsome hd)

end Rows

namespace ListArgs.Added

variable {args : ListArgs} {c : Catalog} {maxDepth : Nat} {model : ModelId} {T : String}
  (A : args.Added c maxDepth model T) (s : Store) (t : Table)

/-- The columns of a row of the table with its tails. -/
def schema : List Column := t.columns ++ s.tailColumns A.joins

/-- What a row of the table adds to an answer. -/
def block (row : Row) : List (List Datum × Record) :=
  ((s.tails t.columns row A.joins).filter fun b =>
    holds (s.testAll (A.schema s t) (row ++ b) A.clauses)).map fun b =>
      Select.ranked A.order T (A.schema s t) (row ++ b)

/-- The answer for the rows of the table that meet a test. -/
def answer (test : Row → Bool) : List Record :=
  (Select.stableSort (Select.precedes A.order) ((t.rows.filter test).flatMap (A.block s t))).map
    (·.2)

variable {A s t}

/-- The records of a block are that of the row. -/
theorem record_of_mem_block (hs : s.Full) (ht : s.table T = .ok t)
    (hapart : ∀ j ∈ A.joins, j.table ≠ T) {row : Row} (hrow : row ∈ t.rows)
    {x : List Datum × Record} (hx : x ∈ A.block s t row) : x.2 = t.record row := by
  obtain ⟨b, -, rfl⟩ := List.mem_map.1 hx
  have hname := (Store.mem_of_table ht).2
  subst hname
  exact Select.part_append (hs.table ht row hrow) (Store.tailColumns_ne hapart)

theorem ranks_blocks (hs : s.Full) (ht : s.table T = .ok t)
    (hkind : ∀ term ∈ A.order, s.OneKind term.column) :
    Select.Ranks (Select.precedes A.order) (t.rows.flatMap (A.block s t)) := by
  refine Select.ranks_keys A.length_order fun term hterm => ?_
  obtain ⟨kind, hfloat, hheld⟩ := hkind term hterm
  refine ⟨kind, fun x hx => ?_⟩
  obtain ⟨row, hrow, hx⟩ := List.mem_flatMap.1 hx
  obtain ⟨b, hb, rfl⟩ := List.mem_map.1 hx
  have hreads := (Table.readsFrom hs ht hrow).tails hs b (List.mem_of_mem_filter hb)
  refine ⟨Row.datum (A.schema s t) (row ++ b) term.column, ?_,
    (hreads.ofKind ?_ hheld).sortsAs hfloat⟩
  · obtain ⟨only, horder⟩ : ∃ only, A.order = [only] := by
      have hlength := A.length_order
      match h : A.order with
      | [] => simp [h] at hterm
      | [only] => exact ⟨only, rfl⟩
      | _ :: _ :: _ => simp [h] at hlength
    rw [horder, List.mem_singleton] at hterm
    simp [Select.ranked, Select.sortKeys, horder, hterm]
  · rcases A.sorted term hterm with h | ⟨j, -, h⟩ <;> rw [h] <;> rfl

/-- Items that add nothing can be left out before the rest is added up. -/
theorem flatMap_eq_flatMap_filter {α β : Type} {l : List α} {f g : α → List β} {test : α → Bool}
    (h : ∀ a ∈ l, g a = if test a then f a else []) : l.flatMap g = (l.filter test).flatMap f := by
  induction l with
  | nil => rfl
  | cons a l ih =>
    rw [List.flatMap_cons, h a List.mem_cons_self, ih fun b hb => h b (List.mem_cons_of_mem a hb),
      List.filter_cons]
    split_ifs
    · rw [List.flatMap_cons]
    · rfl

/-- The part of an answer that meets a narrower test. -/
theorem filter_answer (hs : s.Full) (ht : s.table T = .ok t)
    (hapart : ∀ j ∈ A.joins, j.table ≠ T) (hkind : ∀ term ∈ A.order, s.OneKind term.column)
    {wide narrow : Row → Bool} {keep : Record → Bool}
    (hsub : ∀ row ∈ t.rows, narrow row = true → wide row = true)
    (hkeep : ∀ row ∈ t.rows, keep (t.record row) = narrow row) :
    A.answer s t narrow = (A.answer s t wide).filter keep := by
  have hblocks : ((t.rows.filter wide).flatMap (A.block s t)).filter (fun x => keep x.2)
      = (t.rows.filter narrow).flatMap (A.block s t) := by
    have hnarrow : t.rows.filter narrow = (t.rows.filter wide).filter narrow := by
      rw [List.filter_filter]
      refine List.filter_congr fun row hrow => ?_
      cases h : narrow row with
      | true => rw [hsub row hrow h, Bool.and_true]
      | false => rw [Bool.false_and]
    rw [List.filter_flatMap, hnarrow]
    refine flatMap_eq_flatMap_filter fun row hrow => ?_
    have hrow := List.mem_of_mem_filter hrow
    have hrecord : ∀ x ∈ A.block s t row, keep x.2 = narrow row := fun x hx => by
      rw [record_of_mem_block hs ht hapart hrow hx, hkeep row hrow]
    split_ifs with hnarrow
    · exact List.filter_eq_self.2 fun x hx => by rw [hrecord x hx, hnarrow]
    · exact List.filter_eq_nil_iff.2 fun x hx => by rw [hrecord x hx]; exact hnarrow
  have hsubset : (t.rows.filter wide).flatMap (A.block s t) ⊆ t.rows.flatMap (A.block s t) :=
    fun x hx => by
      obtain ⟨row, hrow, hx⟩ := List.mem_flatMap.1 hx
      exact List.mem_flatMap.2 ⟨row, List.mem_of_mem_filter hrow, hx⟩
  have hranks := (ranks_blocks hs ht hkind).of_subset hsubset
  rw [answer, answer, ← hblocks, ← Select.filter_stableSort hranks, List.filter_map]
  rfl

section Queries

variable {limit offset : Option Nat} {records : List Record}

/-- A query with a test of the row in front of each joined row. -/
theorem select_column {clause : Condition} (test : Row → Bool) (ht : s.table T = .ok t)
    (h : s.select (Query.toSelect ⟨T, A.joins, clause :: A.clauses, A.order, limit, offset⟩)
      = .ok records)
    (htest : ∀ row ∈ t.rows, ∀ b,
      holds (s.test (A.schema s t) (row ++ b) clause) = test row) :
    records = Select.window offset limit (A.answer s t test) := by
  obtain ⟨f, hf, rfl⟩ := Store.select_ranked h
  obtain ⟨u, hu, rfl⟩ := Store.frame_tails hf
  obtain rfl : t = u := Except.ok.inj (ht.symm.trans hu)
  have hkept : s.kept ⟨T, A.joins, clause :: A.clauses, A.order, limit, offset⟩
      ⟨A.schema s t, t.rows.flatMap fun row => (s.tails t.columns row A.joins).map (row ++ ·)⟩
        = (t.rows.filter test).flatMap (A.block s t) := by
    rw [Store.kept, List.filter_flatMap, List.map_flatMap]
    refine flatMap_eq_flatMap_filter fun row hrow => ?_
    simp only [List.filter_map, List.map_map, Function.comp_def, Store.holds_testAll_cons,
      htest row hrow, block]
    cases test row <;> simp
  exact congrArg (fun l => Select.window offset limit
    ((Select.stableSort (Select.precedes A.order) l).map (·.2))) hkept

variable {p : Table} {j : Join} {column : Column}

section Pivot

variable {p : Table} {j : Join} {column : Column}

/-- A column of the table or of the joins is not that of a table of pairs. -/
theorem refersTo_pivot (hp : s.table j.table = .ok p)
    (hjoins : ∀ k ∈ A.joins, k.table ≠ j.table) (hT : T ≠ j.table)
    (hcolumn : OrderExpr.Within T A.joins column) : ∀ e ∈ p.columns, column.refersTo e = false := by
  obtain ⟨U, hU, hne⟩ : ∃ U, column.table = some U ∧ U ≠ j.table := by
    rcases hcolumn with h | ⟨k, hk, h⟩
    · exact ⟨T, h, hT⟩
    · exact ⟨k.table, h, hjoins k hk⟩
  exact fun e he => Column.refersTo_eq_false hU (Store.columns_ne hp hne e he)

/-- Whether a row of a table of pairs belongs to a row of the table and holds a datum. -/
def pairsWith (t p : Table) (j : Join) (column : Column) (d : Datum) (row b : Row) : Bool :=
  holds (j.admits (t.columns ++ p.columns) (row ++ b)) && (b.datum p.columns column).equals d

section Between

variable (hs : s.Full) (ht : s.table T = .ok t) (hp : s.table j.table = .ok p) (hT : T ≠ j.table)
  (hjoins : ∀ k ∈ A.joins, k.table ≠ T ∧ k.table ≠ j.table) {row b : Row} (hrow : row ∈ t.rows)
  (hb : b ∈ p.rows)

include hs ht hp hT hjoins hrow hb

/-- With a pair behind it a row has the same tails. -/
theorem tails_pivot :
    s.tails (t.columns ++ p.columns) (row ++ b) A.joins = s.tails t.columns row A.joins := by
  have hlen := (Table.readsFrom hs ht hrow).length_eq
  have hlenb := (Table.readsFrom hs hp hb).length_eq
  have h : s.tails (t.columns ++ p.columns ++ []) (row ++ b ++ []) A.joins
      = s.tails (t.columns ++ []) (row ++ []) A.joins :=
    Store.tails_insert hlen hlenb fun k hk c hc =>
      refersTo_pivot hp (fun k hk => (hjoins k hk).2) hT (A.reads k hk c hc)
  simpa only [List.append_nil] using h

/-- What the additions read of a joined row they read of the row without the pair. -/
theorem get_pivot {c : Column} (hwithin : OrderExpr.Within T A.joins c) (x : Row) :
    Row.get (t.columns ++ (p.columns ++ s.tailColumns A.joins)) (row ++ (b ++ x)) c
      = Row.get (A.schema s t) (row ++ x) c := by
  rw [← List.append_assoc, ← List.append_assoc]
  exact Row.get_insert (Table.readsFrom hs ht hrow).length_eq (Table.readsFrom hs hp hb).length_eq
    (refersTo_pivot hp (fun k hk => (hjoins k hk).2) hT hwithin)

theorem ranked_pivot (x : Row) :
    Select.ranked A.order T (t.columns ++ (p.columns ++ s.tailColumns A.joins)) (row ++ (b ++ x))
      = Select.ranked A.order T (A.schema s t) (row ++ x) := by
  refine Prod.ext (List.map_congr_left fun term hterm => ?_) ?_
  · rw [Row.datum, Row.datum, get_pivot hs ht hp hT hjoins hrow hb (A.sorted term hterm)]
  · obtain rfl := (Store.mem_of_table ht).2
    have hne := Store.tailColumns_ne (s := s) fun k hk => (hjoins k hk).1
    have hrow := hs.table ht row hrow
    refine (Select.part_append hrow fun e he => ?_).trans (Select.part_append hrow hne).symm
    rcases List.mem_append.1 he with he | he
    · exact Store.columns_ne hp hT e he
    · exact hne e he

end Between

/-- The block of a row once for every pair of the row. -/
theorem pivot_block (hs : s.Full) (ht : s.table T = .ok t) (hp : s.table j.table = .ok p)
    (hT : T ≠ j.table) (hjoins : ∀ k ∈ A.joins, k.table ≠ T ∧ k.table ≠ j.table)
    (hcolumn : ∃ e ∈ p.columns, column.refersTo e = true) (htable : column.table = some j.table)
    (d : Datum) {row : Row} (hrow : row ∈ t.rows) :
    (((s.tails t.columns row (j :: A.joins)).map (row ++ ·)).filter fun x => holds (s.testAll
        (t.columns ++ s.tailColumns (j :: A.joins)) x (.compare column .eq d :: A.clauses))).map
          (Select.ranked A.order T (t.columns ++ s.tailColumns (j :: A.joins)))
      = (p.rows.filter (pairsWith t p j column d row)).flatMap fun _ => A.block s t row := by
  have hpairs : p.rows.filter (pairsWith t p j column d row)
      = (p.rows.filter fun b => holds (j.admits (t.columns ++ p.columns) (row ++ b))).filter
        fun b => (b.datum p.columns column).equals d := by
    rw [List.filter_filter]
    exact List.filter_congr fun b _ => Bool.and_comm _ _
  rw [Store.tails, Store.tailColumns]
  simp only [hp]
  rw [List.map_flatMap, List.filter_flatMap, List.map_flatMap, hpairs]
  refine flatMap_eq_flatMap_filter fun b hb => ?_
  have hb := List.mem_of_mem_filter hb
  have hclauses : ∀ x, s.testAll (t.columns ++ (p.columns ++ s.tailColumns A.joins))
      (row ++ (b ++ x)) A.clauses = s.testAll (A.schema s t) (row ++ x) A.clauses :=
    fun x => Store.testAll_congr A.clauses fun c hc =>
      get_pivot hs ht hp hT hjoins hrow hb (.inl (A.scope c hc)) x
  have hdatum : ∀ x, Row.datum (t.columns ++ (p.columns ++ s.tailColumns A.joins))
      (row ++ (b ++ x)) column = b.datum p.columns column := by
    intro x
    rw [Row.datum, Store.get_behind ht (hs.table ht row hrow) htable hT.symm,
      Row.get_append_left (Table.readsFrom hs hp hb).length_eq hcolumn, Row.datum]
  simp only [List.filter_map, List.map_map, Function.comp_def, Store.holds_testAll_cons,
    Store.holds_test_eq, hdatum, hclauses, ranked_pivot hs ht hp hT hjoins hrow hb,
    tails_pivot hs ht hp hT hjoins hrow hb, block]
  cases (b.datum p.columns column).equals d <;> simp

/-- A query with a join of a table of pairs, and a test of the pair. -/
theorem select_pivot {limit offset : Option Nat} {records : List Record} {d : Datum} (hs : s.Full)
    (ht : s.table T = .ok t) (hp : s.table j.table = .ok p) (hT : T ≠ j.table)
    (hjoins : ∀ k ∈ A.joins, k.table ≠ T ∧ k.table ≠ j.table)
    (hcolumn : ∃ e ∈ p.columns, column.refersTo e = true) (htable : column.table = some j.table)
    (hone : ∀ row ∈ t.rows, (p.rows.filter (pairsWith t p j column d row)).length ≤ 1)
    (h : s.select (Query.toSelect ⟨T, j :: A.joins, .compare column .eq d :: A.clauses, A.order,
      limit, offset⟩) = .ok records) :
    records = Select.window offset limit
      (A.answer s t fun row => p.rows.any (pairsWith t p j column d row)) := by
  obtain ⟨f, hf, rfl⟩ := Store.select_ranked h
  obtain ⟨u, hu, rfl⟩ := Store.frame_tails hf
  obtain rfl : t = u := Except.ok.inj (ht.symm.trans hu)
  have hkept : s.kept ⟨T, j :: A.joins, .compare column .eq d :: A.clauses, A.order, limit, offset⟩
      ⟨t.columns ++ s.tailColumns (j :: A.joins),
        t.rows.flatMap fun row => (s.tails t.columns row (j :: A.joins)).map (row ++ ·)⟩
        = (t.rows.filter fun row => p.rows.any (pairsWith t p j column d row)).flatMap
          (A.block s t) := by
    rw [Store.kept, List.filter_flatMap, List.map_flatMap]
    refine flatMap_eq_flatMap_filter fun row hrow => ?_
    rw [pivot_block hs ht hp hT hjoins hcolumn htable d hrow]
    have hlength := hone row hrow
    match hpairs : p.rows.filter (pairsWith t p j column d row) with
    | [] =>
      have hany : p.rows.any (pairsWith t p j column d row) = false := by
        simpa [List.filter_eq_nil_iff] using hpairs
      simp [hany]
    | [b] =>
      have hb : b ∈ p.rows.filter (pairsWith t p j column d row) := by simp [hpairs]
      have hany : p.rows.any (pairsWith t p j column d row) = true :=
        List.any_eq_true.2 ⟨b, List.mem_of_mem_filter hb, (List.mem_filter.1 hb).2⟩
      simp [hany]
    | _ :: _ :: _ => simp [hpairs] at hlength
  exact congrArg (fun l => Select.window offset limit
    ((Select.stableSort (Select.precedes A.order) l).map (·.2))) hkept

end Pivot

end Queries

end ListArgs.Added

end EntityGraph
