import Mathlib.Tactic.SplitIfs
import EntityGraph.Proofs.Dict
import EntityGraph.Store.Select

/-!
# Cells of rows

What a reference to a column reads in a row of joined tables, and what the record of a row holds.

* `Row.get_append_left`, `Row.get_append_right` and `Row.get_insert` say which part of a joined row
  a column is read from, and `Store.get_front` and `Store.get_behind` say it of a row with a row of
  a table in front;
* a full row of a table gives a statement a datum for every column of the table
  (`Table.exists_get_of_hasColumn`), and where the table `Table.Has` the column it is the one that
  the record of the row holds (`Table.exists_get`). Of several columns of one name a statement reads
  the first and the record holds the last.
-/

namespace EntityGraph

/-- A table has exactly one column of a name. -/
def Table.Has (t : Table) (column : String) : Prop :=
  (t.schema.map (·.name)).count column = 1

instance (t : Table) (column : String) : Decidable (t.Has column) :=
  inferInstanceAs (Decidable (_ = 1))

/-- Every row of a table has a datum for each column of the schema. -/
def Table.Full (t : Table) : Prop :=
  ∀ row ∈ t.rows, row.length = t.schema.length

instance (t : Table) : Decidable t.Full :=
  inferInstanceAs (Decidable (∀ row ∈ t.rows, _ = _))

/-- Every row of every table has a datum for each column of its schema. -/
def Store.Full (s : Store) : Prop :=
  ∀ t ∈ s.tables, t.Full

instance (s : Store) : Decidable s.Full :=
  inferInstanceAs (Decidable (∀ t ∈ s.tables, t.Full))

theorem Store.mem_of_table {s : Store} {name : String} {t : Table} (h : s.table name = .ok t) :
    t ∈ s.tables ∧ t.name = name := by
  unfold Store.table at h
  cases hf : s.tables.find? (·.name == name) with
  | none => simp [hf] at h
  | some u =>
    simp only [hf, Option.elim_some, Except.ok.injEq] at h
    subst h
    exact ⟨List.mem_of_find?_eq_some hf, by simpa using List.find?_some hf⟩

theorem Store.Full.table {s : Store} (hs : s.Full) {name : String} {t : Table}
    (h : s.table name = .ok t) : t.Full :=
  hs t (Store.mem_of_table h).1

namespace Column

@[simp] theorem of_table (t n : String) : (Column.of t n).table = some t := rfl

@[simp] theorem of_name (t n : String) : (Column.of t n).name = n := rfl

theorem of_inj {t u n m : String} : Column.of t n = Column.of u m ↔ t = u ∧ n = m := by
  simp [Column.of]

theorem refersTo_of (t n : String) (c : Column) :
    (Column.of t n).refersTo c = (Column.of t n == c) := rfl

/-- A column of another table is not meant. -/
theorem refersTo_eq_false {c d : Column} {t : String} (hc : c.table = some t)
    (hd : d.table ≠ some t) : c.refersTo d = false := by
  have hne : c ≠ d := fun h => hd (h ▸ hc)
  simp [refersTo, hc, hne]

end Column

namespace Row

variable {A P S : List Column} {a p b : Row} {c : Column}

/-- A column of the first part is read from the first part. -/
theorem get_append_left (ha : a.length = A.length) (hc : ∃ d ∈ A, c.refersTo d = true) :
    Row.get (A ++ S) (a ++ b) c = Row.get A a c := by
  obtain ⟨i, hi⟩ := Option.isSome_iff_exists.1 (List.findIdx?_isSome.trans (List.any_eq_true.2 hc))
  have hlt : i < a.length := ha ▸ (List.findIdx?_eq_some_iff_findIdx_eq.1 hi).1
  simp [Row.get, List.findIdx?_append, hi, List.getElem?_append_left hlt]

/-- A column that the first part lacks is read from the second. -/
theorem get_append_right (ha : a.length = A.length) (hc : ∀ d ∈ A, c.refersTo d = false) :
    Row.get (A ++ S) (a ++ b) c = Row.get S b c := by
  have hA : A.findIdx? c.refersTo = none := List.findIdx?_eq_none_iff.2 hc
  simp only [Row.get, List.findIdx?_append, hA, Option.none_or]
  cases S.findIdx? c.refersTo with
  | none => rfl
  | some i => simp [List.getElem?_append_right, ha]

/-- A part in the middle does not matter to a column that it lacks. -/
theorem get_insert (ha : a.length = A.length) (hp : p.length = P.length)
    (hc : ∀ d ∈ P, c.refersTo d = false) :
    Row.get (A ++ P ++ S) (a ++ p ++ b) c = Row.get (A ++ S) (a ++ b) c := by
  by_cases hA : ∃ d ∈ A, c.refersTo d = true
  · rw [List.append_assoc, List.append_assoc, get_append_left ha hA, get_append_left ha hA]
  · have hA' : ∀ d ∈ A, c.refersTo d = false := fun d hd => by
      simpa using fun h => hA ⟨d, hd, h⟩
    rw [List.append_assoc, List.append_assoc, get_append_right ha hA', get_append_right ha hA',
      get_append_right hp hc]

end Row

namespace Table

theorem table_of_mem_columns {t : Table} {c : Column} (h : c ∈ t.columns) :
    c.table = some t.name := by
  obtain ⟨spec, -, rfl⟩ := List.mem_map.1 h
  rfl

@[simp] theorem length_columns (t : Table) : t.columns.length = t.schema.length := by
  simp [columns]

theorem Has.hasColumn {t : Table} {column : String} (h : t.Has column) :
    t.hasColumn column = true := by
  have hpos : 0 < (t.schema.map (·.name)).count column := by
    rw [h]
    omega
  obtain ⟨spec, hspec, rfl⟩ := List.mem_map.1 (List.count_pos_iff.1 hpos)
  exact List.any_eq_true.2 ⟨spec, hspec, by simp⟩

theorem exists_refersTo {t : Table} {column : String} (h : t.hasColumn column = true) :
    ∃ d ∈ t.columns, (Column.of t.name column).refersTo d = true := by
  obtain ⟨spec, hspec, hname⟩ := List.any_eq_true.1 h
  obtain rfl := beq_iff_eq.1 hname
  exact ⟨Column.of t.name spec.name, List.mem_map.2 ⟨spec, hspec, rfl⟩, by
    simp [Column.refersTo_of]⟩

/-- A full row has a datum in every column of its table. -/
theorem exists_get_of_hasColumn {t : Table} {row : Row} {column : String}
    (h : t.hasColumn column = true) (hrow : row.length = t.schema.length) :
    ∃ d, row.get t.columns (Column.of t.name column) = .ok d := by
  obtain ⟨i, hi⟩ := Option.isSome_iff_exists.1
    (List.findIdx?_isSome.trans (List.any_eq_true.2 (exists_refersTo h)))
  have hlt : i < row.length := by
    rw [hrow, ← t.length_columns]
    exact (List.findIdx?_eq_some_iff_findIdx_eq.1 hi).1
  exact ⟨row[i], by simp [Row.get, hi, hlt]⟩

/-- Setting the data of other columns leaves a column alone. -/
theorem get?_foldl_set_of_notMem {column : String} {names : List String} (row : Row) (r : Record)
    (h : column ∉ names) :
    ((names.zip row).foldl (fun (r : Record) e => r.set e.1 e.2) r).get? column
      = r.get? column := by
  induction names generalizing row r with
  | nil => rfl
  | cons n names ih =>
    cases row with
    | nil => rfl
    | cons d row =>
      obtain ⟨hn, hrest⟩ := List.ne_and_not_mem_of_not_mem_cons h
      rw [List.zip_cons_cons, List.foldl_cons, ih row _ hrest, Dict.get?_set, if_neg hn]

theorem get?_foldl_set {column : String} {names : List String} (row : Row) (r : Record)
    (h : names.count column = 1) (hlen : row.length = names.length) :
    ∃ i d, names.findIdx? (column == ·) = some i ∧ row[i]? = some d ∧
      ((names.zip row).foldl (fun (r : Record) e => r.set e.1 e.2) r).get? column = some d := by
  induction names generalizing row r with
  | nil => simp at h
  | cons n names ih =>
    cases row with
    | nil => simp at hlen
    | cons d row =>
      by_cases hn : column = n
      · subst hn
        have hrest : column ∉ names := List.count_eq_zero.1 (by simpa using h)
        refine ⟨0, d, by simp [List.findIdx?_cons], rfl, ?_⟩
        rw [List.zip_cons_cons, List.foldl_cons, get?_foldl_set_of_notMem row _ hrest]
        simp
      · have hcount : names.count column = 1 := by
          rw [List.count_cons_of_ne (Ne.symm hn)] at h
          exact h
        obtain ⟨i, e, hi, he, hget⟩ := ih row (r.set n d) hcount (by simpa using hlen)
        exact ⟨i + 1, e, by simp [List.findIdx?_cons, hn, hi], by simpa using he, hget⟩

/-- A column of a table holds one datum in a full row, for statements and in the record. -/
theorem exists_get {t : Table} {row : Row} {column : String} (h : t.Has column)
    (hrow : row.length = t.schema.length) :
    ∃ d, row.get t.columns (Column.of t.name column) = .ok d
      ∧ (t.record row).get? column = some d := by
  obtain ⟨i, d, hi, hd, hget⟩ := get?_foldl_set row Dict.empty h (by simpa using hrow)
  refine ⟨d, ?_, hget⟩
  have hfind : t.columns.findIdx? (Column.of t.name column).refersTo = some i := by
    rw [← hi, columns, List.findIdx?_map, List.findIdx?_map]
    congr 1
    funext spec
    rw [Bool.eq_iff_iff]
    simp [Column.refersTo_of, Column.of_inj]
  simp [Row.get, hfind, hd]

end Table

namespace Store

variable {s : Store} {T U : String} {t : Table} {a : Row} {column : String}

/-- The columns of a table are not those of a table of another name. -/
theorem columns_ne (ht : s.table T = .ok t) (hne : U ≠ T) : ∀ c ∈ t.columns, c.table ≠ some U := by
  intro c hc heq
  rw [Table.table_of_mem_columns hc, (mem_of_table ht).2] at heq
  exact hne (Option.some.inj heq).symm

/-- A column of the table in front of a joined row is read from the front. -/
theorem get_front (ht : s.table T = .ok t) (ha : a.length = t.schema.length)
    (hcolumn : t.hasColumn column = true) (S : List Column) (b : Row) :
    Row.get (t.columns ++ S) (a ++ b) (Column.of T column)
      = a.get t.columns (Column.of T column) := by
  obtain rfl := (mem_of_table ht).2
  exact Row.get_append_left (ha.trans t.length_columns.symm) (Table.exists_refersTo hcolumn)

/-- A column of another table is read from what stands behind the front. -/
theorem get_behind (ht : s.table T = .ok t) (ha : a.length = t.schema.length) {c : Column}
    (hc : c.table = some U) (hne : U ≠ T) (S : List Column) (b : Row) :
    Row.get (t.columns ++ S) (a ++ b) c = b.get S c :=
  Row.get_append_right (ha.trans t.length_columns.symm) fun d hd =>
    Column.refersTo_eq_false hc (columns_ne ht hne d hd)

/-- A full row has a datum in every column of its table. -/
theorem exists_get_of_hasColumn (ht : s.table T = .ok t) (ha : a.length = t.schema.length)
    (hcolumn : t.hasColumn column = true) : ∃ d, a.get t.columns (Column.of T column) = .ok d := by
  obtain rfl := (mem_of_table ht).2
  exact Table.exists_get_of_hasColumn hcolumn ha

/-- A column of a table holds one datum in a full row, for statements and in the record. -/
theorem exists_get (ht : s.table T = .ok t) (ha : a.length = t.schema.length)
    (hhas : t.Has column) :
    ∃ d, a.get t.columns (Column.of T column) = .ok d ∧ (t.record a).get? column = some d := by
  obtain rfl := (mem_of_table ht).2
  exact Table.exists_get hhas ha

end Store

namespace Select

/-- The record of the columns of one table in a row. -/
def part (T : String) (schema : List Column) (row : Row) : Record :=
  (schema.zip row).foldl
    (fun (r : Record) e => if e.1.table = some T then r.set e.1.name e.2 else r) Dict.empty

theorem recordOf_allFrom (T : String) (schema : List Column) (row : Row) :
    recordOf [.allFrom T] schema row = .ok (part T schema row) := rfl

theorem foldl_set_of_table_ne {T : String} {schema : List Column} (row : Row) (r : Record)
    (h : ∀ c ∈ schema, c.table ≠ some T) :
    (schema.zip row).foldl
      (fun (r : Record) e => if e.1.table = some T then r.set e.1.name e.2 else r) r = r := by
  induction schema generalizing row r with
  | nil => rfl
  | cons c schema ih =>
    cases row with
    | nil => rfl
    | cons d row =>
      rw [List.zip_cons_cons, List.foldl_cons, if_neg (h c List.mem_cons_self)]
      exact ih row r fun x hx => h x (List.mem_cons_of_mem c hx)

theorem foldl_set_columns (T : String) (specs : List ColumnSpec) (row : Row) (r : Record) :
    ((specs.map fun c => Column.of T c.name).zip row).foldl
      (fun (r : Record) e => if e.1.table = some T then r.set e.1.name e.2 else r) r
      = ((specs.map (·.name)).zip row).foldl (fun (r : Record) e => r.set e.1 e.2) r := by
  induction specs generalizing row r with
  | nil => rfl
  | cons c specs ih =>
    cases row with
    | nil => rfl
    | cons d row => simp [ih]

/-- The record of a row of a table. -/
theorem part_columns (t : Table) (row : Row) : part t.name t.columns row = t.record row := by
  rw [part, Table.columns, foldl_set_columns]
  rfl

/-- The record of a table's columns in a joined row is that of the row of the table. -/
theorem part_append {t : Table} {schema : List Column} {row rest : Row}
    (hrow : row.length = t.schema.length) (h : ∀ c ∈ schema, c.table ≠ some t.name) :
    part t.name (t.columns ++ schema) (row ++ rest) = t.record row := by
  rw [part, List.zip_append (by simp [hrow]), List.foldl_append, foldl_set_of_table_ne _ _ h,
    Table.columns, foldl_set_columns]
  rfl

end Select

end EntityGraph
