import EntityGraph.Proofs.Store.Cells
import EntityGraph.Proofs.Store.Compare
import EntityGraph.Proofs.Store.Reads
import EntityGraph.Proofs.Store.Selection
import EntityGraph.Proofs.Store.Sort

/-!
# The answer of a query row by row

A successful query is a function of the rows of its table: each row brings its tails, which are
what the joins put behind it, the rows that meet the conditions are ranked by their sort keys, and
the sorted list is cut to the window.

* `Store.joinAll_tails` describes joined rows by the tails of the rows in front;
* `Store.tails_insert` says that a part in the middle of a row does not change its tails, as long
  as no join reads it;
* `Store.select_ranked` is the answer of a query.
-/

namespace EntityGraph

/-- The datum of a row in a column, null if there is none. -/
def Row.datum (schema : List Column) (row : Row) (c : Column) : Datum :=
  match row.get schema c with
  | .ok d => d
  | .error _ => .null

theorem Row.datum_of_get {schema : List Column} {row : Row} {c : Column} {d : Datum}
    (h : row.get schema c = .ok d) : row.datum schema c = d := by
  rw [datum, h]

@[simp] theorem Datum.null_equals (d : Datum) : equals .null d = false := rfl

namespace Store

section Tests

variable {s : Store} {schema : List Column} {row : Row}

theorem holds_testAll_cons (c : Condition) (cs : List Condition) :
    holds (s.testAll schema row (c :: cs))
      = (holds (s.test schema row c) && holds (s.testAll schema row cs)) := by
  rw [testAll_cons]
  cases s.test schema row c with
  | error e => rfl
  | ok b => cases b <;> rfl

theorem holds_test_oneOf (c : Column) (ds : List Datum) :
    holds (s.test schema row (.oneOf c ds)) = ds.any (row.datum schema c).equals := by
  rw [test, Row.datum]
  cases row.get schema c with
  | error e => simp [holds, bind, Except.bind]
  | ok d => rfl

theorem holds_test_eq (c : Column) (d : Datum) :
    holds (s.test schema row (.compare c .eq d)) = (row.datum schema c).equals d := by
  rw [test, Row.datum]
  cases row.get schema c with
  | error e => rfl
  | ok e =>
    change holds (e.satisfies .eq d) = _
    rw [Datum.satisfies_eq, holds_ok]

end Tests

/-- The columns that joins put behind a schema. -/
def tailColumns (s : Store) : List Join → List Column
  | [] => []
  | j :: js => match s.table j.table with
    | .error _ => []
    | .ok t => t.columns ++ s.tailColumns js

/-- The data that joins put behind a row: the tails of the row, in order. -/
def tails (s : Store) (schema : List Column) (row : Row) : List Join → List Row
  | [] => [[]]
  | j :: js => match s.table j.table with
    | .error _ => []
    | .ok t =>
      (t.rows.filter fun b => holds (j.admits (schema ++ t.columns) (row ++ b))).flatMap fun b =>
        (s.tails (schema ++ t.columns) (row ++ b) js).map (b ++ ·)

variable {s : Store} {js : List Join}

theorem table_of_mem_tailColumns {c : Column} (h : c ∈ s.tailColumns js) :
    ∃ j ∈ js, c.table = some j.table := by
  induction js with
  | nil => simp [tailColumns] at h
  | cons j js ih =>
    rw [tailColumns] at h
    cases ht : s.table j.table with
    | error e => simp [ht] at h
    | ok t =>
      simp only [ht, List.mem_append] at h
      rcases h with h | h
      · refine ⟨j, List.mem_cons_self, ?_⟩
        rw [Table.table_of_mem_columns h, (mem_of_table ht).2]
      · obtain ⟨k, hk, hck⟩ := ih h
        exact ⟨k, List.mem_cons_of_mem j hk, hck⟩

theorem tailColumns_ne {T : String} (h : ∀ j ∈ js, j.table ≠ T) :
    ∀ column ∈ s.tailColumns js, column.table ≠ some T := by
  intro column hcolumn heq
  obtain ⟨j, hj, htable⟩ := table_of_mem_tailColumns hcolumn
  exact h j hj (Option.some.inj (htable.symm.trans heq))

/-- Every joined row is a row of the frame with one of its tails. -/
theorem joinAll_tails {f g : Frame} (h : s.joinAll f js = .ok g) :
    g = ⟨f.schema ++ s.tailColumns js,
      f.rows.flatMap fun a => (s.tails f.schema a js).map (a ++ ·)⟩ := by
  induction js generalizing f with
  | nil =>
    cases h
    simp [tailColumns, tails]
  | cons j js ih =>
    obtain ⟨t, joined, ht, hjoin, hrest⟩ := joinAll_cons_eq_ok.1 h
    rw [ih hrest, (join_eq_ok.1 hjoin).2]
    simp only [tailColumns, tails, ht, List.append_assoc, List.filter_flatMap, List.flatMap_assoc,
      List.filter_map, List.flatMap_map, List.map_flatMap, List.map_map]
    congr 2

theorem frame_tails {T : String} {f : Frame} (h : s.frame T js = .ok f) :
    ∃ t, s.table T = .ok t ∧ f = ⟨t.columns ++ s.tailColumns js,
      t.rows.flatMap fun a => (s.tails t.columns a js).map (a ++ ·)⟩ := by
  obtain ⟨t, ht, hjoin⟩ := frame_eq_ok.1 h
  exact ⟨t, ht, joinAll_tails hjoin⟩

/-- A part in the middle of a row does not change its tails if no join reads it. -/
theorem tails_insert {A P B : List Column} {a p b : Row} (ha : a.length = A.length)
    (hp : p.length = P.length)
    (hjs : ∀ j ∈ js, ∀ c ∈ j.reads, ∀ d ∈ P, c.refersTo d = false) :
    s.tails (A ++ P ++ B) (a ++ p ++ b) js = s.tails (A ++ B) (a ++ b) js := by
  induction js generalizing B b with
  | nil => rfl
  | cons j js ih =>
    rw [tails, tails]
    cases s.table j.table with
    | error e => rfl
    | ok t =>
      have hreads := hjs j List.mem_cons_self
      have hadmits : ∀ x, j.admits (A ++ P ++ B ++ t.columns) (a ++ p ++ b ++ x)
          = j.admits (A ++ B ++ t.columns) (a ++ b ++ x) := by
        intro x
        have hget : ∀ c ∈ j.reads, Row.get (A ++ P ++ B ++ t.columns) (a ++ p ++ b ++ x) c
            = Row.get (A ++ B ++ t.columns) (a ++ b ++ x) c := by
          intro c hc
          have h := Row.get_insert (S := B ++ t.columns) (b := b ++ x) ha hp (hreads c hc)
          simpa only [List.append_assoc] using h
        rw [Join.admits, Join.admits, hget j.lhs (by simp [Join.reads]),
          hget j.rhs (by simp [Join.reads])]
      have htails : ∀ x, s.tails (A ++ P ++ B ++ t.columns) (a ++ p ++ b ++ x) js
          = s.tails (A ++ B ++ t.columns) (a ++ b ++ x) js := by
        intro x
        have h := ih (B := B ++ t.columns) (b := b ++ x)
          fun k hk => hjs k (List.mem_cons_of_mem j hk)
        simpa only [List.append_assoc] using h
      simp only [hadmits, htails]

end Store

namespace Select

/-- The data by which a row is sorted. -/
def sortKeys (order : List OrderTerm) (schema : List Column) (row : Row) : List Datum :=
  order.map fun term => row.datum schema term.column

/-- A row as a query answers it, with its sort keys. -/
def ranked (order : List OrderTerm) (T : String) (schema : List Column) (row : Row) :
    List Datum × Record :=
  (sortKeys order schema row, part T schema row)

/-- Whether sort keys precede others. -/
def precedes {α : Type} (order : List OrderTerm) (a b : List Datum × α) : Bool :=
  compareKeys order a.1 b.1 == .lt

theorem keyed_eq_ok {order : List OrderTerm} {schema : List Column} {row : Row}
    {x : List Datum × Row} (h : Select.keyed order schema row = .ok x) :
    x = (sortKeys order schema row, row) := by
  simp only [Select.keyed, bind_eq_ok, pure_eq_ok] at h
  obtain ⟨keys, hkeys, rfl⟩ := h
  rw [eq_map_of_mapM_eq_ok hkeys fun term d hd => (Row.datum_of_get hd).symm]
  rfl

theorem map_window {α β : Type} (f : α → β) (offset limit : Option Nat) (l : List α) :
    (window offset limit l).map f = window offset limit (l.map f) := by
  cases limit <;> simp [window, List.map_take, List.map_drop]

end Select

namespace Store

variable {s : Store} {q : Query} {records : List Record}

/-- The rows of a frame that meet the conditions of a query, as the query answers them. -/
def kept (s : Store) (q : Query) (f : Frame) : List (List Datum × Record) :=
  (f.rows.filter fun row => holds (s.testAll f.schema row q.filters)).map
    (Select.ranked q.order q.table f.schema)

/-- A successful query answers the rows that meet its conditions, sorted and cut to the window. -/
theorem select_ranked (h : s.select q.toSelect = .ok records) :
    ∃ f, s.frame q.table q.joins = .ok f ∧
      records = Select.window q.offset q.limit
        ((Select.stableSort (Select.precedes q.order) (s.kept q f)).map (·.2)) := by
  obtain ⟨g, hg, hrecords⟩ := select_eq_ok.1 h
  obtain ⟨f, keyed, hf, -, hkeyed, rfl⟩ := selectRows_eq_ok.1 hg
  refine ⟨f, hf, ?_⟩
  rw [eq_map_of_mapM_eq_ok hkeyed fun row x => Select.keyed_eq_ok] at hrecords
  rw [eq_map_of_mapM_eq_ok (g := Select.part q.table f.schema) hrecords fun row r hr =>
    (Except.ok.inj hr).symm]
  -- the rows are projected after the sort, which sees only their keys
  have hsort : ∀ l : List (List Datum × Row),
      (Select.stableSort (Select.precedes q.order) l).map
        (fun x => (x.1, Select.part q.table f.schema x.2))
        = Select.stableSort (Select.precedes q.order)
          (l.map fun x => (x.1, Select.part q.table f.schema x.2)) :=
    Select.map_stableSort fun _ _ => rfl
  have hkept : s.kept q f = ((f.rows.filter fun row => holds (s.testAll f.schema row q.filters)).map
      ((fun x : List Datum × Row => (x.1, Select.part q.table f.schema x.2)) ∘
        fun row => (Select.sortKeys q.order f.schema row, row))) := rfl
  rw [hkept, ← List.map_map, ← hsort, Select.map_window, List.map_map, List.map_map]
  rfl

/-- A query succeeds if its joins do, and its conditions and sorted columns can be read in every
joined row. -/
theorem exists_select {f : Frame} (hf : s.frame q.table q.joins = .ok f)
    (htests : ∀ row ∈ f.rows, ∃ b, s.testAll f.schema row q.filters = .ok b)
    (hkeys : ∀ row ∈ f.rows, ∀ term ∈ q.order, ∃ d, row.get f.schema term.column = .ok d) :
    ∃ records, s.select q.toSelect = .ok records := by
  obtain ⟨keyed, hkeyed⟩ : ∃ keyed, (f.rows.filter fun row =>
      holds (s.testAll f.schema row q.filters)).mapM (Select.keyed q.order f.schema)
        = .ok keyed := by
    refine exists_mapM_eq_ok fun row hrow => ?_
    obtain ⟨keys, hkeys⟩ := exists_mapM_eq_ok (hkeys row (List.mem_of_mem_filter hrow))
    exact ⟨(keys, row), bind_eq_ok.2 ⟨keys, hkeys, rfl⟩⟩
  have hrows := (selectRows_eq_ok (q := q.toSelect)).2 ⟨f, keyed, hf, htests, hkeyed, rfl⟩
  obtain ⟨records, hrecords⟩ := exists_mapM_eq_ok (f := Select.recordOf q.toSelect.columns f.schema)
    fun row _ => ⟨_, Select.recordOf_allFrom q.table f.schema row⟩
  exact ⟨records, select_eq_ok.2 ⟨_, hrows, hrecords⟩⟩

end Store

end EntityGraph
