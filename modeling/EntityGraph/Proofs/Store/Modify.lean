import Mathlib.Logic.Function.Basic
import EntityGraph.Proofs.Store.Answer
import EntityGraph.Store.Modify

/-!
# What a change leaves in a database

* `Table.datum` is what a row of a table holds in a column, and `Table.setDatum` the row with
  another datum there;
* `Store.update_eq_ok` and `Store.delete_eq_ok` say which rows a successful update or deletion
  leaves;
* `Store.table_replace` is the frame of every change: one table is replaced, the others stay.
-/

namespace EntityGraph

namespace Table

variable {t : Table} {column other : String} {row : Row} {d : Datum} {i : Nat}

/-- The place of a column in the rows of a table: of two columns with one name, that of the
first. -/
def place? (t : Table) (column : String) : Option Nat :=
  t.schema.findIdx? (·.name == column)

/-- The datum of a row in a column, null if there is none. -/
def datum (t : Table) (column : String) (row : Row) : Datum :=
  ((t.place? column).bind fun i => row[i]?).getD .null

/-- The integer of a row in a column, none if there is something else. -/
def key? (t : Table) (column : String) (row : Row) : Option Int64 :=
  (t.datum column row).int?

/-- A row with a datum set in a column. -/
def setDatum (t : Table) (column : String) (d : Datum) (row : Row) : Row :=
  (t.place? column).elim row fun i => row.set i d

theorem findIdx?_named (t : Table) (column : String) :
    t.columns.findIdx? (Column.named column).refersTo = t.place? column := by
  rw [place?, columns, List.findIdx?_map]
  congr 1
  funext c
  rw [Bool.eq_iff_iff]
  simp only [Function.comp_apply, Column.refersTo, Column.named, Option.isSome_none,
    Bool.false_eq_true, if_false, Column.of_name, beq_iff_eq]
  exact eq_comm

theorem findIdx?_of (t : Table) (column : String) :
    t.columns.findIdx? (Column.of t.name column).refersTo = t.place? column := by
  rw [place?, columns, List.findIdx?_map]
  congr 1
  funext c
  rw [Bool.eq_iff_iff]
  simp only [Function.comp_apply, Column.refersTo_of, beq_iff_eq, Column.of_inj, true_and]
  exact eq_comm

theorem lt_of_place? (h : t.place? column = some i) : i < t.schema.length :=
  (List.findIdx?_eq_some_iff_findIdx_eq.1 h).1

/-- At the place of a name stands a column of that name. -/
theorem exists_spec_of_place? (h : t.place? column = some i) :
    ∃ spec, t.schema[i]? = some spec ∧ spec.name = column := by
  obtain ⟨hlt, hname, -⟩ := List.findIdx?_eq_some_iff_getElem.1 h
  exact ⟨_, List.getElem?_eq_getElem hlt, beq_iff_eq.1 hname⟩

/-- Different names stand at different places. -/
theorem place?_inj (h : t.place? column = some i) (h' : t.place? other = some i) :
    column = other := by
  obtain ⟨spec, hspec, rfl⟩ := exists_spec_of_place? h
  obtain ⟨spec', hspec', rfl⟩ := exists_spec_of_place? h'
  rw [Option.some.inj (hspec.symm.trans hspec')]

theorem exists_place? : (∃ i, t.place? column = some i) ↔ t.hasColumn column = true := by
  rw [← Option.isSome_iff_exists, place?, List.findIdx?_isSome, hasColumn]

theorem exists_place?_of_has {column : String} (h : t.Has column) :
    ∃ i, t.place? column = some i :=
  exists_place?.2 h.hasColumn

theorem datum_eq (h : t.place? column = some i) (hlt : i < row.length) :
    t.datum column row = row[i] := by
  simp [datum, h, hlt]

theorem datum_eq_null (h : t.place? column = none) : t.datum column row = .null := by
  simp [datum, h]

theorem exists_place?_of_ne_null (h : t.datum column row ≠ .null) :
    ∃ i, t.place? column = some i :=
  Option.ne_none_iff_exists'.1 fun hnone => h (datum_eq_null hnone)

theorem datum_named : row.datum t.columns (Column.named column) = t.datum column row := by
  rw [Row.datum, Row.get, findIdx?_named, datum]
  cases t.place? column with
  | none => rfl
  | some i => cases h : row[i]? <;> simp [h]

theorem datum_of : row.datum t.columns (Column.of t.name column) = t.datum column row := by
  rw [Row.datum, Row.get, findIdx?_of, datum]
  cases t.place? column with
  | none => rfl
  | some i => cases h : row[i]? <;> simp [h]

/-- The record of a full row holds what the row holds. -/
theorem record_get? (h : t.Has column) (hrow : row.length = t.schema.length) :
    (t.record row).get? column = some (t.datum column row) := by
  obtain ⟨d, hget, hrecord⟩ := exists_get h hrow
  rw [← datum_of, Row.datum_of_get hget, hrecord]

section Get

variable (hrow : row.length = t.schema.length)

include hrow

/-- A statement that names a column reads it in every full row, if the table has it. -/
theorem get_named : row.get t.columns (Column.named column)
    = (t.place? column).elim (.error (.noColumn (Column.named column)))
        fun _ => .ok (t.datum column row) := by
  rw [Row.get, findIdx?_named]
  cases h : t.place? column with
  | none => rfl
  | some i =>
    have hlt : i < row.length := hrow ▸ lt_of_place? h
    simp [hlt, datum_eq h hlt]

theorem get_of : row.get t.columns (Column.of t.name column)
    = (t.place? column).elim (.error (.noColumn (Column.of t.name column)))
        fun _ => .ok (t.datum column row) := by
  rw [Row.get, findIdx?_of]
  cases h : t.place? column with
  | none => rfl
  | some i =>
    have hlt : i < row.length := hrow ▸ lt_of_place? h
    simp [hlt, datum_eq h hlt]

theorem datum_setDatum (h : t.place? column = some i) :
    t.datum column (t.setDatum column d row) = d := by
  have hlt : i < row.length := hrow ▸ lt_of_place? h
  simp [datum, setDatum, h, hlt]

end Get

@[simp] theorem length_setDatum : (t.setDatum column d row).length = row.length := by
  unfold setDatum
  cases t.place? column <;> simp

theorem getElem?_setDatum (h : t.place? column ≠ some i) :
    (t.setDatum column d row)[i]? = row[i]? := by
  unfold setDatum
  cases hplace : t.place? column with
  | none => rfl
  | some j =>
    have hne : j ≠ i := fun hji => h (hji ▸ hplace)
    simp [hne]

theorem datum_setDatum_of_ne (h : other ≠ column) :
    t.datum other (t.setDatum column d row) = t.datum other row := by
  cases hother : t.place? other with
  | none => rw [datum_eq_null hother, datum_eq_null hother]
  | some i =>
    have hne : t.place? column ≠ some i := fun hcolumn => h (place?_inj hother hcolumn)
    simp [datum, hother, getElem?_setDatum hne]

@[simp] theorem setDatum_setDatum (e : Datum) :
    t.setDatum column d (t.setDatum column e row) = t.setDatum column d row := by
  unfold setDatum
  cases t.place? column <;> simp

section Assignments

variable {assignments : List (String × Datum)}

@[simp] theorem length_foldl_setDatum : (assignments.foldl
    (fun row a => t.setDatum a.1 a.2 row) row).length = row.length := by
  induction assignments generalizing row with
  | nil => rfl
  | cons a assignments ih => rw [List.foldl_cons, ih, length_setDatum]

/-- Data that are set in other columns leave a place alone. -/
theorem getElem?_foldl_setDatum (h : ∀ a ∈ assignments, t.place? a.1 ≠ some i) :
    (assignments.foldl (fun row a => t.setDatum a.1 a.2 row) row)[i]? = row[i]? := by
  induction assignments generalizing row with
  | nil => rfl
  | cons a assignments ih =>
    rw [List.foldl_cons, ih fun b hb => h b (List.mem_cons_of_mem a hb),
      getElem?_setDatum (h a List.mem_cons_self)]

/-- Of data that are set in different columns each is there at the end. -/
theorem datum_foldl_setDatum (hnames : (assignments.map (·.1)).Nodup)
    (hrow : row.length = t.schema.length) (ha : (column, d) ∈ assignments)
    (hplace : t.place? column = some i) :
    t.datum column (assignments.foldl (fun row a => t.setDatum a.1 a.2 row) row) = d := by
  induction assignments generalizing row with
  | nil => cases ha
  | cons a assignments ih =>
    obtain ⟨hfresh, hnames'⟩ := List.nodup_cons.1 hnames
    rw [List.foldl_cons]
    rcases List.mem_cons.1 ha with rfl | hmem
    · have hother : ∀ b ∈ assignments, t.place? b.1 ≠ some i := by
        intro b hb hb'
        have hname : column = b.1 := place?_inj hplace hb'
        exact hfresh (List.mem_map.2 ⟨b, hb, hname.symm⟩)
      have hset := datum_setDatum (d := d) hrow hplace
      rw [datum, hplace, Option.bind_some] at hset ⊢
      rw [getElem?_foldl_setDatum hother]
      exact hset
    · exact ih hnames' (by rw [length_setDatum, hrow]) hmem

end Assignments

end Table

namespace Store

variable {s s' : Store} {t u : Table} {T : String} {row : Row} {column : String} {n : Nat}

theorem table_eq_ok : s.table T = .ok t ↔ s.tables.find? (·.name == T) = some t :=
  elim_error_eq_ok

theorem table_replace_of_ne (h : T ≠ u.name) : (s.replace u).table T = s.table T := by
  have hfind : (s.replace u).tables.find? (·.name == T) = s.tables.find? (·.name == T) := by
    rw [replace]
    induction s.tables with
    | nil => rfl
    | cons v tables ih =>
      by_cases hv : v.name = u.name
      · have hvT : v.name ≠ T := fun hvT => h (hvT.symm.trans hv)
        simpa [hv, h.symm, hvT] using ih
      · by_cases hvT : v.name = T
        · have hTu : T ≠ u.name := h
          simp [hvT, hTu]
        · simpa [hv, hvT] using ih
  rw [table, table, hfind]

theorem table_replace_self (h : s.table u.name = .ok t) :
    (s.replace u).table u.name = .ok u := by
  rw [table_eq_ok] at h ⊢
  rw [replace]
  induction hs : s.tables generalizing s with
  | nil => simp [hs] at h
  | cons v tables ih =>
    rw [hs] at h
    by_cases hv : v.name = u.name
    · simp [hv]
    · have hrest : tables.find? (·.name == u.name) = some t := by simpa [hv] using h
      simpa [hv] using ih (s := ⟨tables⟩) hrest rfl

/-- A table takes the place of the one of its name, and all others stay. -/
theorem table_replace (h : s.table u.name = .ok t) :
    (s.replace u).table = Function.update s.table u.name (.ok u) := by
  funext T
  by_cases hT : T = u.name
  · subst hT
    rw [table_replace_self h, Function.update_self]
  · rw [table_replace_of_ne hT, Function.update_of_ne hT]

/-- The rows that a statement marks: every row of the table is tested. -/
theorem marked_eq_ok {filters : List Condition} {rows : List (Bool × Row)} :
    s.marked T filters = .ok rows ↔ ∃ t, s.table T = .ok t ∧
      (∀ row ∈ t.rows, ∃ b, s.testAll t.columns row filters = .ok b) ∧
      rows = t.rows.map fun row => (holds (s.testAll t.columns row filters), row) := by
  simp only [marked, bind_eq_ok, mapM_mark_eq_ok]

/-- A table with the rows that meet some conditions changed. -/
def rewritten (s : Store) (t : Table) (filters : List Condition) (change : Row → Row) : Table :=
  { t with rows := t.rows.map fun row =>
      if holds (s.testAll t.columns row filters) then change row else row }

/-- A table without the rows that meet some conditions. -/
def pruned (s : Store) (t : Table) (filters : List Condition) : Table :=
  { t with rows := t.rows.filter fun row => !holds (s.testAll t.columns row filters) }

/-- An assignment finds the place of its column. -/
theorem target_eq_ok {a : String × Datum} {cell : Nat × Datum} :
    (match t.schema.findIdx? (·.name == a.1) with
      | some i => (.ok (i, a.2) : Except StoreFailure _)
      | none => .error (.unknownColumn t.name a.1)) = .ok cell ↔
    t.place? a.1 = some cell.1 ∧ cell.2 = a.2 := by
  rw [Table.place?]
  cases t.schema.findIdx? (·.name == a.1) with
  | none => simp
  | some i => simp [Prod.ext_iff, eq_comm]

theorem targets_eq_ok {assignments : List (String × Datum)} {cells : List (Nat × Datum)} :
    targets t assignments = .ok cells ↔
      List.Forall₂ (fun a cell => t.place? a.1 = some cell.1 ∧ cell.2 = a.2) assignments cells := by
  rw [targets, mapM_eq_ok]
  exact ⟨fun h => h.imp fun _ _ => target_eq_ok.1, fun h => h.imp fun _ _ => target_eq_ok.2⟩

/-- A row with data set in columns, one after the other. -/
theorem setCells_eq {assignments : List (String × Datum)} {cells : List (Nat × Datum)}
    (h : targets t assignments = .ok cells) (row : Row) :
    setCells row cells = assignments.foldl (fun row a => t.setDatum a.1 a.2 row) row := by
  rw [setCells]
  induction targets_eq_ok.1 h generalizing row with
  | nil => rfl
  | @cons a cell assignments cells hcell hrest ih =>
    obtain ⟨hplace, hd⟩ := hcell
    have hset : t.setDatum a.1 a.2 row = row.set cell.1 cell.2 := by
      rw [Table.setDatum, hplace, hd, Option.elim_some]
    rw [List.foldl_cons, List.foldl_cons, hset]
    exact ih (targets_eq_ok.2 hrest) _

theorem countP_marked (s : Store) (t : Table) (filters : List Condition) :
    (t.rows.map fun row => (holds (s.testAll t.columns row filters), row)).countP (·.1)
      = (t.rows.filter fun row => holds (s.testAll t.columns row filters)).length := by
  rw [List.countP_map, List.countP_eq_length_filter]
  rfl

/-- A successful update tests every row and sets the data in those that meet the conditions; its
columns exist. -/
theorem update_eq_ok {assignments : List (String × Datum)} {filters : List Condition}
    (hne : assignments ≠ []) :
    s.update ⟨T, assignments, filters⟩ = .ok (s', n) ↔ ∃ t, s.table T = .ok t ∧
      (∀ row ∈ t.rows, ∃ b, s.testAll t.columns row filters = .ok b) ∧
      (∀ a ∈ assignments, ∃ i, t.place? a.1 = some i) ∧
      s' = s.replace (s.rewritten t filters fun row =>
        assignments.foldl (fun row a => t.setDatum a.1 a.2 row) row) ∧
      n = (t.rows.filter fun row => holds (s.testAll t.columns row filters)).length := by
  have hempty : assignments.isEmpty = false := by simpa using hne
  simp only [update, hempty, Bool.false_eq_true, if_false, bind_eq_ok, pure_eq_ok, Prod.mk.injEq,
    marked_eq_ok]
  constructor
  · rintro ⟨_, ⟨t, ht, hok, rfl⟩, u, hu, cells, hcells, rfl, rfl⟩
    obtain rfl : t = u := Except.ok.inj (ht.symm.trans hu)
    refine ⟨t, ht, hok, fun a ha => ?_, ?_, ?_⟩
    · obtain ⟨cell, -, hplace, -⟩ := exists_of_forall₂_right (targets_eq_ok.1 hcells).flip ha
      exact ⟨cell.1, hplace⟩
    · rw [rewritten, List.map_map]
      simp only [Function.comp_def, setCells_eq hcells]
    · exact countP_marked s t filters
  · rintro ⟨t, ht, hok, hplaces, rfl, rfl⟩
    obtain ⟨cells, hcells⟩ : ∃ cells, targets t assignments = .ok cells := by
      refine ⟨assignments.map fun a => ((t.place? a.1).getD 0, a.2), targets_eq_ok.2 ?_⟩
      refine List.forall₂_map_right_iff.2 (List.forall₂_same.2 fun a ha => ?_)
      obtain ⟨i, hi⟩ := hplaces a ha
      exact ⟨by simp [hi], rfl⟩
    refine ⟨_, ⟨t, ht, hok, rfl⟩, t, ht, cells, hcells, ?_, ?_⟩
    · rw [rewritten, List.map_map]
      simp only [Function.comp_def, setCells_eq hcells]
    · exact countP_marked s t filters

/-- An update of one table leaves the others. -/
theorem table_update_of_ne {U : String} {assignments : List (String × Datum)}
    {filters : List Condition} (hne : T ≠ U)
    (h : s.update ⟨U, assignments, filters⟩ = .ok (s', n)) : s'.table T = s.table T := by
  by_cases hempty : assignments = []
  · subst hempty
    obtain ⟨rfl, -⟩ := Prod.mk.inj (Except.ok.inj h)
    rfl
  · obtain ⟨u, hu, -, -, rfl, -⟩ := (update_eq_ok hempty).1 h
    exact table_replace_of_ne ((mem_of_table hu).2 ▸ hne)

/-- An update of one column. -/
theorem update_column_eq_ok {column : String} {d : Datum} {filters : List Condition}
    (h : s.update ⟨T, [(column, d)], filters⟩ = .ok (s', n)) :
    ∃ t, s.table T = .ok t ∧ (∃ i, t.place? column = some i) ∧
      s'.table = Function.update s.table T (.ok (s.rewritten t filters (t.setDatum column d))) := by
  obtain ⟨t, ht, -, hplaces, rfl, -⟩ := (update_eq_ok (List.cons_ne_nil _ _)).1 h
  obtain rfl := (mem_of_table ht).2
  exact ⟨t, ht, hplaces _ List.mem_cons_self, table_replace ht⟩

theorem exists_update_column {column : String} {d : Datum} {filters : List Condition}
    (ht : s.table T = .ok t) (hcolumn : ∃ i, t.place? column = some i)
    (hok : ∀ row ∈ t.rows, ∃ b, s.testAll t.columns row filters = .ok b) :
    ∃ s' n, s.update ⟨T, [(column, d)], filters⟩ = .ok (s', n) := by
  refine ⟨_, _, (update_eq_ok (List.cons_ne_nil _ _)).2 ⟨t, ht, hok, fun a ha => ?_, rfl, rfl⟩⟩
  rw [List.mem_singleton.1 ha]
  exact hcolumn

/-- A successful deletion tests every row and removes those that meet the conditions. -/
theorem delete_eq_ok {filters : List Condition} :
    s.delete ⟨T, filters⟩ = .ok (s', n) ↔ ∃ t, s.table T = .ok t ∧
      (∀ row ∈ t.rows, ∃ b, s.testAll t.columns row filters = .ok b) ∧
      s' = s.replace (s.pruned t filters) ∧
      n = (t.rows.filter fun row => holds (s.testAll t.columns row filters)).length := by
  have hkept : ∀ t : Table, ((t.rows.map fun row =>
      (holds (s.testAll t.columns row filters), row)).filter (!·.1)).map (·.2)
        = (s.pruned t filters).rows := by
    intro t
    rw [List.filter_map, List.map_map]
    exact List.map_id _
  simp only [delete, bind_eq_ok, pure_eq_ok, Prod.mk.injEq, marked_eq_ok]
  constructor
  · rintro ⟨_, ⟨t, ht, hok, rfl⟩, u, hu, rfl, rfl⟩
    obtain rfl : t = u := Except.ok.inj (ht.symm.trans hu)
    exact ⟨t, ht, hok, by rw [hkept]; rfl, countP_marked s t filters⟩
  · rintro ⟨t, ht, hok, rfl, rfl⟩
    exact ⟨_, ⟨t, ht, hok, rfl⟩, t, ht, by rw [hkept]; rfl, countP_marked s t filters⟩

/-- A deletion from one table leaves the others. -/
theorem table_delete_of_ne {U : String} {filters : List Condition} (hne : T ≠ U)
    (h : s.delete ⟨U, filters⟩ = .ok (s', n)) : s'.table T = s.table T := by
  obtain ⟨u, hu, -, rfl, -⟩ := delete_eq_ok.1 h
  exact table_replace_of_ne ((mem_of_table hu).2 ▸ hne)

end Store

end EntityGraph
