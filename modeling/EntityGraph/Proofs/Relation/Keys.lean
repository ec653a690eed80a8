import Mathlib.Data.List.Nodup
import EntityGraph.Proofs.Relation.Link
import EntityGraph.Proofs.Store.Answer
import EntityGraph.Relation.Loader

/-!
# Keys of relations

What a database promises about the columns by which relations are stored, and what follows for the
data that statements compare and records hold.

* `Store.Keyed` says of the tables of a relation that ids are distinct integers, foreign keys
  integers or null, and pairs distinct pairs of integers;
* `Entity.Stored` says of an entity that it was read from the table of its model.
-/

namespace EntityGraph

namespace Store

/-- The ids of a table are distinct integers. -/
def Ids (s : Store) (T : String) : Prop :=
  ∀ t, s.table T = .ok t → t.Has idName ∧ ∃ ids : List Int64, ids.Nodup ∧
    t.rows.map (fun row => (t.record row).get? idName) = ids.map fun i => some (.int i)

/-- A column of foreign keys holds integers or null. -/
def ForeignKeys (s : Store) (T key : String) : Prop :=
  ∀ t, s.table T = .ok t → t.Has key ∧
    ∀ row ∈ t.rows, ∃ i, (t.record row).get? key = some (Datum.ofInt? i)

/-- The rows of a table of pairs are distinct pairs of integers. -/
def Pairs (s : Store) (pivot ownerKey relatedKey : String) : Prop :=
  ∀ p, s.table pivot = .ok p → p.Has ownerKey ∧ p.Has relatedKey ∧
    ∃ pairs : List (Int64 × Int64), pairs.Nodup ∧
      p.rows.map (fun row => Loader.pair ownerKey relatedKey (p.record row)) = pairs.map some

/-- The keys by which a relation is stored are sound. -/
def Keyed (s : Store) (r : Relation) : Prop :=
  s.Ids r.ownerTable ∧ s.Ids r.targetTable ∧
    match r.link with
    | .belongsTo key => s.ForeignKeys r.ownerTable key
    | .hasOne key => s.ForeignKeys r.targetTable key
    | .hasMany key => s.ForeignKeys r.targetTable key
    | .belongsToMany pivot ownerKey relatedKey => s.Pairs pivot ownerKey relatedKey

variable {s : Store} {T : String} {t : Table} {row : Row}

/-- A column that a table has once is read alike by statements and from records. -/
theorem datum_of_record (hs : s.Full) (ht : s.table T = .ok t) {column : String}
    (hhas : t.Has column) (hrow : row ∈ t.rows) {d : Datum}
    (hd : (t.record row).get? column = some d) :
    row.datum t.columns (Column.of T column) = d := by
  obtain ⟨e, he, hrecord⟩ := exists_get ht (hs.table ht row hrow) hhas
  rw [Row.datum_of_get he]
  exact Option.some.inj (hrecord.symm.trans hd)

theorem datum_append (hs : s.Full) (ht : s.table T = .ok t) {column : String}
    (hhas : t.Has column) (hrow : row ∈ t.rows) (schema : List Column) (b : Row) :
    Row.datum (t.columns ++ schema) (row ++ b) (Column.of T column)
      = row.datum t.columns (Column.of T column) := by
  rw [Row.datum, get_front ht (hs.table ht row hrow) hhas.hasColumn, Row.datum]

theorem Ids.exists_id (h : s.Ids T) (ht : s.table T = .ok t) (hrow : row ∈ t.rows) :
    ∃ i, (t.record row).get? idName = some (.int i) := by
  obtain ⟨-, ids, -, hids⟩ := h t ht
  have hmem : (t.record row).get? idName ∈ ids.map fun i => some (Datum.int i) :=
    hids ▸ List.mem_map.2 ⟨row, hrow, rfl⟩
  obtain ⟨i, -, hi⟩ := List.mem_map.1 hmem
  exact ⟨i, hi.symm⟩

/-- A row has the id of its record in the column of the ids. -/
theorem Ids.exists_datum (h : s.Ids T) (hs : s.Full) (ht : s.table T = .ok t)
    (hrow : row ∈ t.rows) :
    ∃ i, (t.record row).get? idName = some (.int i) ∧
      row.datum t.columns (Column.of T idName) = .int i := by
  obtain ⟨i, hi⟩ := h.exists_id ht hrow
  exact ⟨i, hi, datum_of_record hs ht (h t ht).1 hrow hi⟩

theorem Ids.of_table (ids : List Int64) (ht : s.table T = .ok t) (hhas : t.Has idName)
    (hnodup : ids.Nodup) (hrows : t.rows.map (fun row => (t.record row).get? idName)
      = ids.map fun i => some (.int i)) : s.Ids T := by
  intro u hu
  obtain rfl := Except.ok.inj (ht.symm.trans hu)
  exact ⟨hhas, ids, hnodup, hrows⟩

/-- Rows with one id are equal. -/
theorem Ids.row_eq (h : s.Ids T) (ht : s.table T = .ok t) {row' : Row} (hrow : row ∈ t.rows)
    (hrow' : row' ∈ t.rows) (heq : (t.record row).get? idName = (t.record row').get? idName) :
    row = row' := by
  obtain ⟨-, ids, hnodup, hids⟩ := h t ht
  refine List.inj_on_of_nodup_map (f := fun row => (t.record row).get? idName) ?_ hrow hrow' heq
  rw [hids]
  refine hnodup.map fun i j hij => ?_
  cases hij
  rfl

theorem Pairs.exists_pair {pivot ownerKey relatedKey : String} {p : Table}
    (h : s.Pairs pivot ownerKey relatedKey) (hp : s.table pivot = .ok p) (hrow : row ∈ p.rows) :
    ∃ x y, (p.record row).get? ownerKey = some (.int x) ∧
      (p.record row).get? relatedKey = some (.int y) ∧
        Loader.pair ownerKey relatedKey (p.record row) = some (x, y) := by
  obtain ⟨-, -, pairs, -, hpairs⟩ := h p hp
  have hmem : Loader.pair ownerKey relatedKey (p.record row) ∈ pairs.map some :=
    hpairs ▸ List.mem_map.2 ⟨row, hrow, rfl⟩
  obtain ⟨pair, -, hpair⟩ := List.mem_map.1 hmem
  have hread := hpair.symm
  simp only [Loader.pair, Option.bind_eq_bind, Option.bind_eq_some_iff] at hread
  obtain ⟨d, hd, x, hx, e, he, y, hy, heq⟩ := hread
  rw [Datum.int?_eq_some] at hx hy
  exact ⟨x, y, hx ▸ hd, hy ▸ he, hpair.symm.trans heq.symm⟩

/-- A pair has at most one row. -/
theorem Pairs.length_filter_le_one {pivot ownerKey relatedKey : String} {p : Table}
    (h : s.Pairs pivot ownerKey relatedKey) (hp : s.table pivot = .ok p)
    (pair : Int64 × Int64) :
    (p.rows.filter fun row =>
      Loader.pair ownerKey relatedKey (p.record row) == some pair).length ≤ 1 := by
  obtain ⟨-, -, pairs, hnodup, hpairs⟩ := h p hp
  rw [← List.countP_eq_length_filter]
  have hcount : (p.rows.map fun row => Loader.pair ownerKey relatedKey (p.record row)).countP
      (· == some pair) ≤ 1 := by
    rw [hpairs]
    have hmap : (pairs.map some).Nodup := hnodup.map fun _ _ => Option.some.inj
    exact List.nodup_iff_count_le_one.1 hmap (some pair)
  rwa [List.countP_map] at hcount

end Store

/-- An entity was read from the table of its model. -/
def Entity.Stored (s : Store) (c : Catalog) (e : Entity) : Prop :=
  ∃ T t row, c.table e.model = .ok T ∧ s.table T = .ok t ∧ row ∈ t.rows ∧
    e.attributes = t.record row

namespace Datum

theorem equals_int (i j : Int64) : (int i).equals (.int j) = decide (i = j) := by
  rw [Bool.eq_iff_iff, equals_iff]
  simp [compare?, Int64.toInt_inj]

theorem ofInt?_equals (i : Option Int64) (j : Int64) :
    (ofInt? i).equals (.int j) = (i == some j) := by
  cases i with
  | none => rfl
  | some i => exact (equals_int i j).trans (by rw [Bool.eq_iff_iff]; simp)

@[simp] theorem int?_ofInt? (i : Option Int64) : (ofInt? i).int? = i := by
  cases i <;> rfl

theorem same_int {d : Datum} {i : Int64} (h : d.same (.int i) = true) : d = .int i := by
  cases d <;> simp_all [same]

/-- An integer among some data is among the keys that they are reduced to. -/
theorem int_mem_distinctKeys {data : List Datum} {i : Int64} (h : .int i ∈ data) :
    .int i ∈ distinctKeys data := by
  suffices hfold : ∀ kept : List Datum, .int i ∈ kept ∨ .int i ∈ data →
      .int i ∈ data.foldl
        (fun kept d => if d.isNull || kept.any (·.same d) then kept else kept ++ [d]) kept from
    hfold [] (.inr h)
  clear h
  induction data with
  | nil =>
    rintro kept (h | h)
    · exact h
    · simp at h
  | cons d data ih =>
    intro kept h
    refine ih _ ?_
    dsimp only
    rcases h with h | h
    · left
      split_ifs
      · exact h
      · exact List.mem_append_left _ h
    · rcases List.mem_cons.1 h with rfl | h
      · left
        split_ifs with hkept
        · simp only [isNull, Bool.false_or, List.any_eq_true] at hkept
          obtain ⟨e, he, hsame⟩ := hkept
          exact same_int hsame ▸ he
        · exact List.mem_append_right _ (List.mem_singleton.2 rfl)
      · exact .inr h

end Datum

end EntityGraph
