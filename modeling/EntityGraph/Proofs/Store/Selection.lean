import EntityGraph.Proofs.Store.Cells
import EntityGraph.Proofs.Outcome

/-!
# What a selection produces

* `Store.selectRows_eq_ok` takes a successful selection apart: the rows of the joined tables that
  meet the conditions, their sort keys, the sorted list and its window;
* `Store.frame_eq_ok` and `Store.join_eq_ok` describe the rows of one table and of a table joined
  with another;
* `Store.select_rows_eq_ok` is the answer of a query on one table.
-/

namespace EntityGraph

namespace Select

variable {α : Type}

/-- A sort that tells no two items apart leaves their order. -/
theorem stableSort_of_not_less {less : α → α → Bool} (h : ∀ a b, less a b = false) (l : List α) :
    stableSort less l = l := by
  have hinsert : ∀ (a : α) (sorted : List α), insertLast less a sorted = a :: sorted := by
    intro a sorted
    cases sorted with
    | nil => rfl
    | cons b rest => simp [insertLast, h a b]
  have hfold : ∀ sorted : List α,
      l.foldl (fun sorted a => insertLast less a sorted) sorted = l.reverse ++ sorted := by
    induction l with
    | nil => simp
    | cons a l ih => simp [hinsert]
  rw [stableSort, hfold [], List.append_nil, List.reverse_reverse]

end Select

namespace Store

variable {s : Store} {q : Select} {T : String} {t : Table}

theorem frame_nil : s.frame T [] = (s.table T).map Frame.ofTable := by
  unfold frame
  cases s.table T <;> rfl

theorem frame_nil_eq_ok {f : Frame} :
    s.frame T [] = .ok f ↔ ∃ t, s.table T = .ok t ∧ f = .ofTable t := by
  rw [frame_nil, map_eq_ok]
  simp only [@eq_comm _ f]

/-- The rows of a frame joined with a table: each row of the frame with each row of the table that
the join admits. -/
theorem join_eq_ok {f g : Frame} {j : Join} :
    f.join j t = .ok g ↔
      (∀ a ∈ f.rows, ∀ b ∈ t.rows, ∃ ok, j.admits (f.schema ++ t.columns) (a ++ b) = .ok ok) ∧
      g = ⟨f.schema ++ t.columns, (f.rows.flatMap fun a => t.rows.map fun b => a ++ b).filter
        fun row => holds (j.admits (f.schema ++ t.columns) row)⟩ := by
  simp only [Frame.join, bind_eq_ok, pure_eq_ok, filterM_eq_ok, List.mem_flatMap, List.mem_map]
  constructor
  · rintro ⟨rows, ⟨hok, rfl⟩, rfl⟩
    exact ⟨fun a ha b hb => hok _ ⟨a, ha, b, hb, rfl⟩, rfl⟩
  · rintro ⟨hok, rfl⟩
    refine ⟨_, ⟨?_, rfl⟩, rfl⟩
    rintro _ ⟨a, ha, b, hb, rfl⟩
    exact hok a ha b hb

@[simp] theorem joinAll_nil (f : Frame) : s.joinAll f [] = .ok f := rfl

theorem joinAll_cons_eq_ok {f g : Frame} {j : Join} {js : List Join} :
    s.joinAll f (j :: js) = .ok g ↔
      ∃ t h, s.table j.table = .ok t ∧ f.join j t = .ok h ∧ s.joinAll h js = .ok g := by
  simp only [joinAll, bind_eq_ok]
  constructor
  · rintro ⟨t, ht, h, hh, hg⟩
    exact ⟨t, h, ht, hh, hg⟩
  · rintro ⟨t, h, ht, hh, hg⟩
    exact ⟨t, ht, h, hh, hg⟩

theorem frame_eq_ok {js : List Join} {f : Frame} :
    s.frame T js = .ok f ↔ ∃ t, s.table T = .ok t ∧ s.joinAll (.ofTable t) js = .ok f := by
  simp only [frame, bind_eq_ok]

theorem frame_singleton_eq_ok {j : Join} {g : Frame} :
    s.frame T [j] = .ok g ↔ ∃ t u, s.table T = .ok t ∧ s.table j.table = .ok u ∧
      (Frame.ofTable t).join j u = .ok g := by
  simp only [frame_eq_ok, joinAll_cons_eq_ok, joinAll_nil, Except.ok.injEq]
  constructor
  · rintro ⟨t, ht, u, h, hu, hh, rfl⟩
    exact ⟨t, u, ht, hu, hh⟩
  · rintro ⟨t, u, ht, hu, hh⟩
    exact ⟨t, ht, u, g, hu, hh, rfl⟩

/-- The rows that a selection keeps: those of its frame that meet the conditions, sorted by their
keys and cut to the window. -/
theorem selectRows_eq_ok {g : Frame} :
    s.selectRows q = .ok g ↔
      ∃ f keyed, s.frame q.table q.joins = .ok f ∧
        (∀ row ∈ f.rows, ∃ b, s.testAll f.schema row q.filters = .ok b) ∧
        (f.rows.filter fun row => holds (s.testAll f.schema row q.filters)).mapM
          (Select.keyed q.order f.schema) = .ok keyed ∧
        g = ⟨f.schema, Select.window q.offset q.limit
          ((Select.stableSort (fun a b => Select.compareKeys q.order a.1 b.1 == .lt) keyed).map
            (·.2))⟩ := by
  simp only [selectRows, bind_eq_ok, pure_eq_ok, filterM_eq_ok]
  constructor
  · rintro ⟨f, hf, rows, ⟨hok, rfl⟩, keyed, hkeyed, rfl⟩
    exact ⟨f, keyed, hf, hok, hkeyed, rfl⟩
  · rintro ⟨f, keyed, hf, hok, hkeyed, rfl⟩
    exact ⟨f, hf, _, ⟨hok, rfl⟩, keyed, hkeyed, rfl⟩

theorem keyed_nil (schema : List Column) (rows : List Row) :
    rows.mapM (Select.keyed [] schema) = .ok (rows.map fun row => ([], row)) := by
  induction rows with
  | nil => rfl
  | cons row rows ih =>
    rw [List.mapM_cons, ih]
    rfl

theorem select_eq_ok {records : List Record} :
    s.select q = .ok records ↔
      ∃ f, s.selectRows q = .ok f ∧ f.rows.mapM (Select.recordOf q.columns f.schema)
        = .ok records := by
  simp only [select, bind_eq_ok]

/-- A query without order and window produces the records of the rows that meet its conditions. -/
theorem select_unordered {T : String} {joins : List Join} {filters : List Condition}
    {schema : List Column} {rows : List Row} (hf : s.frame T joins = .ok ⟨schema, rows⟩)
    (hok : ∀ row ∈ rows, ∃ b, s.testAll schema row filters = .ok b) :
    s.select (Query.toSelect ⟨T, joins, filters, [], none, none⟩) = .ok
      ((rows.filter fun row => holds (s.testAll schema row filters)).map
        (Select.part T schema)) := by
  refine select_eq_ok.2 ⟨_, selectRows_eq_ok.2 ⟨⟨schema, rows⟩, _, hf, hok, keyed_nil schema _,
    rfl⟩, mapM_eq_ok.2 ?_⟩
  have hsort : ∀ keyed : List (List Datum × Row),
      Select.stableSort (fun a b => Select.compareKeys [] a.1 b.1 == .lt) keyed = keyed :=
    Select.stableSort_of_not_less fun a b => rfl
  simp only [Query.toSelect, hsort, Select.window, List.map_map, Function.comp_def, List.map_id',
    Option.getD_none, List.drop_zero, List.forall₂_map_right_iff]
  exact List.forall₂_same.2 fun row _ => Select.recordOf_allFrom T schema row

/-- A query without order and window that succeeds answers the joined rows that meet its
conditions. -/
theorem select_unordered_eq_ok {joins : List Join} {filters : List Condition}
    {records : List Record} :
    s.select (Query.toSelect ⟨T, joins, filters, [], none, none⟩) = .ok records ↔
      ∃ f, s.frame T joins = .ok f ∧ (∀ row ∈ f.rows, ∃ b, s.testAll f.schema row filters = .ok b) ∧
        records = (f.rows.filter fun row => holds (s.testAll f.schema row filters)).map
          (Select.part T f.schema) := by
  constructor
  · intro h
    obtain ⟨g, hrows, -⟩ := select_eq_ok.1 h
    obtain ⟨f, -, hf, hok, -, -⟩ := selectRows_eq_ok.1 hrows
    exact ⟨f, hf, hok, Except.ok.inj (h.symm.trans (select_unordered hf hok))⟩
  · rintro ⟨f, hf, hok, rfl⟩
    exact select_unordered hf hok

/-- A query without joins, order and window answers the rows of its table that meet its conditions,
if these can be tested in every row. -/
theorem select_rows_eq_ok {filters : List Condition} {records : List Record} :
    s.select (Query.toSelect ⟨T, [], filters, [], none, none⟩) = .ok records ↔
      ∃ t, s.table T = .ok t ∧ (∀ row ∈ t.rows, ∃ b, s.testAll t.columns row filters = .ok b) ∧
        records = (t.rows.filter fun row => holds (s.testAll t.columns row filters)).map
          t.record := by
  have hpart : ∀ t, s.table T = .ok t → Select.part T t.columns = t.record := by
    intro t ht
    funext row
    rw [← (mem_of_table ht).2, Select.part_columns]
  rw [select_unordered_eq_ok]
  constructor
  · rintro ⟨f, hf, hok, rfl⟩
    obtain ⟨t, ht, rfl⟩ := frame_nil_eq_ok.1 hf
    exact ⟨t, ht, hok, by rw [← hpart t ht]; rfl⟩
  · rintro ⟨t, ht, hok, rfl⟩
    exact ⟨_, frame_nil_eq_ok.2 ⟨t, ht, rfl⟩, hok, by rw [← hpart t ht]; rfl⟩

/-- A query whose conditions have an answer in every row of its table. -/
theorem select_of_tests {filters : List Condition} {test : Row → Bool} (ht : s.table T = .ok t)
    (htest : ∀ row ∈ t.rows, s.testAll t.columns row filters = .ok (test row)) :
    s.select (Query.toSelect ⟨T, [], filters, [], none, none⟩)
      = .ok ((t.rows.filter test).map t.record) := by
  refine select_rows_eq_ok.2 ⟨t, ht, fun row hrow => ⟨_, htest row hrow⟩, ?_⟩
  refine congrArg (List.map t.record) (List.filter_congr fun row hrow => ?_)
  rw [htest row hrow, holds_ok]

end Store

end EntityGraph
