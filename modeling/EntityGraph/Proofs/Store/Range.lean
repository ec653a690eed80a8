import EntityGraph.Proofs.Store.Atomic

/-!
# Rows that come up in a statement

A statement reads rows for lists of columns, and stops where a row ends before a column. Here are
all the rows that it may read: those of joined tables, those that are tested, below conditions on
the rows of other tables as well, and those that are projected.

* `InRange` says that no row was read beyond its end;
* `Store.JoinSees`, `Store.TestSees` and `Store.Sees` are the rows that come up in joins, in tests
  and in a statement, each with the columns for which it is read;
* `Store.inRange_verdict` says that they are all: in any database, full or not, a statement reads no
  row beyond its end if each of them has a datum for each of its columns.
-/

namespace EntityGraph

/-- A row has a datum for each column. -/
def Row.Fits (schema : List Column) (row : Row) : Prop :=
  row.length = schema.length

/-- An outcome is not that a row was read beyond its end. -/
def InRange {α : Type} (x : Except StoreFailure α) : Prop :=
  ∀ c, x ≠ .error (.shortRow c)

namespace InRange

variable {α β : Type}

theorem ok (a : α) : InRange (.ok a) := nofun

theorem bind {x : Except StoreFailure α} {f : α → Except StoreFailure β} (hx : InRange x)
    (hf : ∀ a, x = .ok a → InRange (f a)) : InRange (x >>= f) := by
  intro c h
  rcases bind_eq_error.1 h with hx' | ⟨a, ha, hfa⟩
  · exact hx c hx'
  · exact hf a ha c hfa

theorem map {x : Except StoreFailure α} {f : α → β} (hx : InRange x) : InRange (x.map f) :=
  fun c h => hx c (map_eq_error.1 h)

theorem mapM {f : α → Except StoreFailure β} {l : List α} (h : ∀ a ∈ l, InRange (f a)) :
    InRange (l.mapM f) := by
  induction l with
  | nil => exact ok []
  | cons a l ih =>
    rw [List.mapM_cons]
    exact (h a List.mem_cons_self).bind fun b _ =>
      (ih fun a ha => h a (List.mem_cons_of_mem _ ha)).bind fun bs _ => ok (b :: bs)

theorem filterM {p : α → Except StoreFailure Bool} {l : List α} (h : ∀ a ∈ l, InRange (p a)) :
    InRange (l.filterM p) := by
  have haux : ∀ kept, InRange (l.filterAuxM p kept) := by
    induction l with
    | nil => exact fun kept => ok kept
    | cons a l ih =>
      intro kept
      rw [List.filterAuxM]
      exact (h a List.mem_cons_self).bind fun b _ =>
        ih (fun a ha => h a (List.mem_cons_of_mem _ ha)) _
  exact (haux []).bind fun kept _ => ok kept.reverse

theorem anyM {p : α → Except StoreFailure Bool} {l : List α} (h : ∀ a ∈ l, InRange (p a)) :
    InRange (l.anyM p) := by
  induction l with
  | nil => exact ok false
  | cons a l ih =>
    rw [List.anyM_cons]
    refine (h a List.mem_cons_self).bind fun b _ => ?_
    cases b with
    | false => exact ih fun a ha => h a (List.mem_cons_of_mem _ ha)
    | true => exact ok true

theorem foldlM {f : β → α → Except StoreFailure β} {l : List α} (h : ∀ b, ∀ a ∈ l, InRange (f b a))
    (b : β) : InRange (l.foldlM f b) := by
  induction l generalizing b with
  | nil => exact ok b
  | cons a l ih =>
    rw [List.foldlM_cons]
    exact (h b a List.mem_cons_self).bind fun b' _ =>
      ih (fun b a ha => h b a (List.mem_cons_of_mem _ ha)) b'

end InRange

section Reading

variable {schema : List Column} {row : Row}

/-- A row that fits its columns is read within them. -/
theorem Row.inRange_get (h : row.Fits schema) (c : Column) : InRange (row.get schema c) := by
  intro c'
  rw [Row.get]
  cases hfind : schema.findIdx? c.refersTo with
  | none => simp
  | some i =>
    have hlt : i < row.length := h ▸ (List.findIdx?_eq_some_iff_findIdx_eq.1 hfind).1
    simp [List.getElem?_eq_getElem hlt]

theorem Comparison.inRange_holds (op : Comparison) (order : Option Ordering) :
    InRange (op.holds order) := by
  cases op <;> nofun

theorem Datum.inRange_satisfies (l : Datum) (op : Comparison) (r : Datum) :
    InRange (l.satisfies op r) := by
  unfold satisfies
  split_ifs
  · exact .ok false
  · exact op.inRange_holds _

theorem Join.inRange_admits (h : row.Fits schema) (j : Join) : InRange (j.admits schema row) :=
  (row.inRange_get h j.lhs).bind fun l _ =>
    (row.inRange_get h j.rhs).bind fun r _ => l.inRange_satisfies j.op r

theorem Select.inRange_recordOf (h : row.Fits schema) (columns : List Projection) :
    InRange (recordOf columns schema row) := by
  refine .foldlM (fun record p _ => ?_) _
  cases p with
  | all => exact .ok _
  | allFrom table => exact .ok _
  | column c => exact (row.inRange_get h c).bind fun d _ => .ok _

theorem Select.inRange_keyed (h : row.Fits schema) (order : List OrderTerm) :
    InRange (keyed order schema row) :=
  (InRange.mapM fun term _ => row.inRange_get h term.column).bind fun keys _ => .ok (keys, row)

end Reading

namespace Store

/-- The rows that come up where tables are joined to a frame, with their columns: its rows, pairs of
one of them and one of the next table, and what comes up where the rest is joined to the pairs that
are left. -/
inductive JoinSees (s : Store) : Frame → List Join → List Column → Row → Prop where
  | row {f : Frame} {joins : List Join} {row : Row} (hrow : row ∈ f.rows) :
      JoinSees s f joins f.schema row
  | pair {f : Frame} {j : Join} {rest : List Join} {t : Table} {l r : Row}
      (ht : s.table j.table = .ok t) (hl : l ∈ f.rows) (hr : r ∈ t.rows) :
      JoinSees s f (j :: rest) (f.schema ++ t.columns) (l ++ r)
  | later {f g : Frame} {j : Join} {rest : List Join} {t : Table} {schema : List Column} {row : Row}
      (ht : s.table j.table = .ok t) (hg : f.join j t = .ok g)
      (h : JoinSees s g rest schema row) : JoinSees s f (j :: rest) schema row

/-- The rows that come up where a table is joined with others. -/
def FrameSees (s : Store) (T : String) (joins : List Join) (schema : List Column) (row : Row) :
    Prop :=
  ∃ t, s.table T = .ok t ∧ s.JoinSees (.ofTable t) joins schema row

/-- The rows that come up where a row is tested, with their columns: the row itself, and for a
condition on the rows of other tables all that come up where these are joined and tested. -/
inductive TestSees (s : Store) :
    List Column → Row → Condition → List Column → Row → Prop where
  | row {schema : List Column} {row : Row} {c : Condition} : TestSees s schema row c schema row
  | all {schema schema' : List Column} {row row' : Row} {cs : List Condition} {c : Condition}
      (hc : c ∈ cs) (h : TestSees s schema row c schema' row') :
      TestSees s schema row (.all cs) schema' row'
  | any {schema schema' : List Column} {row row' : Row} {cs : List Condition} {c : Condition}
      (hc : c ∈ cs) (h : TestSees s schema row c schema' row') :
      TestSees s schema row (.any cs) schema' row'
  | not {schema schema' : List Column} {row row' : Row} {c : Condition}
      (h : TestSees s schema row c schema' row') : TestSees s schema row (.not c) schema' row'
  | joined {schema schema' : List Column} {row row' : Row} {T : String} {joins : List Join}
      {inner outer : Column} {filter : Condition} (h : s.FrameSees T joins schema' row') :
      TestSees s schema row (.existsRow T joins inner outer filter) schema' row'
  | within {schema schema' : List Column} {row row' r : Row} {T : String} {joins : List Join}
      {inner outer : Column} {filter : Condition} {f : Frame} (hf : s.frame T joins = .ok f)
      (hr : r ∈ f.rows) (h : TestSees s f.schema r filter schema' row') :
      TestSees s schema row (.existsRow T joins inner outer filter) schema' row'

end Store

/-- The table of which a statement tests the rows, its joins and the conditions. -/
def Statement.scan? : Statement → Option (String × List Join × List Condition)
  | .select q => some (q.table, q.joins, q.filters)
  | .count q => some (q.table, q.joins, q.filters)
  | .insert _ => none
  | .update u => some (u.table, [], u.filters)
  | .delete d => some (d.table, [], d.filters)

namespace Store

/-- The rows that come up in a statement, with their columns: where tables are joined, where rows
are tested, and where they are projected. -/
inductive Sees (s : Store) (st : Statement) : List Column → Row → Prop where
  | joined {T : String} {joins : List Join} {filters : List Condition} {schema : List Column}
      {row : Row} (hscan : st.scan? = some (T, joins, filters))
      (h : s.FrameSees T joins schema row) : Sees s st schema row
  | tested {T : String} {joins : List Join} {filters : List Condition} {c : Condition} {f : Frame}
      {schema : List Column} {r row : Row} (hscan : st.scan? = some (T, joins, filters))
      (hf : s.frame T joins = .ok f) (hr : r ∈ f.rows) (hc : c ∈ filters)
      (h : s.TestSees f.schema r c schema row) : Sees s st schema row
  | projected {q : Select} {f : Frame} {row : Row} (hst : st = .select q ∨ st = .count q)
      (hf : s.selectRows q = .ok f) (hrow : row ∈ f.rows) : Sees s st f.schema row

section Range

variable {s : Store} {T : String} {f g : Frame} {joins : List Join} {row : Row} {st : Statement}

/-- The rows that are left of joined tables have come up. -/
theorem JoinSees.of_joinAll (h : s.joinAll f joins = .ok g) (hrow : row ∈ g.rows) :
    s.JoinSees f joins g.schema row := by
  induction joins generalizing f with
  | nil =>
    obtain rfl := Except.ok.inj h
    exact .row hrow
  | cons j joins ih =>
    obtain ⟨t, f', ht, hf', hg⟩ := joinAll_cons_eq_ok.1 h
    exact .later ht hf' (ih hg)

theorem FrameSees.of_frame (h : s.frame T joins = .ok f) (hrow : row ∈ f.rows) :
    s.FrameSees T joins f.schema row := by
  obtain ⟨t, ht, hf⟩ := frame_eq_ok.1 h
  exact ⟨t, ht, .of_joinAll hf hrow⟩

theorem inRange_table (s : Store) (T : String) : InRange (s.table T) := by
  intro c
  rw [table]
  cases s.tables.find? (·.name == T) <;> simp

theorem inRange_joinAll (h : ∀ schema row, s.JoinSees f joins schema row → row.Fits schema) :
    InRange (s.joinAll f joins) := by
  induction joins generalizing f with
  | nil => exact .ok f
  | cons j joins ih =>
    refine (s.inRange_table j.table).bind fun t ht => InRange.bind ?_ fun g hg =>
      ih fun schema row hrow => h schema row (.later ht hg hrow)
    refine (InRange.filterM fun row hrow => ?_).bind fun rows _ => .ok _
    obtain ⟨l, hl, hrow⟩ := List.mem_flatMap.1 hrow
    obtain ⟨r, hr, rfl⟩ := List.mem_map.1 hrow
    exact j.inRange_admits (h _ _ (.pair ht hl hr))

theorem inRange_frame (h : ∀ schema row, s.FrameSees T joins schema row → row.Fits schema) :
    InRange (s.frame T joins) :=
  (s.inRange_table T).bind fun t ht => inRange_joinAll fun schema row hrow =>
    h schema row ⟨t, ht, hrow⟩

mutual

/-- A test reads no row beyond its end, if all rows that come up in it fit. -/
theorem inRange_test : ∀ (c : Condition) {schema : List Column} {row : Row},
    (∀ schema' row', s.TestSees schema row c schema' row' → row'.Fits schema') →
      InRange (s.test schema row c)
  | .all cs, _, _, h => by
    rw [test]
    exact inRange_testAll cs fun c hc schema' row' hrow => h schema' row' (.all hc hrow)
  | .any cs, _, _, h => by
    rw [test]
    exact inRange_testAny cs fun c hc schema' row' hrow => h schema' row' (.any hc hrow)
  | .not c, _, _, h => by
    rw [test]
    exact (inRange_test c fun schema' row' hrow => h schema' row' (.not hrow)).bind fun b _ =>
      .ok _
  | .compare column op operand, _, row, h => by
    rw [test]
    exact (row.inRange_get (h _ _ .row) column).bind fun d _ => d.inRange_satisfies op operand
  | .oneOf column operands, _, row, h => by
    rw [test]
    exact (row.inRange_get (h _ _ .row) column).bind fun d _ => .ok _
  | .noneOf column operands, _, row, h => by
    rw [test]
    exact (row.inRange_get (h _ _ .row) column).bind fun d _ => .ok _
  | .isNull column, _, row, h => by
    rw [test]
    exact (row.inRange_get (h _ _ .row) column).bind fun d _ => .ok _
  | .isNotNull column, _, row, h => by
    rw [test]
    exact (row.inRange_get (h _ _ .row) column).bind fun d _ => .ok _
  | .like column pattern negated, _, row, h => by
    rw [test]
    refine (row.inRange_get (h _ _ .row) column).bind fun d _ => ?_
    cases d <;> exact .ok _
  | .date column op operand, _, row, h => by
    rw [test]
    refine (row.inRange_get (h _ _ .row) column).bind fun d _ => ?_
    split
    · exact op.inRange_holds _
    · exact .ok _
  | .existsRow T joins inner outer filter, _, row, h => by
    rw [test]
    -- the joined tables come first, and then each of their rows is tested as the outer row was
    have hframe := inRange_frame fun schema' row' hrow => h schema' row' (.joined hrow)
    refine (row.inRange_get (h _ _ .row) outer).bind fun key _ => hframe.bind fun f hf =>
      .anyM fun r hr => ?_
    have htest := fun schema' row' hrow => h schema' row' (.within hf hr hrow)
    refine (r.inRange_get (htest _ _ .row) inner).bind fun d _ =>
      (d.inRange_satisfies .eq key).bind fun b _ => ?_
    cases b with
    | false => exact .ok false
    | true => exact inRange_test filter htest

theorem inRange_testAll : ∀ (cs : List Condition) {schema : List Column} {row : Row},
    (∀ c ∈ cs, ∀ schema' row', s.TestSees schema row c schema' row' → row'.Fits schema') →
      InRange (s.testAll schema row cs)
  | [], _, _, _ => by
    rw [testAll_nil]
    exact .ok true
  | c :: cs, _, _, h => by
    rw [testAll]
    refine (inRange_test c (h c List.mem_cons_self)).bind fun b _ => ?_
    cases b with
    | false => exact .ok false
    | true => exact inRange_testAll cs fun c hc => h c (List.mem_cons_of_mem _ hc)

theorem inRange_testAny : ∀ (cs : List Condition) {schema : List Column} {row : Row},
    (∀ c ∈ cs, ∀ schema' row', s.TestSees schema row c schema' row' → row'.Fits schema') →
      InRange (s.testAny schema row cs)
  | [], _, _, _ => by
    rw [testAny_nil]
    exact .ok false
  | c :: cs, _, _, h => by
    rw [testAny]
    refine (inRange_test c (h c List.mem_cons_self)).bind fun b _ => ?_
    cases b with
    | false => exact inRange_testAny cs fun c hc => h c (List.mem_cons_of_mem _ hc)
    | true => exact .ok true

end

section Statements

variable (h : ∀ schema row, s.Sees st schema row → row.Fits schema)

include h

theorem inRange_scan {filters : List Condition} (hscan : st.scan? = some (T, joins, filters))
    (hf : s.frame T joins = .ok f) (hrow : row ∈ f.rows) :
    InRange (s.testAll f.schema row filters) :=
  inRange_testAll filters fun _ hc schema row' hsee =>
    h schema row' (.tested hscan hf hrow hc hsee)

theorem inRange_selectRows {q : Select} (hscan : st.scan? = some (q.table, q.joins, q.filters)) :
    InRange (s.selectRows q) := by
  have hframe := inRange_frame fun schema row hrow => h schema row (.joined hscan hrow)
  refine hframe.bind fun f hf => ?_
  refine (InRange.filterM fun row hrow => inRange_scan h hscan hf hrow).bind fun rows hrows => ?_
  refine (InRange.mapM fun row hrow => ?_).bind fun keyed _ => .ok _
  -- the keys are read in what is left of the joined rows
  obtain ⟨-, rfl⟩ := filterM_eq_ok.1 hrows
  have hsee := FrameSees.of_frame hf (List.mem_of_mem_filter hrow)
  exact Select.inRange_keyed (h _ _ (.joined hscan hsee)) q.order

theorem inRange_select {q : Select} (hst : st = .select q ∨ st = .count q) :
    InRange (s.select q) := by
  have hscan : st.scan? = some (q.table, q.joins, q.filters) := by
    rcases hst with rfl | rfl <;> rfl
  exact (inRange_selectRows h hscan).bind fun f hf => .mapM fun row hrow =>
    Select.inRange_recordOf (h _ _ (.projected hst hf hrow)) q.columns

theorem inRange_marked {filters : List Condition} (hscan : st.scan? = some (T, [], filters)) :
    InRange (s.marked T filters) := by
  refine (s.inRange_table T).bind fun t ht => .mapM fun row hrow => ?_
  have hf : s.frame T [] = .ok (.ofTable t) := frame_nil_eq_ok.2 ⟨t, ht, rfl⟩
  exact (inRange_scan h hscan hf hrow).bind fun b _ => .ok (b, row)

end Statements

theorem inRange_targets (t : Table) (assignments : List (String × Datum)) :
    InRange (targets t assignments) := by
  refine .mapM fun ⟨name, d⟩ _ => ?_
  cases hplace : t.schema.findIdx? (·.name == name) with
  | none =>
    simp only [hplace]
    nofun
  | some i =>
    simp only [hplace]
    exact .ok (i, d)

theorem inRange_append (t : Table) (columns : List String) (values : List Datum) :
    InRange (t.append columns values) := by
  unfold Table.append
  split_ifs with hlen
  · nofun
  · cases hfind : columns.find? fun c => !t.hasColumn c with
    | some c => nofun
    | none =>
      refine InRange.bind (fun c h => ?_) fun row _ => .ok _
      cases Table.Draft.foldlM_eq_error (fun c => (columns.zip values).lookup c) h

theorem inRange_appendAll (t : Table) (columns : List String) (rows : List (List Datum)) :
    InRange (t.appendAll columns rows).2 := by
  intro c h
  obtain ⟨-, values, -, -, -, -, hrefused⟩ := Table.appendAll_refused (Prod.ext rfl h)
  exact inRange_append _ columns values c hrefused

theorem inRange_insert (s : Store) (i : Insertion) : InRange (s.insert i).2 := by
  cases ht : s.table i.table with
  | error failure =>
    rw [insert_eq_error ht]
    have htable := s.inRange_table i.table
    rw [ht] at htable
    exact fun c h => htable c (congrArg _ (Except.error.inj h))
  | ok t =>
    rw [insert_eq ht]
    exact inRange_appendAll t i.columns i.rows

/-- A statement reads no row beyond its end, if all rows that come up in it fit their columns. -/
theorem inRange_verdict (h : ∀ schema row, s.Sees st schema row → row.Fits schema) :
    InRange (s.verdict st) := by
  cases st with
  | select q => exact (inRange_select h (.inl rfl)).map
  | count q => exact (inRange_select h (.inr rfl)).map.map
  | insert i => exact (s.inRange_insert i).map
  | update u =>
    refine InRange.map ?_
    unfold update
    split_ifs
    · exact .ok (s, 0)
    · exact (inRange_marked h rfl).bind fun rows _ => (s.inRange_table u.table).bind fun t _ =>
        (inRange_targets t u.assignments).bind fun cells _ => .ok _
  | delete d =>
    exact ((inRange_marked h rfl).bind fun rows _ => (s.inRange_table d.table).bind fun t _ =>
      .ok _).map

end Range

end Store

end EntityGraph
