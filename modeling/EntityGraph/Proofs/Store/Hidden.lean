import EntityGraph.Proofs.Alike
import EntityGraph.Proofs.Store.Reads
import EntityGraph.Proofs.Store.Selection

/-!
# Databases that differ in a hidden column

Two databases with the same tables whose rows differ, if at all, in the cells of one column.
Whatever does not read this column runs alike on both.

* `Store.AgreesOff` relates such databases, `Row.AgreesOff` and `Record.AgreesOff` their rows and
  records;
* `Store.test_agrees` says that conditions hold alike, and `Store.frame_agrees` that tables are
  joined alike;
* `Store.select_agrees` says that a query finds the same rows in the same order, up to the column.
-/

namespace EntityGraph

/-- Rows that have a datum for each column, the same one but in the hidden column. -/
inductive Row.AgreesOff (hidden : Column) : List Column → Row → Row → Prop where
  | nil : AgreesOff hidden [] [] []
  | cons {c : Column} {schema : List Column} {d d' : Datum} {row row' : Row} :
    (c ≠ hidden → d = d') → AgreesOff hidden schema row row' →
      AgreesOff hidden (c :: schema) (d :: row) (d' :: row')

/-- Tables of one name and schema whose rows agree off the hidden column, one by one. -/
structure Table.AgreesOff (hidden : Column) (t t' : Table) : Prop where
  name : t'.name = t.name
  schema : t'.schema = t.schema
  rows : List.Forall₂ (Row.AgreesOff hidden t.columns) t.rows t'.rows

/-- Databases whose tables agree off the hidden column. -/
def Store.AgreesOff (hidden : Column) (s s' : Store) : Prop :=
  List.Forall₂ (Table.AgreesOff hidden) s.tables s'.tables

/-- Frames of one schema whose rows agree off the hidden column. -/
structure Frame.AgreesOff (hidden : Column) (f f' : Frame) : Prop where
  schema : f'.schema = f.schema
  rows : List.Forall₂ (Row.AgreesOff hidden f.schema) f.rows f'.rows

/-- Records of the rows of a table that agree off the hidden column. -/
def Record.AgreesOff (hidden : Column) (T : String) (r r' : Record) : Prop :=
  ∀ name, Column.of T name ≠ hidden → r.get? name = r'.get? name

variable {hidden : Column}

namespace Row.AgreesOff

variable {schema schema' : List Column} {row row' rest rest' : Row} {column : Column}

theorem append (h : Row.AgreesOff hidden schema row row')
    (h' : Row.AgreesOff hidden schema' rest rest') :
    Row.AgreesOff hidden (schema ++ schema') (row ++ rest) (row' ++ rest') := by
  induction h with
  | nil => exact h'
  | cons hd _ ih => exact .cons hd ih

/-- A column that is not the hidden one is read alike. -/
theorem get_eq (h : Row.AgreesOff hidden schema row row') (hc : column.refersTo hidden = false) :
    row.get schema column = row'.get schema column := by
  induction h with
  | nil => rfl
  | @cons c schema d d' row row' hd _ ih =>
    by_cases hrefers : column.refersTo c = true
    · have hne : c ≠ hidden := by
        rintro rfl
        exact Bool.false_ne_true (hc.symm.trans hrefers)
      simp [Row.get, List.findIdx?_cons, hrefers, hd hne]
    · simp only [Row.get, List.findIdx?_cons, hrefers] at ih ⊢
      cases hfind : schema.findIdx? column.refersTo with
      | none => simp
      | some i => simpa [hfind] using ih

/-- The records of rows that agree agree. -/
theorem part (T : String) (h : Row.AgreesOff hidden schema row row') :
    Record.AgreesOff hidden T (Select.part T schema row) (Select.part T schema row') := by
  have hfold : ∀ r r' : Record, Record.AgreesOff hidden T r r' → Record.AgreesOff hidden T
      ((schema.zip row).foldl
        (fun r e => if e.1.table = some T then r.set e.1.name e.2 else r) r)
      ((schema.zip row').foldl
        (fun r e => if e.1.table = some T then r.set e.1.name e.2 else r) r') := by
    induction h with
    | nil => exact fun r r' hr => hr
    | @cons c schema d d' row row' hd _ ih =>
      intro r r' hr
      refine ih _ _ ?_
      by_cases htable : c.table = some T
      · simp only [htable, if_true]
        intro name hname
        rw [Dict.get?_set, Dict.get?_set]
        by_cases heq : name = c.name
        · have hcolumn : c = Column.of T name := by rw [heq, Column.of, ← htable]
          rw [if_pos heq, if_pos heq, hd (hcolumn ▸ hname)]
        · rw [if_neg heq, if_neg heq, hr name hname]
      · simpa only [if_neg htable] using hr
  exact hfold _ _ fun _ _ => rfl

/-- A row that has a datum for each column agrees with itself. -/
theorem self (h : row.length = schema.length) : Row.AgreesOff hidden schema row row := by
  induction schema generalizing row with
  | nil =>
    obtain rfl := List.length_eq_zero_iff.1 h
    exact .nil
  | cons c schema ih =>
    cases row with
    | nil => cases h
    | cons d row => exact .cons (fun _ => rfl) (ih (Nat.succ.inj h))

end Row.AgreesOff

/-- A table whose rows are full agrees with itself. -/
theorem Table.Full.agreesOff {t : Table} (h : t.Full) : t.AgreesOff hidden t :=
  ⟨rfl, rfl, List.forall₂_same.2 fun row hrow => .self ((h row hrow).trans t.length_columns.symm)⟩

theorem Table.AgreesOff.columns_eq {t t' : Table} (h : t.AgreesOff hidden t') :
    t'.columns = t.columns := by
  rw [Table.columns, Table.columns, h.name, h.schema]

theorem Table.AgreesOff.frame {t t' : Table} (h : t.AgreesOff hidden t') :
    Frame.AgreesOff hidden (.ofTable t) (.ofTable t') :=
  ⟨h.columns_eq, h.rows⟩

namespace Store

variable {s s' : Store}

theorem table_agrees (h : s.AgreesOff hidden s') (T : String) :
    Alike (Table.AgreesOff hidden) (s.table T) (s'.table T) := by
  obtain ⟨tables⟩ := s
  obtain ⟨tables'⟩ := s'
  change List.Forall₂ (Table.AgreesOff hidden) tables tables' at h
  simp only [table]
  induction h with
  | nil => exact .error _
  | @cons t t' tables tables' ht _ ih =>
    rw [List.find?_cons, List.find?_cons, ht.name]
    cases t.name == T with
    | true => exact .ok ht
    | false => exact ih

/-- Frames that agree are joined alike, by columns that are not hidden. -/
theorem join_agrees {f f' : Frame} {t t' : Table} {j : Join} (hf : f.AgreesOff hidden f')
    (ht : t.AgreesOff hidden t') (hj : ∀ column ∈ j.reads, column.refersTo hidden = false) :
    Alike (Frame.AgreesOff hidden) (f.join j t) (f'.join j t') := by
  have hpairs : List.Forall₂ (Row.AgreesOff hidden (f.schema ++ t.columns))
      (f.rows.flatMap fun l => t.rows.map fun r => l ++ r)
      (f'.rows.flatMap fun l => t'.rows.map fun r => l ++ r) := by
    refine List.rel_flatMap hf.rows fun l l' hl => ?_
    exact List.rel_map (fun r r' hr => hl.append hr) ht.rows
  have hadmits : ∀ row row', Row.AgreesOff hidden (f.schema ++ t.columns) row row' →
      j.admits (f.schema ++ t.columns) row = j.admits (f.schema ++ t.columns) row' := by
    intro row row' hrow
    rw [Join.admits, Join.admits, hrow.get_eq (hj j.lhs (by simp [Join.reads])),
      hrow.get_eq (hj j.rhs (by simp [Join.reads]))]
  unfold Frame.join
  rw [hf.schema, ht.columns_eq]
  exact (Alike.filterM hpairs hadmits).bind fun rows rows' hrows => .ok ⟨rfl, hrows⟩

theorem joinAll_agrees (h : s.AgreesOff hidden s') {joins : List Join}
    (hjoins : ∀ column ∈ joins.flatMap Join.reads, column.refersTo hidden = false) {f f' : Frame}
    (hf : f.AgreesOff hidden f') :
    Alike (Frame.AgreesOff hidden) (s.joinAll f joins) (s'.joinAll f' joins) := by
  induction joins generalizing f f' with
  | nil => exact .ok hf
  | cons j joins ih =>
    rw [List.flatMap_cons, List.forall_mem_append] at hjoins
    refine (table_agrees h j.table).bind fun t t' ht => ?_
    exact (join_agrees hf ht hjoins.1).bind fun f f' hf => ih hjoins.2 hf

/-- Tables are joined alike by columns that are not hidden. -/
theorem frame_agrees (h : s.AgreesOff hidden s') {joins : List Join} (T : String)
    (hjoins : ∀ column ∈ joins.flatMap Join.reads, column.refersTo hidden = false) :
    Alike (Frame.AgreesOff hidden) (s.frame T joins) (s'.frame T joins) :=
  (table_agrees h T).bind fun _ _ ht => joinAll_agrees h hjoins ht.frame

mutual

/-- A condition that does not read the hidden column is tested alike. -/
theorem test_agrees (h : s.AgreesOff hidden s') : ∀ (c : Condition) {schema : List Column}
    {row row' : Row}, Row.AgreesOff hidden schema row row' →
      (∀ column ∈ c.reads, column.refersTo hidden = false) →
      s.test schema row c = s'.test schema row' c
  | .all cs, _, _, _, hrow, hc => by
    rw [test, test]
    exact testAll_agrees h cs hrow hc
  | .any cs, _, _, _, hrow, hc => by
    rw [test, test]
    exact testAny_agrees h cs hrow hc
  | .not c, _, _, _, hrow, hc => by rw [test, test, test_agrees h c hrow hc]
  | .compare column op operand, _, _, _, hrow, hc => by
    rw [test, test, hrow.get_eq (hc column List.mem_cons_self)]
  | .oneOf column operands, _, _, _, hrow, hc => by
    rw [test, test, hrow.get_eq (hc column List.mem_cons_self)]
  | .noneOf column operands, _, _, _, hrow, hc => by
    rw [test, test, hrow.get_eq (hc column List.mem_cons_self)]
  | .isNull column, _, _, _, hrow, hc => by
    rw [test, test, hrow.get_eq (hc column List.mem_cons_self)]
  | .isNotNull column, _, _, _, hrow, hc => by
    rw [test, test, hrow.get_eq (hc column List.mem_cons_self)]
  | .like column pattern negated, _, _, _, hrow, hc => by
    rw [test, test, hrow.get_eq (hc column List.mem_cons_self)]
  | .date column op operand, _, _, _, hrow, hc => by
    rw [test, test, hrow.get_eq (hc column List.mem_cons_self)]
  | .existsRow T joins inner outer filter, _, _, _, hrow, hc => by
    rw [Condition.reads, List.forall_mem_append, List.forall_mem_cons, List.forall_mem_cons] at hc
    obtain ⟨⟨houter, hinner, hjoins⟩, hfilter⟩ := hc
    rw [test, test, hrow.get_eq houter]
    refine (Alike.refl.bind fun key _ heq => ?_).eq
    subst heq
    refine (frame_agrees h T hjoins).bind fun f f' hf => ?_
    rw [hf.schema]
    -- each row that might be linked is tested alike, by the filter on the target
    rw [Alike.anyM hf.rows fun r r' hr => by
      rw [hr.get_eq hinner, test_agrees h filter hr hfilter]]
    exact .refl

theorem testAll_agrees (h : s.AgreesOff hidden s') : ∀ (cs : List Condition)
    {schema : List Column} {row row' : Row}, Row.AgreesOff hidden schema row row' →
      (∀ column ∈ Condition.readsAll cs, column.refersTo hidden = false) →
      s.testAll schema row cs = s'.testAll schema row' cs
  | [], _, _, _, _, _ => by rw [testAll_nil, testAll_nil]
  | c :: cs, _, _, _, hrow, hc => by
    rw [Condition.readsAll, List.forall_mem_append] at hc
    rw [testAll_cons, testAll_cons, test_agrees h c hrow hc.1, testAll_agrees h cs hrow hc.2]

theorem testAny_agrees (h : s.AgreesOff hidden s') : ∀ (cs : List Condition)
    {schema : List Column} {row row' : Row}, Row.AgreesOff hidden schema row row' →
      (∀ column ∈ Condition.readsAll cs, column.refersTo hidden = false) →
      s.testAny schema row cs = s'.testAny schema row' cs
  | [], _, _, _, _, _ => by rw [testAny_nil, testAny_nil]
  | c :: cs, _, _, _, hrow, hc => by
    rw [Condition.readsAll, List.forall_mem_append] at hc
    rw [testAny_cons, testAny_cons, test_agrees h c hrow hc.1, testAny_agrees h cs hrow hc.2]

end

end Store

namespace Select

variable {α β : Type} {R : α → β → Prop} {less : α → α → Bool} {less' : β → β → Bool}

/-- Items that are related, and that precede each other alike, are inserted alike. -/
theorem forall₂_insertLast (hless : ∀ a b a' b', R a b → R a' b' → less a a' = less' b b') {a : α}
    {b : β} (hab : R a b) {l : List α} {l' : List β} (h : List.Forall₂ R l l') :
    List.Forall₂ R (insertLast less a l) (insertLast less' b l') := by
  induction h with
  | nil => exact .cons hab .nil
  | @cons x y l l' hxy hrest ih =>
    simp only [insertLast, hless a b x y hab hxy]
    split_ifs
    · exact .cons hxy ih
    · exact .cons hab (.cons hxy hrest)

/-- Items that are related, and that precede each other alike, are sorted alike. -/
theorem forall₂_stableSort (hless : ∀ a b a' b', R a b → R a' b' → less a a' = less' b b')
    {l : List α} {l' : List β} (h : List.Forall₂ R l l') :
    List.Forall₂ R (stableSort less l) (stableSort less' l') := by
  refine List.forall₂_reverse_iff.2 (List.rel_foldl ?_ .nil h)
  exact fun sorted sorted' hsorted a b hab => forall₂_insertLast hless hab hsorted

theorem forall₂_window (offset limit : Option Nat) {l : List α} {l' : List β}
    (h : List.Forall₂ R l l') :
    List.Forall₂ R (window offset limit l) (window offset limit l') := by
  unfold window
  cases limit with
  | none => exact List.forall₂_drop _ h
  | some n => exact List.forall₂_take _ (List.forall₂_drop _ h)

/-- Rows that agree have the same sort keys, if these are not hidden. -/
theorem keyed_agrees {order : List OrderTerm} {schema : List Column}
    (horder : ∀ term ∈ order, term.column.refersTo hidden = false) {row row' : Row}
    (hrow : Row.AgreesOff hidden schema row row') :
    Alike (fun a b => a.1 = b.1 ∧ Row.AgreesOff hidden schema a.2 b.2)
      (keyed order schema row) (keyed order schema row') := by
  have hterms : List.Forall₂ (fun a b => a = b ∧ a.column.refersTo hidden = false) order order :=
    List.forall₂_same.2 fun term hterm => ⟨rfl, horder term hterm⟩
  refine (Alike.mapM (S := Eq) hterms fun term _ hterm => ?_).bind fun keys keys' hkeys => ?_
  · rw [← hterm.1, hrow.get_eq hterm.2]
    exact .refl
  · rw [List.forall₂_eq_eq_eq] at hkeys
    exact .ok ⟨hkeys, hrow⟩

end Select

/-- The columns that a query looks at. -/
def Query.reads (q : Query) : List Column :=
  q.joins.flatMap Join.reads ++ Condition.readsAll q.filters ++ q.order.map (·.column)

namespace Store

variable {s s' : Store} {q : Query}

/-- A query keeps the same rows in the same order, up to the hidden column. -/
theorem selectRows_agrees (h : s.AgreesOff hidden s')
    (hq : ∀ column ∈ q.reads, column.refersTo hidden = false) :
    Alike (Frame.AgreesOff hidden) (s.selectRows q.toSelect) (s'.selectRows q.toSelect) := by
  rw [Query.reads, List.forall_mem_append, List.forall_mem_append, List.forall_mem_map] at hq
  obtain ⟨⟨hjoins, hfilters⟩, horder⟩ := hq
  refine (frame_agrees h q.table hjoins).bind fun f f' hf => ?_
  rw [hf.schema]
  refine (Alike.filterM hf.rows fun row row' hrow =>
    testAll_agrees h q.filters hrow hfilters).bind fun rows rows' hrows => ?_
  refine (Alike.mapM hrows fun row row' hrow =>
    Select.keyed_agrees horder hrow).bind fun keyed keyed' hkeyed => ?_
  let less (a b : List Datum × Row) := Select.compareKeys q.order a.1 b.1 == .lt
  have hsorted : List.Forall₂ (fun a b => a.1 = b.1 ∧ Row.AgreesOff hidden f.schema a.2 b.2)
      (Select.stableSort less keyed) (Select.stableSort less keyed') :=
    Select.forall₂_stableSort (fun a b a' b' hab hab' => by
      simp only [less, hab.1, hab'.1]) hkeyed
  exact .ok ⟨rfl, Select.forall₂_window _ _ (List.rel_map (fun _ _ hab => hab.2) hsorted)⟩

/-- A query that does not read the hidden column finds the same rows in the same order, up to this
column. -/
theorem select_agrees (h : s.AgreesOff hidden s')
    (hq : ∀ column ∈ q.reads, column.refersTo hidden = false) :
    Alike (List.Forall₂ (Record.AgreesOff hidden q.table)) (s.select q.toSelect)
      (s'.select q.toSelect) := by
  refine (selectRows_agrees h hq).bind fun f f' hf => ?_
  rw [hf.schema]
  exact Alike.mapM hf.rows fun row row' hrow => .ok (hrow.part q.table)

/-- Such a query also counts as many. -/
theorem count_agrees (h : s.AgreesOff hidden s')
    (hq : ∀ column ∈ q.reads, column.refersTo hidden = false) :
    s.count q.toSelect = s'.count q.toSelect :=
  ((select_agrees h hq).map fun _ _ hrecords => hrecords.length_eq).eq

end Store

end EntityGraph
