import EntityGraph.Proofs.Store.Answer
import EntityGraph.Relation.Query

/-!
# Links of relations

A relation links an owner to the rows of the target's table, joined with the table of pairs if there
is one, that hold in one column what the owner holds under one key.

* `Relation.ownerKey`, `Relation.linkColumn` and `Relation.linkJoins` are the parts of a link, for
  all kinds of relations alike: a filter on a relation (`FilterExpr.linked_eq`) and the query for
  the targets of an owner (`Relation.query_eq_some`) are both made of them;
* `Relation.answers_iff` says which records the query for the targets of an owner answers;
* `Store.Links` says that a database has the tables and columns of a link, and `Store.Links.frame`
  describes the joined rows in which both look.
-/

namespace EntityGraph

namespace Relation

/-- The key of an owner that its targets are found by. -/
def ownerKey (r : Relation) : String :=
  match r.link with
  | .belongsTo key => key
  | _ => idName

/-- The column that holds the key of the owner. -/
def linkColumn (r : Relation) : Column :=
  match r.link with
  | .belongsTo _ => idColumn r.targetTable
  | .hasOne key => Column.of r.targetTable key
  | .hasMany key => Column.of r.targetTable key
  | .belongsToMany pivot ownerKey _ => Column.of pivot ownerKey

/-- The join with the table of pairs, if there is one. -/
def linkJoins (r : Relation) : List Join :=
  match r.link with
  | .belongsToMany pivot _ relatedKey => [r.pivotJoin pivot relatedKey]
  | _ => []

variable {r : Relation} {owner : Entity}

theorem query_eq_some {q : Query} (h : r.query owner = some q) :
    q = ⟨r.targetTable, r.linkJoins, [.compare r.linkColumn .eq (owner.get r.ownerKey)], [], none,
      none⟩ := by
  obtain ⟨property, ownerTable, target, targetTable, link⟩ := r
  cases link with
  | belongsTo key =>
    simp only [query] at h
    split at h
    · cases h
    · cases h
      rfl
  | hasOne key =>
    cases h
    rfl
  | hasMany key =>
    cases h
    rfl
  | belongsToMany pivot key relatedKey =>
    cases h
    rfl

theorem query_eq_none (h : r.query owner = none) : (owner.get r.ownerKey).isNull = true := by
  obtain ⟨property, ownerTable, target, targetTable, link⟩ := r
  cases link with
  | belongsTo key =>
    simp only [query] at h
    split at h
    · assumption
    · cases h
  | hasOne key => cases h
  | hasMany key => cases h
  | belongsToMany pivot key relatedKey => cases h

/-- The query for the targets of an owner answers a record. -/
def Answers (s : Store) (r : Relation) (owner : Entity) (record : Record) : Prop :=
  ∃ q records, r.query owner = some q ∧ s.select q.toSelect = .ok records ∧ record ∈ records

variable {s : Store} {record : Record}

/-- What a query for the rows of a link answers, if it answers at all. -/
theorem exists_select_iff (T : String) (joins : List Join) (column : Column) (key : Datum) :
    (∃ records, s.select (Query.toSelect ⟨T, joins, [.compare column .eq key], [], none, none⟩)
        = .ok records ∧ record ∈ records) ↔
      ∃ f, s.frame T joins = .ok f ∧ (∀ row ∈ f.rows, ∃ d, row.get f.schema column = .ok d) ∧
        ∃ row ∈ f.rows, (row.datum f.schema column).equals key = true ∧
          Select.part T f.schema row = record := by
  have htest : ∀ (f : Frame) (row : Row),
      (∃ b, s.testAll f.schema row [.compare column .eq key] = .ok b) ↔
        ∃ d, row.get f.schema column = .ok d := by
    intro f row
    rw [Store.testAll_singleton, Store.test]
    cases row.get f.schema column with
    | error e => simp [bind, Except.bind]
    | ok d => exact ⟨fun _ => ⟨d, rfl⟩, fun _ => ⟨_, Datum.satisfies_eq d _⟩⟩
  simp only [Store.select_unordered_eq_ok, htest]
  constructor
  · rintro ⟨_, ⟨f, hf, hok, rfl⟩, hrecord⟩
    obtain ⟨row, hrow, hpart⟩ := List.mem_map.1 hrecord
    obtain ⟨hrow, hholds⟩ := List.mem_filter.1 hrow
    rw [Store.testAll_singleton, Store.holds_test_eq] at hholds
    exact ⟨f, hf, hok, row, hrow, hholds, hpart⟩
  · rintro ⟨f, hf, hok, row, hrow, hholds, hpart⟩
    refine ⟨_, ⟨f, hf, hok, rfl⟩, List.mem_map.2 ⟨row, List.mem_filter.2 ⟨hrow, ?_⟩, hpart⟩⟩
    rw [Store.testAll_singleton, Store.holds_test_eq]
    exact hholds

/-- The query for the targets of an owner answers what it finds in the joined rows. -/
theorem answers_iff : r.Answers s owner record ↔
    ∃ f, s.frame r.targetTable r.linkJoins = .ok f ∧
      (∀ row ∈ f.rows, ∃ d, row.get f.schema r.linkColumn = .ok d) ∧
      ∃ row ∈ f.rows, (row.datum f.schema r.linkColumn).equals (owner.get r.ownerKey) = true ∧
        Select.part r.targetTable f.schema row = record := by
  rw [← exists_select_iff]
  constructor
  · rintro ⟨q, records, hq, hrecords, hrecord⟩
    rw [query_eq_some hq] at hrecords
    exact ⟨records, hrecords, hrecord⟩
  · intro hselect
    cases hq : r.query owner with
    | some q =>
      obtain ⟨records, hrecords, hrecord⟩ := hselect
      refine ⟨q, records, hq, ?_, hrecord⟩
      rw [query_eq_some hq]
      exact hrecords
    | none =>
      -- where an owner has no key, no row holds it
      obtain ⟨f, -, -, row, -, hequals, -⟩ := (exists_select_iff _ _ _ _).1 hselect
      simp [Datum.equals, query_eq_none hq] at hequals

end Relation

/-- A resolved relation leads from the table of its model to the model that its property names. -/
theorem Catalog.relation_eq_ok {c : Catalog} {model : ModelId} {property : String} {r : Relation}
    (h : c.relation model property = .ok r) :
    c.table model = .ok r.ownerTable ∧ c.table r.target = .ok r.targetTable ∧
      ∃ p, c.property model property = .ok p ∧ p.target = some r.target ∧
        r.link.isToOne = !p.isList := by
  simp only [relation, bind_eq_ok] at h
  obtain ⟨p, hp, hr⟩ := h
  unfold resolveRelation at hr
  cases htarget : p.target with
  | none => simp [htarget] at hr
  | some target =>
    simp only [htarget, bind_eq_ok] at hr
    obtain ⟨owner, howner, related, hrelated, hr⟩ := hr
    split at hr
    · cases hr
    next hkind =>
      cases hr
      refine ⟨by simp [table, howner, bind, Except.bind, pure, Except.pure],
        by simp [table, hrelated, bind, Except.bind, pure, Except.pure], p, hp, htarget, ?_⟩
      exact Bool.eq_not.2 fun heq => hkind (beq_iff_eq.2 heq.symm)

/-- A filter on a relation asks for a row that holds the key of the owner. -/
theorem FilterExpr.linked_eq (r : Relation) (filter : Condition) :
    linked r filter = .existsRow r.targetTable r.linkJoins r.linkColumn
      (Column.of r.ownerTable r.ownerKey) filter := by
  obtain ⟨property, ownerTable, target, targetTable, link⟩ := r
  cases link <;> rfl

theorem Frame.mem_pairs {A B : List Row} {row : Row} :
    row ∈ (A.flatMap fun a => B.map fun b => a ++ b) ↔ ∃ a ∈ A, ∃ b ∈ B, a ++ b = row := by
  simp only [List.mem_flatMap, List.mem_map]

/-- A database has a table with exactly one column of a name. -/
def Store.HasColumn (s : Store) (table column : String) : Prop :=
  ∃ t, s.table table = .ok t ∧ t.Has column

/-- A database has a table with a column of a name; of several, statements read the first. -/
def Store.FindsColumn (s : Store) (table column : String) : Prop :=
  ∃ t, s.table table = .ok t ∧ t.hasColumn column = true

/-- A database has the tables and the columns by which a relation is stored, and the table of pairs
is not the table of the targets. The key of an owner is read from its record, so it stands in one
column; the other keys are read by statements alone. -/
def Store.Links (s : Store) (r : Relation) : Prop :=
  s.HasColumn r.ownerTable r.ownerKey ∧
    match r.link with
    | .belongsTo _ => s.FindsColumn r.targetTable idName
    | .hasOne key => s.FindsColumn r.targetTable key
    | .hasMany key => s.FindsColumn r.targetTable key
    | .belongsToMany pivot ownerKey relatedKey =>
      s.FindsColumn r.targetTable idName ∧ s.FindsColumn pivot ownerKey ∧
        s.FindsColumn pivot relatedKey ∧ pivot ≠ r.targetTable

theorem Join.exists_admits_eq_ok {j : Join} {schema : List Column} {row : Row} {d e : Datum}
    (hop : j.op = .eq) (hd : row.get schema j.lhs = .ok d) (he : row.get schema j.rhs = .ok e) :
    ∃ b, j.admits schema row = .ok b := by
  unfold Join.admits
  rw [hd, he, hop]
  exact ⟨_, Datum.satisfies_eq d e⟩

/-- The joined rows in which the targets of a relation are found: rows of the target's table, each
with a part that no column of that table is read from. -/
structure Relation.LinkFrame (s : Store) (r : Relation) (t : Table) where
  /-- The columns besides those of the target's table. -/
  others : List Column
  rows : List Row
  frame_eq : s.frame r.targetTable r.linkJoins = .ok ⟨t.columns ++ others, rows⟩
  others_ne : ∀ c ∈ others, c.table ≠ some t.name
  /-- Every row has a row of the target's table in front. -/
  split : ∀ row ∈ rows, ∃ a b, row = a ++ b ∧ a ∈ t.rows
  /-- Every row has a datum in the column that holds the key of the owner. -/
  key : ∀ row ∈ rows, ∃ d, row.get (t.columns ++ others) r.linkColumn = .ok d

namespace Store.Links

variable {s : Store} {r : Relation}

theorem targetTable (h : s.Links r) : ∃ t, s.table r.targetTable = .ok t := by
  obtain ⟨property, ownerTable, target, targetTable, link⟩ := r
  cases link with
  | belongsTo key => exact ⟨_, h.2.choose_spec.1⟩
  | hasOne key => exact ⟨_, h.2.choose_spec.1⟩
  | hasMany key => exact ⟨_, h.2.choose_spec.1⟩
  | belongsToMany pivot ownerKey relatedKey => exact ⟨_, h.2.1.choose_spec.1⟩

/-- Without a table of pairs the rows are those of the target's table. -/
theorem frame_of_column (hs : s.Full) {t : Table} {column : String}
    (ht : s.table r.targetTable = .ok t) (hcolumn : s.FindsColumn r.targetTable column)
    (hlink : r.linkColumn = Column.of r.targetTable column) (hjoins : r.linkJoins = []) :
    Nonempty (r.LinkFrame s t) := by
  obtain ⟨u, hu, hcolumn⟩ := hcolumn
  obtain rfl : t = u := Except.ok.inj (ht.symm.trans hu)
  refine ⟨⟨[], t.rows, ?_, by simp, fun row hrow => ⟨row, [], by simp, hrow⟩, fun row hrow => ?_⟩⟩
  · rw [hjoins, List.append_nil]
    exact frame_nil_eq_ok.2 ⟨t, ht, rfl⟩
  · obtain ⟨d, hd⟩ := exists_get_of_hasColumn ht (hs.table ht row hrow) hcolumn
    exact ⟨d, by rwa [hlink, List.append_nil]⟩

/-- With a table of pairs the rows are pairs of a target and a row of that table. -/
theorem frame_of_pivot (hs : s.Full) {t : Table} {pivot ownerKey relatedKey : String}
    (ht : s.table r.targetTable = .ok t) (hid : s.FindsColumn r.targetTable idName)
    (howner : s.FindsColumn pivot ownerKey) (hrelated : s.FindsColumn pivot relatedKey)
    (hne : pivot ≠ r.targetTable) (hlink : r.linkColumn = Column.of pivot ownerKey)
    (hjoins : r.linkJoins = [r.pivotJoin pivot relatedKey]) : Nonempty (r.LinkFrame s t) := by
  obtain ⟨u, hu, hid⟩ := hid
  obtain rfl : t = u := Except.ok.inj (ht.symm.trans hu)
  obtain ⟨p, hp, howner⟩ := howner
  obtain ⟨p', hp', hrelated⟩ := hrelated
  obtain rfl : p = p' := Except.ok.inj (hp.symm.trans hp')
  have hpair : ∀ {column}, p.hasColumn column = true → ∀ a ∈ t.rows, ∀ b ∈ p.rows, ∃ d,
      Row.get (t.columns ++ p.columns) (a ++ b) (Column.of pivot column) = .ok d := by
    intro column hcolumn a ha b hb
    obtain ⟨d, hd⟩ := exists_get_of_hasColumn hp (hs.table hp b hb) hcolumn
    exact ⟨d, (get_behind ht (hs.table ht a ha) rfl hne p.columns b).trans hd⟩
  have htarget : ∀ a ∈ t.rows, ∀ b, ∃ d,
      Row.get (t.columns ++ p.columns) (a ++ b) (idColumn r.targetTable) = .ok d := by
    intro a ha b
    obtain ⟨d, hd⟩ := exists_get_of_hasColumn ht (hs.table ht a ha) hid
    exact ⟨d, (get_front ht (hs.table ht a ha) hid p.columns b).trans hd⟩
  -- the join compares columns that both sides have, so it does not fail
  obtain ⟨rows, hframe, hrows⟩ : ∃ rows,
      s.frame r.targetTable r.linkJoins = .ok ⟨t.columns ++ p.columns, rows⟩ ∧
        ∀ row ∈ rows, ∃ a ∈ t.rows, ∃ b ∈ p.rows, a ++ b = row := by
    rw [hjoins]
    refine ⟨_, frame_singleton_eq_ok.2 ⟨t, p, ht, hp, join_eq_ok.2 ⟨?_, rfl⟩⟩, fun row hrow =>
      Frame.mem_pairs.1 (List.mem_of_mem_filter hrow)⟩
    intro a ha b hb
    obtain ⟨d, hd⟩ := hpair hrelated a ha b hb
    obtain ⟨e, he⟩ := htarget a ha b
    exact Join.exists_admits_eq_ok rfl hd he
  refine ⟨⟨p.columns, rows, hframe, ?_, ?_, ?_⟩⟩
  · rw [(mem_of_table ht).2]
    exact columns_ne hp hne.symm
  · intro row hrow
    obtain ⟨a, ha, b, -, rfl⟩ := hrows row hrow
    exact ⟨a, b, rfl, ha⟩
  · intro row hrow
    obtain ⟨a, ha, b, hb, rfl⟩ := hrows row hrow
    rw [hlink]
    exact hpair howner a ha b hb

/-- The joined rows in which the targets of a relation are found exist. -/
theorem frame (hs : s.Full) (h : s.Links r) {t : Table} (ht : s.table r.targetTable = .ok t) :
    Nonempty (r.LinkFrame s t) := by
  obtain ⟨property, ownerTable, target, targetTable, link⟩ := r
  cases link with
  | belongsTo key => exact frame_of_column hs ht h.2 rfl rfl
  | hasOne key => exact frame_of_column hs ht h.2 rfl rfl
  | hasMany key => exact frame_of_column hs ht h.2 rfl rfl
  | belongsToMany pivot ownerKey relatedKey =>
    obtain ⟨hid, howner, hrelated, hne⟩ := h.2
    exact frame_of_pivot hs ht hid howner hrelated hne rfl rfl

end Store.Links

/-- In the joined rows of a link the query for the targets of an owner finds those that hold its
key. -/
theorem Relation.LinkFrame.answers_iff {s : Store} {r : Relation} {t : Table}
    (F : r.LinkFrame s t) {owner : Entity} {record : Record} : r.Answers s owner record ↔
      ∃ row ∈ F.rows,
        (row.datum (t.columns ++ F.others) r.linkColumn).equals (owner.get r.ownerKey) = true ∧
          Select.part r.targetTable (t.columns ++ F.others) row = record := by
  rw [Relation.answers_iff]
  constructor
  · rintro ⟨f, hf, -, hrow⟩
    obtain rfl := Except.ok.inj (F.frame_eq.symm.trans hf)
    exact hrow
  · exact fun hrow => ⟨_, F.frame_eq, F.key, hrow⟩

end EntityGraph
