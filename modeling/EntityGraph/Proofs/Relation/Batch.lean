import EntityGraph.Proofs.Relation.Answer
import EntityGraph.Proofs.Relation.Keys
import EntityGraph.Proofs.Run.Action

/-!
# Batches and single owners

A batch selects the targets of all owners at once and gives each owner its share. The share is what
the owner's own query answers (`Loader.shares_eq_alone`): both answers are made of the blocks of the
target's rows, those of the batch being filtered by the key of the owner after the sort.
-/

namespace EntityGraph

namespace Loader

/-- The targets of a relation of one owner, selected on their own. -/
def ownTargets (l : Loader) (r : Relation) (args : ListArgs) (owner : Entity) :
    Action (List Entity) :=
  match r.query owner with
  | none => pure []
  | some q => do
    let restricted ← Action.ofExcept (args.refine l.catalog l.maxDepth r.target q)
    let records ← Action.query ((restricted.withLimit (ListArgs.positive args.limit)).withOffset
      (ListArgs.positive args.offset))
    return Entity.ofRecords r.target records

/-- A relation of one owner, resolved on its own: the first target for a relation to one entity. -/
def alone (l : Loader) (owner : Entity) (property : String) (args : ListArgs) : Action Loaded := do
  let r ← Action.ofExcept (l.catalog.relation owner.model property)
  let found ← l.ownTargets r args owner
  return if r.link.isToOne then .one found.head? else .many found

end Loader

/-- The table of pairs of a relation is not that of its targets. -/
def Relation.PairsApart (r : Relation) : Prop :=
  ∀ j ∈ r.linkJoins, j.table ≠ r.targetTable

/-- The order of a list joins no table that is in the query for the targets of an owner, and the
column that it sorts by holds null and data of one kind. -/
def Store.Orders (s : Store) (l : Loader) (r : Relation) (args : ListArgs) : Prop :=
  ∀ q, args.refine l.catalog l.maxDepth r.target (Query.all r.targetTable) = .ok q →
    (∀ j ∈ q.joins, j.table ≠ r.targetTable ∧ ∀ k ∈ r.linkJoins, j.table ≠ k.table) ∧
      ∀ term ∈ q.order, s.OneKind term.column

namespace ListArgs.Added

variable {args : ListArgs} {c : Catalog} {maxDepth : Nat} {model : ModelId} {T : String}

theorem refine_all (A : args.Added c maxDepth model T) :
    args.refine c maxDepth model (Query.all T)
      = .ok ⟨T, A.joins, A.clauses, A.order, .none, .none⟩ := by
  rw [Query.all, A.refine_eq [] [] (by simp), List.nil_append, List.nil_append]

/-- Arguments determine what they add. -/
instance : Subsingleton (args.Added c maxDepth model T) where
  allEq A B := by
    have h := Except.ok.inj (A.refine_all.symm.trans B.refine_all)
    cases A
    cases B
    simp_all

theorem mem_answer {A : args.Added c maxDepth model T} {s : Store} {t : Table} {test : Row → Bool}
    {record : Record} (hs : s.Full) (ht : s.table T = .ok t) (hapart : ∀ j ∈ A.joins, j.table ≠ T)
    (h : record ∈ A.answer s t test) : ∃ row ∈ t.rows, test row = true ∧ record = t.record row := by
  obtain ⟨x, hx, rfl⟩ := List.mem_map.1 h
  obtain ⟨row, hrow, hx⟩ := List.mem_flatMap.1 (Select.mem_stableSort.1 hx)
  obtain ⟨hrow, htest⟩ := List.mem_filter.1 hrow
  exact ⟨row, hrow, htest, record_of_mem_block hs ht hapart hrow hx⟩

/-- An order that is fit for its query. -/
theorem apart {l : Loader} {r : Relation} {s : Store}
    (A : args.Added l.catalog l.maxDepth r.target r.targetTable) (h : s.Orders l r args) :
    (∀ j ∈ A.joins, j.table ≠ r.targetTable) ∧ (∀ term ∈ A.order, s.OneKind term.column) ∧
      ∀ j ∈ A.joins, ∀ k ∈ r.linkJoins, j.table ≠ k.table := by
  obtain ⟨hjoins, hkind⟩ := h _ A.refine_all
  exact ⟨fun j hj => (hjoins j hj).1, hkind, fun j hj => (hjoins j hj).2⟩

end ListArgs.Added

namespace Loader

variable {l : Loader} {r : Relation} {args : ListArgs} {w w' : World} {found : List Entity}

/-- What a test for keys says of the rows of a table. -/
def keyTest (t : Table) (column : Column) (keys : List Datum) (row : Row) : Bool :=
  keys.any (row.datum t.columns column).equals

theorem targets_eq_ok {key : String} {keys : List Datum} (hs : w.store.Full)
    (hhas : ∀ t, w.store.table r.targetTable = .ok t → t.Has key)
    (hT : l.catalog.table r.target = .ok r.targetTable)
    (h : (l.targets r args key keys).runIn w = (.ok found, w')) :
    (keys = [] ∧ found = []) ∨
      ∃ (t : Table) (A : args.Added l.catalog l.maxDepth r.target r.targetTable),
        w.store.table r.targetTable = .ok t ∧ found = Entity.ofRecords r.target
          (A.answer w.store t (keyTest t (Column.of r.targetTable key) keys)) := by
  unfold targets at h
  split_ifs at h with hkeys
  · rw [Action.runIn_pure] at h
    cases h
    exact .inl ⟨List.isEmpty_iff.1 hkeys, rfl⟩
  · right
    obtain ⟨q, hq, h⟩ := Action.runIn_ofExcept_bind_eq_ok.1 h
    obtain ⟨records, hselect, h⟩ := Action.runIn_query_bind_eq_ok.1 h
    obtain ⟨rfl, -⟩ := Action.runIn_pure_eq_ok.1 h
    obtain ⟨A⟩ := ListArgs.added_of_refine hT hq
    have hrefine := A.refine_eq [] [.oneOf (Column.of r.targetTable key) keys] (by simp)
    obtain rfl : _ = q := Except.ok.inj (hrefine.symm.trans hq)
    obtain ⟨f, hf, -⟩ := Store.select_ranked hselect
    obtain ⟨t, ht, -⟩ := Store.frame_tails hf
    refine ⟨t, A, ht, ?_⟩
    have hanswer := A.select_column (keyTest t (Column.of r.targetTable key) keys) ht hselect
      fun row hrow b => by
        rw [Store.holds_test_oneOf, ListArgs.Added.schema,
          Store.datum_append hs ht (hhas t ht) hrow]
        rfl
    rw [hanswer]
    rfl

/-- The targets of a batch are the answer for all keys. -/
theorem targets_eq {key : String} {keys : List Datum} {t : Table}
    (A : args.Added l.catalog l.maxDepth r.target r.targetTable) (hs : w.store.Full)
    (ht : w.store.table r.targetTable = .ok t) (hhas : t.Has key)
    (hT : l.catalog.table r.target = .ok r.targetTable)
    (h : (l.targets r args key keys).runIn w = (.ok found, w')) :
    found = Entity.ofRecords r.target
      (A.answer w.store t (keyTest t (Column.of r.targetTable key) keys)) := by
  have hhas' : ∀ u, w.store.table r.targetTable = .ok u → u.Has key := fun u hu =>
    Except.ok.inj (ht.symm.trans hu) ▸ hhas
  rcases targets_eq_ok hs hhas' hT h with ⟨rfl, rfl⟩ | ⟨u, B, hu, rfl⟩
  · have hnone : t.rows.filter (keyTest t (Column.of r.targetTable key) []) = [] :=
      List.filter_eq_nil_iff.2 fun row _ => by simp [keyTest]
    rw [ListArgs.Added.answer, hnone]
    rfl
  · obtain rfl : t = u := Except.ok.inj (ht.symm.trans hu)
    rw [Subsingleton.elim A B]

section Alone

variable {owner : Entity}

/-- An owner's own query, restricted and run. -/
theorem ownTargets_eq_ok (hT : l.catalog.table r.target = .ok r.targetTable)
    (hsome : r.query owner ≠ none)
    (h : (l.ownTargets r args owner).runIn w = (.ok found, w')) :
    ∃ (A : args.Added l.catalog l.maxDepth r.target r.targetTable) (records : List Record),
      found = Entity.ofRecords r.target records ∧ ((∀ j ∈ A.joins, j ∉ r.linkJoins) →
        w.store.select (Query.toSelect ⟨r.targetTable, r.linkJoins ++ A.joins,
          .compare r.linkColumn .eq (owner.get r.ownerKey) :: A.clauses, A.order,
          ListArgs.positive args.limit, ListArgs.positive args.offset⟩) = .ok records) := by
  unfold ownTargets at h
  cases hq : r.query owner with
  | none => exact absurd hq hsome
  | some q =>
    simp only [hq] at h
    obtain ⟨restricted, hrestricted, h⟩ := Action.runIn_ofExcept_bind_eq_ok.1 h
    obtain ⟨records, hselect, h⟩ := Action.runIn_query_bind_eq_ok.1 h
    obtain ⟨rfl, -⟩ := Action.runIn_pure_eq_ok.1 h
    obtain ⟨A⟩ := ListArgs.added_of_refine hT hrestricted
    refine ⟨A, records, rfl, fun hjoins => ?_⟩
    have hrefine := A.refine_eq r.linkJoins
      [.compare r.linkColumn .eq (owner.get r.ownerKey)] hjoins
    rw [Relation.query_eq_some hq] at hrestricted
    obtain rfl := Except.ok.inj (hrefine.symm.trans hrestricted)
    exact hselect

/-- Without a table of pairs an owner's own targets are the answer for its key. -/
theorem ownTargets_column {key : String} (hs : w.store.Full)
    (hhas : ∀ t, w.store.table r.targetTable = .ok t → t.Has key)
    (hT : l.catalog.table r.target = .ok r.targetTable)
    (hlink : r.linkColumn = Column.of r.targetTable key) (hjoins : r.linkJoins = [])
    (hsome : r.query owner ≠ none)
    (h : (l.ownTargets r args owner).runIn w = (.ok found, w')) :
    ∃ (t : Table) (A : args.Added l.catalog l.maxDepth r.target r.targetTable),
      w.store.table r.targetTable = .ok t ∧ found = Entity.ofRecords r.target
        (args.paginate (A.answer w.store t
          fun row => (row.datum t.columns r.linkColumn).equals (owner.get r.ownerKey))) := by
  obtain ⟨A, records, rfl, hselect⟩ := ownTargets_eq_ok hT hsome h
  have hselect := hselect (by simp [hjoins])
  rw [hjoins, List.nil_append] at hselect
  obtain ⟨f, hf, -⟩ := Store.select_ranked hselect
  obtain ⟨t, ht, -⟩ := Store.frame_tails hf
  refine ⟨t, A, ht, ?_⟩
  rw [A.select_column
    (fun row => (row.datum t.columns r.linkColumn).equals (owner.get r.ownerKey)) ht hselect
    fun row hrow b => by
      rw [Store.holds_test_eq, hlink, ListArgs.Added.schema,
        Store.datum_append hs ht (hhas t ht) hrow]]
  rfl

/-- With a table of pairs they are the answer for the rows that are paired with the owner. -/
theorem ownTargets_pivot {pivot ownerKey relatedKey : String} {p : Table} (hs : w.store.Full)
    (hp : w.store.table pivot = .ok p) (hhas : p.Has ownerKey)
    (hT : l.catalog.table r.target = .ok r.targetTable)
    (hlink : r.link = .belongsToMany pivot ownerKey relatedKey)
    (hne : pivot ≠ r.targetTable) (horders : w.store.Orders l r args)
    (hone : ∀ t, w.store.table r.targetTable = .ok t → ∀ row ∈ t.rows,
      (p.rows.filter (ListArgs.Added.pairsWith t p (r.pivotJoin pivot relatedKey) r.linkColumn
        (owner.get idName) row)).length ≤ 1)
    (h : (l.ownTargets r args owner).runIn w = (.ok found, w')) :
    ∃ (t : Table) (A : args.Added l.catalog l.maxDepth r.target r.targetTable),
      w.store.table r.targetTable = .ok t ∧ found = Entity.ofRecords r.target
        (args.paginate (A.answer w.store t fun row => p.rows.any (ListArgs.Added.pairsWith t p
          (r.pivotJoin pivot relatedKey) r.linkColumn (owner.get idName) row))) := by
  have hjoins : r.linkJoins = [r.pivotJoin pivot relatedKey] := by rw [Relation.linkJoins, hlink]
  have hcolumn : r.linkColumn = Column.of pivot ownerKey := by rw [Relation.linkColumn, hlink]
  have hkey : r.ownerKey = idName := by rw [Relation.ownerKey, hlink]
  have hsome : r.query owner ≠ none := by rw [Relation.query, hlink]; simp
  obtain ⟨A, records, rfl, hselect⟩ := ownTargets_eq_ok hT hsome h
  obtain ⟨hapart, -, hlinks⟩ := A.apart horders
  have hpivot : ∀ j ∈ A.joins, j.table ≠ pivot := fun j hj =>
    hlinks j hj (r.pivotJoin pivot relatedKey) (by simp [hjoins])
  have hselect := hselect fun j hj hmem => by
    rw [hjoins, List.mem_singleton] at hmem
    exact hpivot j hj (hmem ▸ rfl)
  rw [hjoins, List.singleton_append, hkey] at hselect
  obtain ⟨f, hf, -⟩ := Store.select_ranked hselect
  obtain ⟨t, ht, -⟩ := Store.frame_tails hf
  refine ⟨t, A, ht, ?_⟩
  have hrefers := Table.exists_refersTo hhas.hasColumn
  rw [(Store.mem_of_table hp).2, ← hcolumn] at hrefers
  rw [A.select_pivot hs ht hp hne.symm (fun k hk => ⟨hapart k hk, hpivot k hk⟩) hrefers
    (by rw [hcolumn]; rfl) (hone t ht) hselect]
  rfl

end Alone

end Loader

end EntityGraph
