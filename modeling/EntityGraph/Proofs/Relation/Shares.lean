import EntityGraph.Proofs.Relation.Batch
import EntityGraph.Proofs.Run.Effects

/-!
# Shares of a batch

For each kind of link the share of an owner in a batch is what the owner's own query answers:
`Loader.held_eq_own` for targets that hold the owner's key, `Loader.shareByKey_eq_own` for owners
that hold the target's key and `Loader.paired_eq_own` for a table of pairs. `Loader.shares_eq_alone`
puts them together.
-/

namespace EntityGraph

theorem Entity.Stored.of_table {s : Store} {c : Catalog} {e : Entity} {T : String}
    (h : e.Stored s c) (hT : c.table e.model = .ok T) :
    ∃ t row, s.table T = .ok t ∧ row ∈ t.rows ∧ e.attributes = t.record row := by
  obtain ⟨U, t, row, hU, ht, hrow, he⟩ := h
  obtain rfl : T = U := Except.ok.inj (hT.symm.trans hU)
  exact ⟨t, row, ht, hrow, he⟩

/-- A stored entity has an id. -/
theorem Entity.Stored.exists_id {s : Store} {c : Catalog} {e : Entity} {T : String}
    (h : e.Stored s c) (hT : c.table e.model = .ok T) (hids : s.Ids T) :
    ∃ i, e.id? = some i ∧ e.get idName = .int i := by
  obtain ⟨t, row, ht, hrow, he⟩ := h.of_table hT
  obtain ⟨i, hi⟩ := hids.exists_id ht hrow
  exact ⟨i, by rw [id?, he, hi]; rfl, by rw [get, he, hi]; rfl⟩

/-- A stored entity holds an integer or null as a foreign key. -/
theorem Entity.Stored.exists_key {s : Store} {c : Catalog} {e : Entity} {T key : String}
    (h : e.Stored s c) (hT : c.table e.model = .ok T) (hkeys : s.ForeignKeys T key) :
    ∃ i, e.get key = Datum.ofInt? i := by
  obtain ⟨t, row, ht, hrow, he⟩ := h.of_table hT
  obtain ⟨i, hi⟩ := (hkeys t ht).2 row hrow
  exact ⟨i, by rw [get, he, hi]; rfl⟩

namespace Loader

variable {l : Loader} {r : Relation} {args : ListArgs} {owner : Entity} {t : Table} {w : World}
  {A : args.Added l.catalog l.maxDepth r.target r.targetTable}

/-- The targets of a batch that meet a narrower test. -/
theorem filter_targets (hs : w.store.Full) (ht : w.store.table r.targetTable = .ok t)
    (horders : w.store.Orders l r args) {wide narrow : Row → Bool} {keep : Entity → Bool}
    (hsub : ∀ row ∈ t.rows, narrow row = true → wide row = true)
    (hkeep : ∀ row ∈ t.rows, keep (Entity.of r.target (t.record row)) = narrow row) :
    (Entity.ofRecords r.target (A.answer w.store t wide)).filter keep
      = Entity.ofRecords r.target (A.answer w.store t narrow) := by
  obtain ⟨hapart, hkind, -⟩ := A.apart horders
  have hfilter : A.answer w.store t narrow
      = (A.answer w.store t wide).filter fun record => keep (Entity.of r.target record) :=
    A.filter_answer hs ht hapart hkind hsub hkeep
  rw [hfilter, Entity.ofRecords, List.filter_map]
  rfl

theorem paginate_ofRecords (args : ListArgs) (model : ModelId) (records : List Record) :
    args.paginate (Entity.ofRecords model records)
      = Entity.ofRecords model (args.paginate records) :=
  (Select.map_window (Entity.of model) (ListArgs.positive args.offset)
    (ListArgs.positive args.limit) records).symm

section Links

variable {w₁ w₂ w₃ : World} {found own : List Entity} {i : Int64}

/-- A test for the key of one owner is narrower than that for the keys of all. -/
theorem keyTest_of_equals {column : Column} {keys : List Datum} {d : Datum} (hd : d ∈ keys)
    {row : Row} (h : (row.datum t.columns column).equals d = true) :
    keyTest t column keys row = true :=
  List.any_eq_true.2 ⟨d, hd, h⟩

/-- The targets that hold the key of an owner are those of its own query. -/
theorem held_eq_own {key : String} {keys : List Datum} (hs : w.store.Full)
    (hT : l.catalog.table r.target = .ok r.targetTable)
    (hkeys : w.store.ForeignKeys r.targetTable key) (horders : w.store.Orders l r args)
    (hlink : r.link = .hasOne key ∨ r.link = .hasMany key) (hid : owner.id? = some i)
    (hget : owner.get idName = .int i) (hmem : .int i ∈ keys)
    (hbatch : (l.targets r args key keys).runIn w = (.ok found, w₁)) (hw : w₂.store = w.store)
    (hown : (l.ownTargets r args owner).runIn w₂ = (.ok own, w₃)) :
    args.paginate (held key found owner) = own := by
  have hparts : r.linkColumn = Column.of r.targetTable key ∧ r.linkJoins = [] ∧
      r.ownerKey = idName ∧ r.query owner ≠ none := by
    rcases hlink with hlink | hlink <;>
      simp [Relation.linkColumn, Relation.linkJoins, Relation.ownerKey, Relation.query, hlink]
  obtain ⟨hcolumn, hjoins, hownerKey, hsome⟩ := hparts
  obtain ⟨t, A, ht, rfl⟩ := ownTargets_column (hw ▸ hs) (hw ▸ fun t ht => (hkeys t ht).1) hT hcolumn
    hjoins hsome hown
  rw [hw] at ht
  obtain ⟨hhas, hrows⟩ := hkeys t ht
  rw [hw, hownerKey, hget, hcolumn, ← paginate_ofRecords, targets_eq A hs ht hhas hT hbatch, held,
    hid]
  refine congrArg args.paginate (filter_targets hs ht horders (fun row _ => keyTest_of_equals hmem)
    fun row hrow => ?_)
  obtain ⟨x, hx⟩ := hrows row hrow
  have hrecord : (Entity.of r.target (t.record row)).get key = Datum.ofInt? x := Entity.get_of hx
  rw [hrecord, Datum.int?_ofInt?, Store.datum_of_record hs ht hhas hrow hx, Datum.ofInt?_equals]

theorem getLast?_eq_head? {α : Type} {l : List α} (h : ∀ a ∈ l, ∀ b ∈ l, a = b) :
    l.getLast? = l.head? := by
  cases l with
  | nil => rfl
  | cons a l =>
    rw [List.getLast?_eq_some_getLast (List.cons_ne_nil a l), List.head?_cons]
    exact congrArg some (h _ (List.getLast_mem _) a List.mem_cons_self)

/-- A target of an answer for an id comes from a row with this id. -/
theorem row_of_mem_answer {k : Int64} {e : Entity} (hs : w.store.Full)
    (ht : w.store.table r.targetTable = .ok t) (hids : w.store.Ids r.targetTable)
    (horders : w.store.Orders l r args)
    (he : e ∈ Entity.ofRecords r.target (A.answer w.store t fun row =>
      (row.datum t.columns (Column.of r.targetTable idName)).equals (.int k))) :
    ∃ row ∈ t.rows, (t.record row).get? idName = some (.int k) ∧
      Entity.of r.target (t.record row) = e := by
  obtain ⟨record, hrecord, rfl⟩ := List.mem_map.1 he
  obtain ⟨row, hrow, htest, rfl⟩ :=
    ListArgs.Added.mem_answer hs ht (A.apart horders).1 hrecord
  obtain ⟨i, hi, hdatum⟩ := hids.exists_datum hs ht hrow
  rw [hdatum, Datum.equals_int] at htest
  obtain rfl := of_decide_eq_true htest
  exact ⟨row, hrow, hi, rfl⟩

/-- The target whose key an owner holds is that of its own query. -/
theorem shareByKey_eq_own {key : String} {keys : List Datum} {x : Option Int64}
    (hs : w.store.Full) (hT : l.catalog.table r.target = .ok r.targetTable)
    (hids : w.store.Ids r.targetTable) (horders : w.store.Orders l r ListArgs.none)
    (hlink : r.link = .belongsTo key) (hget : owner.get key = Datum.ofInt? x)
    (hmem : ∀ k, x = some k → .int k ∈ keys)
    (hbatch : (l.targets r ListArgs.none idName keys).runIn w = (.ok found, w₁))
    (hw : w₂.store = w.store)
    (hown : (l.ownTargets r ListArgs.none owner).runIn w₂ = (.ok own, w₃)) :
    shareByKey key found owner = .one own.head? := by
  cases x with
  | none =>
    have hquery : r.query owner = none := by
      simp [Relation.query, hlink, hget, Datum.ofInt?, Datum.isNull]
    rw [ownTargets, hquery] at hown
    obtain ⟨rfl, -⟩ := Action.runIn_pure_eq_ok.1 hown
    rw [shareByKey, hget]
    rfl
  | some k =>
    have hparts : r.linkColumn = Column.of r.targetTable idName ∧ r.linkJoins = [] ∧
        r.ownerKey = key ∧ r.query owner ≠ none := by
      simp [Relation.linkColumn, Relation.linkJoins, Relation.ownerKey, Relation.query, hlink,
        idColumn, hget, Datum.ofInt?, Datum.isNull]
    obtain ⟨hcolumn, hjoins, hownerKey, hsome⟩ := hparts
    obtain ⟨t, A, ht, rfl⟩ := ownTargets_column (hw ▸ hs) (hw ▸ fun t ht => (hids t ht).1) hT
      hcolumn hjoins hsome hown
    rw [hw] at ht
    have hfound : (Entity.ofRecords r.target (A.answer w.store t
          (keyTest t (Column.of r.targetTable idName) keys))).filter (fun t => t.id? == some k)
        = Entity.ofRecords r.target (A.answer w.store t fun row =>
          (row.datum t.columns (Column.of r.targetTable idName)).equals (.int k)) :=
      filter_targets hs ht horders (fun row _ => keyTest_of_equals (hmem k rfl)) fun row hrow => by
        obtain ⟨i, hi, hdatum⟩ := hids.exists_datum hs ht hrow
        rw [Entity.id?_of hi, hdatum]
        exact (Datum.ofInt?_equals (some i) k).symm
    rw [← targets_eq A hs ht (hids t ht).1 hT hbatch] at hfound
    have hshare : shareByKey key found owner
        = .one (found.filter fun t => t.id? == some k).getLast? := by
      rw [shareByKey, hget]
      rfl
    rw [hshare, hw, hcolumn, hownerKey, hget, hfound]
    refine congrArg Loaded.one (getLast?_eq_head? fun e he e' he' => ?_)
    -- rows with the same id are the same row
    obtain ⟨row, hrow, hi, rfl⟩ := row_of_mem_answer hs ht hids horders he
    obtain ⟨row', hrow', hi', rfl⟩ := row_of_mem_answer hs ht hids horders he'
    rw [hids.row_eq ht hrow hrow' (hi.trans hi'.symm)]

end Links

section Pivot

variable {w₁ w₂ w₃ w₄ : World} {found own : List Entity} {i : Int64}
  {pivot ownerKey relatedKey : String} {p : Table} {pairs : List (Int64 × Int64)}

theorem holds_admits {j : Join} (hop : j.op = .eq) (schema : List Column) (row : Row) :
    holds (j.admits schema row) = (row.datum schema j.lhs).equals (row.datum schema j.rhs) := by
  rw [Join.admits, Row.datum, Row.datum, hop]
  cases row.get schema j.lhs with
  | error e => rfl
  | ok d =>
    cases row.get schema j.rhs with
    | error e => simp [holds, bind, Except.bind, Datum.equals, Datum.isNull]
    | ok e =>
      change holds (d.satisfies .eq e) = _
      rw [Datum.satisfies_eq, holds_ok]

/-- The links of some owners are the pairs of the rows that hold one of their keys. -/
theorem links_eq_ok {keys : List Datum} (hkeys : keys ≠ [])
    (h : (links pivot ownerKey relatedKey keys).runIn w = (.ok pairs, w₁)) :
    ∃ p, w.store.table pivot = .ok p ∧ ∀ x y, (x, y) ∈ pairs ↔ ∃ row ∈ p.rows,
      keyTest p (Column.of pivot ownerKey) keys row = true ∧
        pair ownerKey relatedKey (p.record row) = some (x, y) := by
  unfold links at h
  rw [if_neg (by simpa using hkeys)] at h
  obtain ⟨records, hselect, h⟩ := Action.runIn_query_bind_eq_ok.1 h
  obtain ⟨rfl, -⟩ := Action.runIn_pure_eq_ok.1 h
  obtain ⟨f, hf, hrecords⟩ := Store.select_ranked hselect
  obtain ⟨p, hp, rfl⟩ := Store.frame_nil_eq_ok.1 hf
  refine ⟨p, hp, fun x y => ?_⟩
  have hname := (Store.mem_of_table hp).2
  have htest : ∀ row, holds (w.store.testAll p.columns row [.oneOf (Column.of pivot ownerKey) keys])
      = keyTest p (Column.of pivot ownerKey) keys row := fun row => by
    rw [Store.testAll_singleton, Store.holds_test_oneOf]
    rfl
  -- the query has neither an order nor a window, so it answers all rows that hold a key
  have hmem : ∀ record, record ∈ records ↔ ∃ row ∈ p.rows,
      keyTest p (Column.of pivot ownerKey) keys row = true ∧ p.record row = record := by
    intro record
    have hwindow : records = (Select.stableSort (Select.precedes [])
      (w.store.kept ((Query.all pivot).filter (.oneOf (Column.of pivot ownerKey) keys))
        (Frame.ofTable p))).map (·.2) := hrecords
    simp only [hwindow, List.mem_map, Select.mem_stableSort, Store.kept, List.mem_filter]
    constructor
    · rintro ⟨_, ⟨row, ⟨hrow, hholds⟩, rfl⟩, rfl⟩
      refine ⟨row, hrow, (htest row).symm.trans hholds, ?_⟩
      rw [← Select.part_columns, hname]
      rfl
    · rintro ⟨row, hrow, hkey, rfl⟩
      refine ⟨_, ⟨row, ⟨hrow, (htest row).trans hkey⟩, rfl⟩, ?_⟩
      rw [← Select.part_columns, hname]
      rfl
  simp only [List.mem_filterMap, hmem]
  constructor
  · rintro ⟨record, ⟨row, hrow, hkey, rfl⟩, hpair⟩
    exact ⟨row, hrow, hkey, hpair⟩
  · rintro ⟨row, hrow, hkey, hpair⟩
    exact ⟨_, ⟨row, hrow, hkey, rfl⟩, hpair⟩

/-- A row of a table of pairs belongs to a row of the targets and an owner if it pairs their ids. -/
theorem pairsWith_iff {t p : Table} (hs : w.store.Full)
    (ht : w.store.table r.targetTable = .ok t) (hp : w.store.table pivot = .ok p)
    (hhas : t.Has idName) (hpairs : w.store.Pairs pivot ownerKey relatedKey)
    (hne : pivot ≠ r.targetTable) {row b : Row} (hrow : row ∈ t.rows) (hb : b ∈ p.rows) {y : Int64}
    (hy : (t.record row).get? idName = some (.int y)) :
    ListArgs.Added.pairsWith t p (r.pivotJoin pivot relatedKey) (Column.of pivot ownerKey) (.int i)
        row b = (pair ownerKey relatedKey (p.record b) == some (i, y)) := by
  obtain ⟨x', y', hx', hy', hpair⟩ := hpairs.exists_pair hp hb
  obtain ⟨hhasOwner, hhasRelated, -⟩ := hpairs p hp
  have hrelated : Row.datum (t.columns ++ p.columns) (row ++ b) (Column.of pivot relatedKey)
      = .int y' := by
    rw [Row.datum, Store.get_behind ht (hs.table ht row hrow) rfl hne]
    exact Store.datum_of_record hs hp hhasRelated hb hy'
  have htarget : Row.datum (t.columns ++ p.columns) (row ++ b) (idColumn r.targetTable)
      = .int y := by
    rw [idColumn, Store.datum_append hs ht hhas hrow, Store.datum_of_record hs ht hhas hrow hy]
  have hjoin : holds ((r.pivotJoin pivot relatedKey).admits (t.columns ++ p.columns) (row ++ b))
      = decide (y' = y) := by
    rw [holds_admits rfl, Relation.pivotJoin, hrelated, htarget, Datum.equals_int]
  rw [ListArgs.Added.pairsWith, hjoin, Store.datum_of_record hs hp hhasOwner hb hx',
    Datum.equals_int, hpair, Bool.eq_iff_iff]
  simp [and_comm]

/-- The links of some owners hold all pairs of each of them. -/
theorem mem_links_iff {keys : List Datum} (hs : w.store.Full)
    (hpairs : w.store.Pairs pivot ownerKey relatedKey) (hmem : .int i ∈ keys)
    (h : (links pivot ownerKey relatedKey keys).runIn w = (.ok pairs, w₁)) :
    ∃ p, w.store.table pivot = .ok p ∧ ∀ y, (i, y) ∈ pairs ↔
      ∃ b ∈ p.rows, pair ownerKey relatedKey (p.record b) = some (i, y) := by
  obtain ⟨p, hp, hlinks⟩ := links_eq_ok (List.ne_nil_of_mem hmem) h
  refine ⟨p, hp, fun y => ?_⟩
  rw [hlinks]
  refine exists_congr fun b => and_congr_right fun hb => ?_
  refine ⟨And.right, fun hpair => ⟨keyTest_of_equals hmem ?_, hpair⟩⟩
  obtain ⟨x', y', hx', -, hpair'⟩ := hpairs.exists_pair hp hb
  obtain ⟨rfl, rfl⟩ := Prod.mk.inj (Option.some.inj (hpair'.symm.trans hpair))
  rw [Store.datum_of_record hs hp (hpairs p hp).1 hb hx', Datum.equals_int, decide_eq_true rfl]

/-- A target counts for an owner if their ids are a pair. -/
theorem any_pairs_iff {target : Entity} {y : Int64} (howner : owner.id? = some i)
    (htarget : target.id? = some y) :
    (pairs.any fun (o, r) => some o == owner.id? && some r == target.id?) = true ↔
      (i, y) ∈ pairs := by
  rw [howner, htarget, List.any_eq_true]
  constructor
  · rintro ⟨⟨x', y'⟩, hpair, htest⟩
    simp only [Bool.and_eq_true, beq_iff_eq, Option.some.injEq] at htest
    obtain ⟨rfl, rfl⟩ := htest
    exact hpair
  · exact fun hpair => ⟨(i, y), hpair, by simp⟩

/-- The targets that are paired with an owner are those of its own query. -/
theorem paired_eq_own {keys : List Datum} (hs : w.store.Full)
    (hT : l.catalog.table r.target = .ok r.targetTable) (hids : w.store.Ids r.targetTable)
    (hpairs : w.store.Pairs pivot ownerKey relatedKey) (hne : pivot ≠ r.targetTable)
    (horders : w.store.Orders l r args)
    (hlink : r.link = .belongsToMany pivot ownerKey relatedKey) (hid : owner.id? = some i)
    (hget : owner.get idName = .int i) (hmem : .int i ∈ keys)
    (hlinks : (links pivot ownerKey relatedKey keys).runIn w = (.ok pairs, w₁))
    (hw₁ : w₁.store = w.store)
    (hbatch : (l.targets r args idName (Datum.distinctKeys (pairs.map fun p => .int p.2))).runIn w₁
      = (.ok found, w₂)) (hw : w₃.store = w.store)
    (hown : (l.ownTargets r args owner).runIn w₃ = (.ok own, w₄)) :
    args.paginate (paired pairs found owner) = own := by
  obtain ⟨p, hp, howned⟩ := mem_links_iff hs hpairs hmem hlinks
  have hcolumn : r.linkColumn = Column.of pivot ownerKey := by rw [Relation.linkColumn, hlink]
  -- the own query joins a row with the pairs that hold both ids, the owner's and its own
  have hrow : ∀ t, w.store.table r.targetTable = .ok t → ∀ row ∈ t.rows, ∃ y,
      (t.record row).get? idName = some (.int y) ∧ ∀ b ∈ p.rows, ListArgs.Added.pairsWith t p
        (r.pivotJoin pivot relatedKey) (Column.of pivot ownerKey) (.int i) row b
          = (pair ownerKey relatedKey (p.record b) == some (i, y)) := by
    intro t ht row hrow
    obtain ⟨y, hy⟩ := hids.exists_id ht hrow
    exact ⟨y, hy, fun b hb => pairsWith_iff hs ht hp (hids t ht).1 hpairs hne hrow hb hy⟩
  obtain ⟨t, A, ht, rfl⟩ := ownTargets_pivot (p := p) (hw ▸ hs) (hw ▸ hp) (hpairs p hp).1 hT hlink
    hne (hw ▸ horders) (fun t ht row hmem => by
      obtain ⟨y, hy, hwith⟩ := hrow t (hw ▸ ht) row hmem
      rw [hcolumn, hget, List.filter_congr hwith]
      exact hpairs.length_filter_le_one hp (i, y)) hown
  rw [hw] at ht
  rw [hw, hget, hcolumn, ← paginate_ofRecords,
    targets_eq A (hw₁ ▸ hs) (hw₁ ▸ ht) (hids t ht).1 hT hbatch, hw₁, paired]
  have hany : ∀ row ∈ t.rows, ∃ y, (t.record row).get? idName = some (.int y) ∧
      (p.rows.any (ListArgs.Added.pairsWith t p (r.pivotJoin pivot relatedKey)
        (Column.of pivot ownerKey) (.int i) row) = true ↔ (i, y) ∈ pairs) := by
    intro row hmem
    obtain ⟨y, hy, hwith⟩ := hrow t ht row hmem
    refine ⟨y, hy, ?_⟩
    rw [howned, List.any_eq_true]
    exact exists_congr fun b => and_congr_right fun hb => by rw [hwith b hb, beq_iff_eq]
  -- the batch has found every row that is paired with the owner, and the share keeps just these
  refine congrArg args.paginate (filter_targets hs ht horders (fun row hmem hpaired => ?_)
    fun row hmem => ?_)
  · obtain ⟨y, hy, hiff⟩ := hany row hmem
    refine keyTest_of_equals (d := .int y) (Datum.int_mem_distinctKeys ?_) ?_
    · exact List.mem_map.2 ⟨(i, y), hiff.1 hpaired, rfl⟩
    · rw [Store.datum_of_record hs ht (hids t ht).1 hmem hy, Datum.equals_int, decide_eq_true rfl]
  · obtain ⟨y, hy, hiff⟩ := hany row hmem
    rw [Bool.eq_iff_iff, hiff]
    exact any_pairs_iff hid (Entity.id?_of hy)

end Pivot

section Owners

variable {w₁ w₂ : World} {owners : List Entity} {share : Entity → Loaded} {model : ModelId}
  {property : String}

theorem mem_distinctKeys_of_owner {column : String} {i : Int64} (howner : owner ∈ owners)
    (hget : owner.get column = .int i) :
    .int i ∈ Datum.distinctKeys (owners.map (·.get column)) :=
  Datum.int_mem_distinctKeys (List.mem_map.2 ⟨owner, howner, hget⟩)

/-- What a successful batch has selected, for each kind of link. -/
theorem shares_eq_ok (h : (l.shares r args owners).runIn w = (.ok share, w')) :
    match r.link with
    | .belongsTo key => ∃ found,
      (l.targets r args idName (Datum.distinctKeys (owners.map (·.get key)))).runIn w
        = (.ok found, w') ∧ share = shareByKey key found
    | .hasOne key => ∃ found,
      (l.targets r args key (Datum.distinctKeys (owners.map (·.get idName)))).runIn w
        = (.ok found, w') ∧ share = fun owner => .one (held key found owner).head?
    | .hasMany key => ∃ found,
      (l.targets r args key (Datum.distinctKeys (owners.map (·.get idName)))).runIn w
        = (.ok found, w') ∧ share = fun owner => .many (args.paginate (held key found owner))
    | .belongsToMany pivot ownerKey relatedKey => ∃ pairs w₁ found,
      (links pivot ownerKey relatedKey (Datum.distinctKeys (owners.map (·.get idName)))).runIn w
        = (.ok pairs, w₁) ∧ w₁.store = w.store ∧
      (l.targets r args idName (Datum.distinctKeys (pairs.map fun p => .int p.2))).runIn w₁
        = (.ok found, w') ∧
      share = fun owner => .many (args.paginate (paired pairs found owner)) := by
  unfold shares at h
  cases hlink : r.link with
  | belongsTo key =>
    simp only [hlink] at h
    obtain ⟨found, w₁, hbatch, h⟩ := Action.runIn_bind_eq_ok.1 h
    obtain ⟨rfl, rfl⟩ := Action.runIn_pure_eq_ok.1 h
    exact ⟨found, hbatch, rfl⟩
  | hasOne key =>
    simp only [hlink] at h
    obtain ⟨found, w₁, hbatch, h⟩ := Action.runIn_bind_eq_ok.1 h
    obtain ⟨rfl, rfl⟩ := Action.runIn_pure_eq_ok.1 h
    exact ⟨found, hbatch, rfl⟩
  | hasMany key =>
    simp only [hlink] at h
    obtain ⟨found, w₁, hbatch, h⟩ := Action.runIn_bind_eq_ok.1 h
    obtain ⟨rfl, rfl⟩ := Action.runIn_pure_eq_ok.1 h
    exact ⟨found, hbatch, rfl⟩
  | belongsToMany pivot ownerKey relatedKey =>
    simp only [hlink] at h
    obtain ⟨pairs, w₁, hlinks, h⟩ := Action.runIn_bind_eq_ok.1 h
    obtain ⟨found, w₂, hbatch, h⟩ := Action.runIn_bind_eq_ok.1 h
    obtain ⟨rfl, rfl⟩ := Action.runIn_pure_eq_ok.1 h
    have hw₁ := Action.keeps_of_runIn (AcrossReads.quiet.links pivot ownerKey relatedKey _) hlinks
    exact ⟨pairs, w₁, found, hlinks, hw₁.1, hbatch, rfl⟩

/-- The share of an owner in a batch is what the owner's own query gives. -/
theorem shares_eq_alone {loaded : Loaded} (hs : w.store.Full)
    (hr : l.catalog.relation model property = .ok r) (hkeyed : w.store.Keyed r)
    (hapart : r.PairsApart) (horders : w.store.Orders l r args)
    (hone : r.link.isToOne = true → args = ListArgs.none)
    (hshares : (l.shares r args owners).runIn w = (.ok share, w')) (howner : owner ∈ owners)
    (hmodel : owner.model = model) (hstored : owner.Stored w.store l.catalog)
    (hw : w₁.store = w.store)
    (halone : (l.alone owner property args).runIn w₁ = (.ok loaded, w₂)) :
    share owner = loaded := by
  obtain ⟨hownerTable, hT, -⟩ := Catalog.relation_eq_ok hr
  obtain ⟨hownerIds, hids, hlinked⟩ := hkeyed
  obtain ⟨i, hid, hget⟩ := hstored.exists_id (hmodel ▸ hownerTable) hownerIds
  have hmem := mem_distinctKeys_of_owner howner hget
  unfold alone at halone
  rw [hmodel] at halone
  obtain ⟨r', hr', halone⟩ := Action.runIn_ofExcept_bind_eq_ok.1 halone
  obtain rfl : r = r' := Except.ok.inj (hr.symm.trans hr')
  obtain ⟨own, w₃, hown, halone⟩ := Action.runIn_bind_eq_ok.1 halone
  obtain ⟨rfl, -⟩ := Action.runIn_pure_eq_ok.1 halone
  -- each kind of link finds in the batch what its own query finds
  have hshares := shares_eq_ok hshares
  cases hlink : r.link with
  | belongsTo key =>
    simp only [hlink] at hshares hlinked
    obtain rfl := hone (by rw [hlink]; rfl)
    obtain ⟨found, hbatch, rfl⟩ := hshares
    obtain ⟨x, hx⟩ := hstored.exists_key (hmodel ▸ hownerTable) hlinked
    refine shareByKey_eq_own hs hT hids horders hlink hx ?_ hbatch hw hown
    exact fun k hk => mem_distinctKeys_of_owner howner (hx.trans (hk ▸ rfl))
  | hasOne key =>
    simp only [hlink] at hshares hlinked
    obtain rfl := hone (by rw [hlink]; rfl)
    obtain ⟨found, hbatch, rfl⟩ := hshares
    have hheld := held_eq_own hs hT hlinked horders (.inl hlink) hid hget hmem hbatch hw hown
    exact congrArg (fun targets : List Entity => Loaded.one targets.head?) hheld
  | hasMany key =>
    simp only [hlink] at hshares hlinked
    obtain ⟨found, hbatch, rfl⟩ := hshares
    have hheld := held_eq_own hs hT hlinked horders (.inr hlink) hid hget hmem hbatch hw hown
    exact congrArg Loaded.many hheld
  | belongsToMany pivot ownerKey relatedKey =>
    simp only [hlink] at hshares hlinked
    obtain ⟨pairs, w₄, found, hlinks, hw₄, hbatch, rfl⟩ := hshares
    have hne : pivot ≠ r.targetTable :=
      hapart (r.pivotJoin pivot relatedKey) (by simp [Relation.linkJoins, hlink])
    have hpaired := paired_eq_own hs hT hids hlinked hne horders hlink hid hget hmem hlinks hw₄
      hbatch hw hown
    exact congrArg Loaded.many hpaired

/-- Every entity of a batch is read from the table of the targets. -/
theorem targets_stored {key : String} {keys : List Datum} {found : List Entity}
    (hs : w.store.Full) (hhas : ∀ t, w.store.table r.targetTable = .ok t → t.Has key)
    (hT : l.catalog.table r.target = .ok r.targetTable) (horders : w.store.Orders l r args)
    (h : (l.targets r args key keys).runIn w = (.ok found, w')) :
    ∀ e ∈ found, ∃ record, e = Entity.of r.target record ∧ e.Stored w.store l.catalog := by
  rcases targets_eq_ok hs hhas hT h with ⟨-, rfl⟩ | ⟨t, A, ht, rfl⟩
  · simp
  · intro e he
    obtain ⟨record, hrecord, rfl⟩ := List.mem_map.1 he
    obtain ⟨row, hrow, -, hrow'⟩ := ListArgs.Added.mem_answer hs ht (A.apart horders).1 hrecord
    exact ⟨record, rfl, _, t, row, hT, ht, hrow, hrow'⟩

theorem mem_of_mem_paginate {α : Type} {x : α} {items : List α} (h : x ∈ args.paginate items) :
    x ∈ items := by
  unfold ListArgs.paginate at h
  split at h
  · exact List.mem_of_mem_drop (List.mem_of_mem_take h)
  · exact List.mem_of_mem_drop h

theorem mem_of_mem_held {key : String} {found : List Entity} {e : Entity}
    (h : e ∈ held key found owner) : e ∈ found := by
  unfold held at h
  split at h
  · exact List.mem_of_mem_filter h
  · simp at h

theorem mem_of_mem_shareByKey {key : String} {found : List Entity} {e : Entity}
    (h : e ∈ (shareByKey key found owner).toList) : e ∈ found := by
  unfold shareByKey at h
  split at h
  · simp only [Loaded.toList, Option.mem_toList] at h
    exact List.mem_of_mem_filter (List.mem_of_getLast? h)
  · simp [Loaded.toList] at h

/-- Every entity of a share is read from the table of the targets. -/
theorem shares_stored (hs : w.store.Full) (hr : l.catalog.relation model property = .ok r)
    (hkeyed : w.store.Keyed r) (horders : w.store.Orders l r args)
    (hshares : (l.shares r args owners).runIn w = (.ok share, w')) (owner : Entity) :
    ∀ e ∈ (share owner).toList,
      ∃ record, e = Entity.of r.target record ∧ e.Stored w.store l.catalog := by
  obtain ⟨-, hT, -⟩ := Catalog.relation_eq_ok hr
  obtain ⟨-, hids, hlinked⟩ := hkeyed
  have hshares := shares_eq_ok hshares
  intro e he
  cases hlink : r.link with
  | belongsTo key =>
    simp only [hlink] at hshares
    obtain ⟨found, hbatch, rfl⟩ := hshares
    exact targets_stored hs (fun t ht => (hids t ht).1) hT horders hbatch e
      (mem_of_mem_shareByKey he)
  | hasOne key =>
    simp only [hlink] at hshares hlinked
    obtain ⟨found, hbatch, rfl⟩ := hshares
    have hheld : e ∈ held key found owner := List.mem_of_head? (Option.mem_toList.1 he)
    exact targets_stored hs (fun t ht => (hlinked t ht).1) hT horders hbatch e
      (mem_of_mem_held hheld)
  | hasMany key =>
    simp only [hlink] at hshares hlinked
    obtain ⟨found, hbatch, rfl⟩ := hshares
    exact targets_stored hs (fun t ht => (hlinked t ht).1) hT horders hbatch e
      (mem_of_mem_held (mem_of_mem_paginate he))
  | belongsToMany pivot ownerKey relatedKey =>
    simp only [hlink] at hshares
    obtain ⟨pairs, w₄, found, -, hw₄, hbatch, rfl⟩ := hshares
    have hstored := targets_stored (hw₄ ▸ hs) (fun t ht => (hids t (hw₄ ▸ ht)).1) hT
      (hw₄ ▸ horders) hbatch e (List.mem_of_mem_filter (mem_of_mem_paginate he))
    rwa [hw₄] at hstored

end Owners

end Loader

end EntityGraph
