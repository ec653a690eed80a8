import Mathlib.Data.List.Dedup
import EntityGraph.Proofs.Relation.Sync

/-!
# Pairs under conventional keys

A many-to-many relation that names no keys takes the conventional ones, which are made of the names
of the two models. Models of one name, and in particular a model that is related to itself, get one
key for both sides.

* `Table.relatedKeys_repaired` says which targets an owner is paired with after a sync, and
  `Store.PairsOnly.select_eq` which rows the query for the targets of an owner answers;
* `Persist.sync_read_back` is the result: what is synced is read back, if the models have different
  names;
* `Persist.sync_friends_reads_owner` shows what becomes of a model that is related to itself.
-/

namespace EntityGraph

namespace Table

variable {p : Table} {ownerKey relatedKey : String} {owner k : Int64} {targets : List Int64}
  {row : Row} {missing : List Int64} {added : List Row}

/-- Under one name an owner can be paired with nothing but itself. -/
theorem writtenKey_of_mem_relatedKeys (hfull : p.Full) (hhas : p.Has relatedKey)
    (h : k ∈ p.relatedKeys ownerKey relatedKey owner) :
    writtenKey ownerKey relatedKey owner k = k := by
  unfold writtenKey
  split_ifs with heq
  · subst heq
    obtain ⟨row, hmem, hk⟩ := List.mem_filterMap.1 h
    obtain ⟨hrow, hat⟩ := List.mem_filter.1 hmem
    rw [record_get? hhas (hfull row hrow), Option.bind_some, Datum.int?_eq_some] at hk
    rw [isAt, hk, Datum.equals_int, decide_eq_true_iff] at hat
    exact hat.symm
  · rfl

/-- After a sync an owner is paired with those of its targets that are listed, and with what was
written for the others. -/
theorem relatedKeys_repaired (targets : List Int64) (next : Int64) (hfull : p.Full)
    (hhas : p.Has relatedKey)
    (hrelated : ∀ row ∈ p.rows, ∃ k, p.datum relatedKey row = .ofInt? k)
    (hcolumns : ∀ c ∈ [ownerKey, relatedKey], p.hasColumn c = true)
    (hadded : List.Forall₂ (p.PairRow ownerKey relatedKey owner) missing added) :
    (p.repaired ownerKey relatedKey owner targets added next).relatedKeys ownerKey relatedKey owner
      = (p.relatedKeys ownerKey relatedKey owner).filter (· ∈ targets)
        ++ missing.map (writtenKey ownerKey relatedKey owner) := by
  have hold : ((p.rows.filter (p.survives ownerKey relatedKey owner targets)).filter
      (p.isAt ownerKey owner)).filterMap (fun row =>
        ((p.record row).get? relatedKey).bind Datum.int?)
      = (p.relatedKeys ownerKey relatedKey owner).filter (· ∈ targets) := by
    rw [relatedKeys, List.filter_filter, List.filterMap_filter, List.filterMap_filter,
      List.filter_filterMap]
    refine List.filterMap_congr fun row hrow => ?_
    obtain ⟨k, hk⟩ := hrelated row hrow
    rw [record_get? hhas (hfull row hrow), Option.bind_some, hk, Datum.int?_ofInt?, survives]
    cases p.isAt ownerKey owner row with
    | false => simp
    | true =>
      cases k with
      | none => simp
      | some k =>
        rw [isOutside_of_int hk]
        by_cases hmem : k ∈ targets <;> simp [hmem, Option.filter]
  have hnew : (added.filter (p.isAt ownerKey owner)).filterMap (fun row =>
      ((p.record row).get? relatedKey).bind Datum.int?)
      = missing.map (writtenKey ownerKey relatedKey owner) := by
    induction hadded with
    | nil => rfl
    | @cons k row missing added hrow _ ih =>
      obtain ⟨howner, hkey⟩ := hrow.datum_eq hcolumns
      have hat : p.isAt ownerKey owner row = true := by
        rw [isAt, howner, Datum.equals_int, decide_eq_true rfl]
      have hget := record_get? hhas hrow.length_eq.symm
      rw [List.filter_cons_of_pos hat, List.filterMap_cons, hget, hkey, ih]
      rfl
  rw [← hold, ← hnew, ← List.filterMap_append, ← List.filter_append]
  rfl

end Table

namespace Store

/-- A database stores the links of a relation by pairs: the table of pairs has the columns of both
keys and no others, what stands there as the key of a target is an integer or null, and the table of
the targets has ids. -/
structure PairsOnly (s : Store) (r : Relation) (pivot ownerKey relatedKey : String) (p t : Table) :
    Prop where
  pairs : s.table pivot = .ok p
  columns : (p.schema.map (·.name)).Perm [ownerKey, relatedKey].dedup
  related : ∀ row ∈ p.rows, ∃ k, p.datum relatedKey row = .ofInt? k
  targets : s.table r.targetTable = .ok t
  id : t.hasColumn idName = true
  pairs_full : p.Full
  targets_full : t.Full

namespace PairsOnly

variable {s : Store} {r : Relation} {pivot ownerKey relatedKey : String} {p t : Table}
  (hs : s.PairsOnly r pivot ownerKey relatedKey p t)

include hs

theorem has {c : String} (hc : c ∈ [ownerKey, relatedKey]) : p.Has c := by
  unfold Table.Has
  rw [hs.columns.count_eq]
  exact List.count_eq_one_of_mem (List.nodup_dedup _) (List.mem_dedup.2 hc)

theorem hasColumn {c : String} (hc : c ∈ [ownerKey, relatedKey]) : p.hasColumn c = true := by
  have hmem := hs.columns.mem_iff.2 (List.mem_dedup.2 hc)
  obtain ⟨spec, hspec, hname⟩ := List.mem_map.1 hmem
  exact List.any_eq_true.2 ⟨spec, hspec, beq_iff_eq.2 hname⟩

theorem name_mem {spec : ColumnSpec} (hspec : spec ∈ p.schema) :
    spec.name ∈ [ownerKey, relatedKey] :=
  List.mem_dedup.1 (hs.columns.mem_iff.1 (List.mem_map_of_mem hspec))

/-- A table that has no ids is not the one of the targets. -/
theorem pivot_ne (hid : idName ∉ [ownerKey, relatedKey]) : pivot ≠ r.targetTable := by
  rintro rfl
  obtain rfl := Except.ok.inj (hs.pairs.symm.trans hs.targets)
  obtain ⟨spec, hspec, hname⟩ := List.any_eq_true.1 hs.id
  exact hid (beq_iff_eq.1 hname ▸ hs.name_mem hspec)

/-- A column of the pairs is not found among those of the targets. -/
theorem get_pair (hne : pivot ≠ r.targetTable) {column : String}
    (hcolumn : column ∈ [ownerKey, relatedKey]) {a b : Row} (ha : a ∈ t.rows) (hb : b ∈ p.rows) :
    Row.get (t.columns ++ p.columns) (a ++ b) (Column.of pivot column)
      = .ok (p.datum column b) := by
  obtain ⟨place, hplace⟩ := Table.exists_place?.2 (hs.hasColumn hcolumn)
  rw [get_behind hs.targets (hs.targets_full a ha) rfl hne, ← (mem_of_table hs.pairs).2,
    Table.get_of (hs.pairs_full b hb), hplace, Option.elim_some]

theorem get_id {a : Row} (ha : a ∈ t.rows) (b : Row) :
    Row.get (t.columns ++ p.columns) (a ++ b) (idColumn r.targetTable)
      = .ok (t.datum idName a) := by
  obtain ⟨place, hplace⟩ := Table.exists_place?.2 hs.id
  have hlen : a.length = t.columns.length := (hs.targets_full a ha).trans t.length_columns.symm
  have hfind := Table.findIdx?_of t idName
  have hrefers : ∃ c ∈ t.columns, (Column.of t.name idName).refersTo c = true := by
    rw [hplace] at hfind
    exact List.any_eq_true.1 (List.findIdx?_isSome.symm.trans (by rw [hfind]; rfl))
  rw [idColumn, ← (mem_of_table hs.targets).2, Row.get_append_left hlen hrefers,
    Table.get_of (hs.targets_full a ha), hplace, Option.elim_some]

/-- The query for the targets of an owner answers a row of the target's table once for every pair
that leads to it. -/
theorem select_eq (hne : pivot ≠ r.targetTable) (owner : Int64) :
    s.select (Query.toSelect ⟨r.targetTable, [r.pivotJoin pivot relatedKey],
        [.compare (Column.of pivot ownerKey) .eq (.int owner)], [], none, none⟩)
      = .ok (t.rows.flatMap fun row =>
        ((p.relatedKeys ownerKey relatedKey owner).filter fun k => t.isAt idName k row).map
          fun _ => t.record row) := by
  have hadmits : ∀ a ∈ t.rows, ∀ b ∈ p.rows,
      (r.pivotJoin pivot relatedKey).admits (t.columns ++ p.columns) (a ++ b)
        = .ok ((p.datum relatedKey b).equals (t.datum idName a)) := by
    intro a ha b hb
    unfold Join.admits
    rw [Relation.pivotJoin, hs.get_pair hne (by simp) ha hb, hs.get_id ha b]
    exact Datum.satisfies_eq _ _
  have htest : ∀ a ∈ t.rows, ∀ b ∈ p.rows, s.testAll (t.columns ++ p.columns) (a ++ b)
      [.compare (Column.of pivot ownerKey) .eq (.int owner)] = .ok (p.isAt ownerKey owner b) := by
    intro a ha b hb
    rw [testAll_singleton, test, hs.get_pair hne (by simp) ha hb]
    exact Datum.satisfies_eq _ _
  have hpart : ∀ a ∈ t.rows, ∀ b,
      Select.part r.targetTable (t.columns ++ p.columns) (a ++ b) = t.record a := by
    intro a ha b
    rw [← (mem_of_table hs.targets).2] at hne ⊢
    exact Select.part_append (hs.targets_full a ha) (columns_ne hs.pairs hne.symm)
  have hframe := frame_singleton_eq_ok.2 ⟨t, p, hs.targets, hs.pairs, join_eq_ok.2
    ⟨fun a ha b hb => ⟨_, hadmits a ha b hb⟩, rfl⟩⟩
  rw [select_unordered hframe fun row hrow => by
    obtain ⟨a, ha, b, hb, rfl⟩ := Frame.mem_pairs.1 (List.mem_of_mem_filter hrow)
    exact ⟨_, htest a ha b hb⟩]
  refine congrArg Except.ok ?_
  rw [List.filter_flatMap, List.filter_flatMap, List.map_flatMap]
  refine List.flatMap_congr fun a ha => ?_
  rw [List.filter_map, List.filter_map, List.map_map, List.filter_filter, ← List.filterMap_eq_map,
    List.filterMap_filter, Table.relatedKeys, List.filter_filterMap, List.filterMap_filter,
    List.map_filterMap]
  refine List.filterMap_congr fun b hb => ?_
  obtain ⟨k, hk⟩ := hs.related b hb
  have hhas : p.Has relatedKey := hs.has (by simp)
  simp only [Function.comp_apply, Frame.ofTable, hadmits a ha b hb, htest a ha b hb, hk,
    hpart a ha b, holds_ok, Table.record_get? hhas (hs.pairs_full b hb), Option.bind_some,
    Datum.int?_ofInt?]
  -- the pair leads to the row if it is one of the owner and holds the row's id
  cases p.isAt ownerKey owner b with
  | false => rfl
  | true =>
    cases k with
    | none => rfl
    | some k =>
      rw [Datum.ofInt?, Datum.equals_comm, ← Table.isAt]
      cases hat : t.isAt idName k a <;> simp [Option.filter, hat]

end PairsOnly

end Store

namespace Persist

variable {w w' : World} {r : Relation} {p t : Table} {pivot ownerKey relatedKey : String}
  {owner : Int64} {targets : List Int64}

/-- A sync of pairs succeeds in a table of pairs, as long as the keys it writes do not use up those
of a serial column. -/
theorem syncPairs_succeeds (hs : w.store.PairsOnly r pivot ownerKey relatedKey p t)
    (owner : Int64) (targets : List Int64)
    (hserial : ∀ spec ∈ p.schema, spec.type = .serial → Int64.maxValue ∉ owner :: targets) :
    ∃ w', (syncPairs pivot ownerKey relatedKey owner targets).runIn w = (.ok (), w') := by
  refine exists_syncPairs hs.pairs (hs.pairs_full)
    (fun _ => Table.exists_place?.2 (hs.hasColumn (by simp)))
    (fun _ => Table.exists_place?.2 (hs.hasColumn (by simp))) fun _ w₁ hcleared => ?_
  obtain ⟨p', result, w₂, happend, hrun, -⟩ := runIn_pairing hcleared ownerKey relatedKey owner
    (newKeys (p.relatedKeys ownerKey relatedKey owner) targets)
  obtain ⟨p'', keys, hok⟩ : ∃ p'' keys,
      (p.cleared ownerKey relatedKey owner targets).appendAll [ownerKey, relatedKey]
        ((newKeys (p.relatedKeys ownerKey relatedKey owner) targets).map
          fun key => [Datum.int owner, .int key]) = (p'', .ok keys) := by
    refine Table.exists_appendAll (by simp) (fun c hc => hs.hasColumn hc)
      fun values hvalues spec hspec htype => ?_
    obtain ⟨k, hk, rfl⟩ := List.mem_map.1 hvalues
    have hmax := hserial spec hspec htype
    have hlast : ∀ {i}, i ∈ owner :: targets → i ≠ Int64.maxValue :=
      fun hi heq => hmax (heq ▸ hi)
    have howner := hlast List.mem_cons_self
    by_cases hname : spec.name = ownerKey
    · exact ⟨owner, by simp [hname], howner⟩
    · have hname' : spec.name = relatedKey := by simpa [hname] using hs.name_mem hspec
      refine ⟨k, ?_, hlast (List.mem_cons_of_mem _ (mem_newKeys.1 hk).1)⟩
      simp [List.lookup_cons, hname', beq_false_of_ne (hname' ▸ hname)]
  rw [happend] at hok
  obtain ⟨-, rfl⟩ := Prod.mk.inj hok
  exact ⟨keys, w₂, hrun⟩

/-- What a sync of pairs leaves for the query of the owner: the targets that were written for the
listed ones, each once if none was there twice before. -/
theorem relatedKeys_of_syncPairs (hs : w.store.PairsOnly r pivot ownerKey relatedKey p t)
    (hne : pivot ≠ r.targetTable)
    (h : (syncPairs pivot ownerKey relatedKey owner targets).runIn w = (.ok (), w')) :
    ∃ p', w'.store.PairsOnly r pivot ownerKey relatedKey p' t ∧
      (∀ k, k ∈ p'.relatedKeys ownerKey relatedKey owner ↔
        k ∈ targets.map (Table.writtenKey ownerKey relatedKey owner)) ∧
      (ownerKey ≠ relatedKey → (p.relatedKeys ownerKey relatedKey owner).Nodup →
        (p'.relatedKeys ownerKey relatedKey owner).Nodup) := by
  obtain ⟨q, added, next, hq, htable, hadded, -, -⟩ := table_of_syncPairs h
  obtain rfl := Except.ok.inj (hs.pairs.symm.trans hq)
  have hhas : p.Has relatedKey := hs.has (by simp)
  have hkeys := Table.relatedKeys_repaired targets next hs.pairs_full hhas hs.related
    (fun c hc => hs.hasColumn hc) hadded
  refine ⟨p.repaired ownerKey relatedKey owner targets added next, ⟨?_, hs.columns, ?_, ?_, hs.id,
    hs.pairs_full.repaired targets next hadded, hs.targets_full⟩, fun k => ?_, fun hne hnodup => ?_⟩
  · rw [htable, Function.update_self]
  · intro row hrow
    rcases List.mem_append.1 hrow with hold | hnew
    · exact hs.related row (List.mem_of_mem_filter hold)
    · obtain ⟨k, -, hk⟩ := exists_of_forall₂_right hadded hnew
      exact ⟨some _, (hk.datum_eq fun c hc => hs.hasColumn hc).2⟩
  · rw [htable, Function.update_of_ne hne.symm, hs.targets]
  · rw [hkeys, List.mem_append, List.mem_filter, List.mem_map, List.mem_map, decide_eq_true_iff]
    constructor
    · rintro (⟨hold, hk⟩ | ⟨k', hnew, rfl⟩)
      · exact ⟨k, hk, Table.writtenKey_of_mem_relatedKeys hs.pairs_full hhas hold⟩
      · exact ⟨k', (mem_newKeys.1 hnew).1, rfl⟩
    · rintro ⟨k', hk', rfl⟩
      by_cases hold : k' ∈ p.relatedKeys ownerKey relatedKey owner
      · rw [Table.writtenKey_of_mem_relatedKeys hs.pairs_full hhas hold]
        exact .inl ⟨hold, hk'⟩
      · exact .inr ⟨k', mem_newKeys.2 ⟨hk', hold⟩, rfl⟩
  · rw [hkeys, Table.writtenKey_of_ne hne, List.map_id]
    refine (hnodup.filter _).append (nodup_newKeys _ _) fun k hold hnew => ?_
    exact (mem_newKeys.1 hnew).2 (List.mem_of_mem_filter hold)

end Persist

namespace Catalog

/-- A property of a model that is declared as many-to-many and names neither the table of pairs nor
the keys, with the definitions of both models. -/
structure PairsByDefault (c : Catalog) (m : ModelId) (property : String) (r : Relation)
    (d d' : ModelDefinition) : Prop where
  relation : c.relation m property = .ok r
  owner : c.definition m = .ok d
  target : c.definition r.target = .ok d'
  declared : (d.relations.find? (·.property == property)).map (·.kind)
    = some (.belongsToMany none none none)

variable {c : Catalog} {m : ModelId} {property : String} {r : Relation} {d d' : ModelDefinition}

theorem PairsByDefault.link_eq (h : c.PairsByDefault m property r d d') :
    r.link = RelationKind.link (.belongsToMany none none none) d.name d'.name property := by
  have hrelation := h.relation
  simp only [Catalog.relation, Catalog.property, findProperty, bind_eq_ok, elim_error_eq_ok]
    at hrelation
  obtain ⟨p, ⟨properties, -, hfind⟩, hr⟩ := hrelation
  have hname := List.find?_some hfind
  obtain rfl := beq_iff_eq.1 hname
  unfold resolveRelation at hr
  cases htarget : p.target with
  | none => simp [htarget] at hr
  | some target =>
    simp only [htarget, bind_eq_ok, h.owner, Except.ok.injEq, exists_eq_left'] at hr
    obtain ⟨related, hrelated, hr⟩ := hr
    split at hr
    · cases hr
    · cases hr
      obtain rfl := Except.ok.inj (h.target.symm.trans hrelated)
      simp only [h.declared, Option.getD_some]

/-- The conventional keys are those of the names of both models. -/
theorem PairsByDefault.keys_eq (h : c.PairsByDefault m property r d d')
    {pivot ownerKey relatedKey : String}
    (hlink : r.link = .belongsToMany pivot ownerKey relatedKey) :
    ownerKey = snakeCase d.name ++ "_id" ∧ relatedKey = snakeCase d'.name ++ "_id" := by
  rw [h.link_eq, RelationKind.link, Link.belongsToMany.injEq] at hlink
  exact ⟨hlink.2.1.symm, hlink.2.2.symm⟩

/-- No conventional key is the column of ids. -/
theorem PairsByDefault.id_notMem (h : c.PairsByDefault m property r d d')
    {pivot ownerKey relatedKey : String}
    (hlink : r.link = .belongsToMany pivot ownerKey relatedKey) :
    idName ∉ [ownerKey, relatedKey] := by
  have hne : ∀ name : String, idName ≠ name ++ "_id" := by
    intro name heq
    have hlength := congrArg String.length heq
    rw [String.length_append] at hlength
    have hlong : "_id".length = 3 := rfl
    have hshort : idName.length = 2 := rfl
    omega
  obtain ⟨rfl, rfl⟩ := h.keys_eq hlink
  simp [hne]

/-- Both sides have one key exactly if the models have one name in snake case. -/
theorem PairsByDefault.keys_eq_iff (h : c.PairsByDefault m property r d d')
    {pivot ownerKey relatedKey : String}
    (hlink : r.link = .belongsToMany pivot ownerKey relatedKey) :
    ownerKey = relatedKey ↔ snakeCase d.name = snakeCase d'.name := by
  obtain ⟨rfl, rfl⟩ := h.keys_eq hlink
  exact String.append_left_inj _

end Catalog

namespace Persist

open Catalog (PairsByDefault)

/-- The ids of the targets that an owner has after a sync under conventional keys: the listed ones,
unless the models have one name, and then the owner itself stands for each of them. -/
def reached (d d' : ModelDefinition) (owner : Int64) (targets : List Int64) : List Int64 :=
  if snakeCase d.name = snakeCase d'.name then targets.map fun _ => owner else targets

variable {c : Catalog} {m : ModelId} {property : String} {r : Relation} {d d' : ModelDefinition}
  {pivot ownerKey relatedKey : String} {w : World} {p t : Table}

theorem map_writtenKey (h : c.PairsByDefault m property r d d')
    (hlink : r.link = .belongsToMany pivot ownerKey relatedKey) (owner : Int64)
    (targets : List Int64) :
    targets.map (Table.writtenKey ownerKey relatedKey owner) = reached d d' owner targets := by
  unfold reached
  rw [← if_congr (h.keys_eq_iff hlink) rfl rfl]
  split_ifs with heq
  · exact List.map_congr_left fun k _ => if_pos heq
  · rw [Table.writtenKey_of_ne heq, List.map_id]

/-- A sync under conventional keys succeeds, and the query of the owner then answers its targets:
rows of the target's table with the listed ids, if the two models have different names; and each of
them once, if the owner was paired with no target twice. -/
theorem sync_read_back (w : World) (h : c.PairsByDefault m property r d d')
    (hlink : r.link = .belongsToMany pivot ownerKey relatedKey)
    (hs : w.store.PairsOnly r pivot ownerKey relatedKey p t) (e : Entity) (owner : Int64)
    (howner : e.get idName = .int owner) (targets : List Int64)
    (hserial : ∀ spec ∈ p.schema, spec.type = .serial → Int64.maxValue ∉ owner :: targets) :
    ∃ w' q records, (sync r owner targets).runIn w = (.ok (), w') ∧ r.query e = some q ∧
      w'.store.select q.toSelect = .ok records ∧
      (∀ record, record ∈ records ↔ ∃ row ∈ t.rows,
        (∃ k ∈ reached d d' owner targets, t.isAt idName k row) ∧ record = t.record row) ∧
      (snakeCase d.name ≠ snakeCase d'.name → (p.relatedKeys ownerKey relatedKey owner).Nodup →
        (∀ row ∈ t.rows, ∃ i, t.datum idName row = .int i) →
        records = (t.rows.filter (t.isIn idName targets)).map t.record) := by
  have hne := hs.pivot_ne (h.id_notMem hlink)
  obtain ⟨w', hrun⟩ := syncPairs_succeeds hs owner targets hserial
  obtain ⟨p', hs', hmem, hnodup⟩ := relatedKeys_of_syncPairs hs hne hrun
  have hsync : (sync r owner targets).runIn w = (.ok (), w') := by
    unfold sync
    rw [hlink]
    exact hrun
  have hquery : r.query e = some ⟨r.targetTable, [r.pivotJoin pivot relatedKey],
      [.compare (Column.of pivot ownerKey) .eq (.int owner)], [], none, none⟩ := by
    unfold Relation.query
    rw [hlink, howner]
    rfl
  refine ⟨w', _, _, hsync, hquery, hs'.select_eq hne owner, fun record => ?_,
    fun hnames hbefore hids => ?_⟩
  · simp only [List.mem_flatMap, List.mem_map, List.mem_filter, hmem, map_writtenKey h hlink]
    constructor
    · rintro ⟨row, hrow, k, ⟨hk, hat⟩, rfl⟩
      exact ⟨row, hrow, ⟨k, hk, hat⟩, rfl⟩
    · rintro ⟨row, hrow, ⟨k, hk, hat⟩, rfl⟩
      exact ⟨row, hrow, k, ⟨hk, hat⟩, rfl⟩
  · have hkeys : ownerKey ≠ relatedKey := fun heq => hnames ((h.keys_eq_iff hlink).1 heq)
    rw [← List.filterMap_eq_map, List.filterMap_filter, List.filterMap_eq_flatMap_toList]
    refine List.flatMap_congr fun row hrow => ?_
    obtain ⟨i, hi⟩ := hids row hrow
    have hat : ∀ k, t.isAt idName k row = (k == i) := by
      intro k
      rw [Table.isAt, hi, Datum.equals_int, Bool.eq_iff_iff, decide_eq_true_iff, beq_iff_eq,
        eq_comm]
    -- a row is answered once for each pair of the owner with its id, and no pair stands twice
    have hcount : (p'.relatedKeys ownerKey relatedKey owner).count i
        = if i ∈ targets then 1 else 0 := by
      rw [(hnodup hkeys hbefore).count]
      exact if_congr (by rw [hmem, Table.writtenKey_of_ne hkeys, List.map_id]) rfl rfl
    rw [List.filter_congr fun k _ => hat k, List.filter_beq, hcount, Table.isIn_of_int hi]
    by_cases hi : i ∈ targets <;> simp [hi]

section Club

/-- Members with the clubs that they are in and with their friends. -/
def memberDefinition : ModelDefinition :=
  ⟨"Member", "", some "members",
    "@property int $id\n@property string $name\n@property Club[] $clubs\n@property Member[] $friends",
    [⟨"clubs", .belongsToMany none none none⟩, ⟨"friends", .belongsToMany none none none⟩], none⟩

/-- Clubs. -/
def clubDefinition : ModelDefinition :=
  ⟨"Club", "", some "clubs", "@property int $id\n@property string $name", [], none⟩

/-- Members and clubs. -/
def clubCatalog : Catalog := ⟨[memberDefinition, clubDefinition]⟩

/-- The relation of a member to the clubs. -/
def memberClubs : Relation :=
  ⟨"clubs", "members", clubDefinition.id, "clubs",
    .belongsToMany "club_member" "member_id" "club_id"⟩

/-- The relation of a member to the friends. -/
def memberFriends : Relation :=
  ⟨"friends", "members", memberDefinition.id, "members",
    .belongsToMany "member_member" "member_id" "member_id"⟩

/-- The table of members. -/
def members : Table :=
  ⟨"members", [⟨"id", .serial, .null⟩, ⟨"name", .text, .null⟩],
    [[.int 1, .text "Annie"], [.int 2, .text "Abed"]], 3⟩

/-- The table of clubs. -/
def clubs : Table :=
  ⟨"clubs", [⟨"id", .serial, .null⟩, ⟨"name", .text, .null⟩],
    [[.int 1, .text "Chess"], [.int 2, .text "Drama"], [.int 3, .text "Film"]], 4⟩

/-- The pairs of members and clubs. -/
def clubMembers : Table :=
  ⟨"club_member", [⟨"club_id", .int, .null⟩, ⟨"member_id", .int, .null⟩],
    [[.int 1, .int 1], [.int 2, .int 1], [.int 1, .int 2]], 1⟩

/-- The pairs of members and friends. -/
def memberPairs : Table :=
  ⟨"member_member", [⟨"member_id", .int, .null⟩], [], 1⟩

/-- The database. -/
def clubStore : Store := ⟨[members, clubs, clubMembers, memberPairs]⟩

/-- The first member. -/
def annie : Entity := Entity.of memberDefinition.id (members.record [.int 1, .text "Annie"])

theorem pairsByDefault_clubs : clubCatalog.PairsByDefault memberDefinition.id "clubs" memberClubs
    memberDefinition clubDefinition where
  relation := eq_ok_of_toOption (by decide +kernel)
  owner := rfl
  target := rfl
  declared := rfl

theorem pairsByDefault_friends : clubCatalog.PairsByDefault memberDefinition.id "friends"
    memberFriends memberDefinition memberDefinition where
  relation := eq_ok_of_toOption (by decide +kernel)
  owner := rfl
  target := rfl
  declared := rfl

theorem pairsOnly_clubs :
    clubStore.PairsOnly memberClubs "club_member" "member_id" "club_id" clubMembers clubs where
  pairs := rfl
  columns := by decide
  related := by simpa [clubMembers] using ⟨⟨some 1, rfl⟩, ⟨some 2, rfl⟩, some 1, rfl⟩
  targets := rfl
  id := rfl
  pairs_full := by decide
  targets_full := by decide

theorem pairsOnly_friends :
    clubStore.PairsOnly memberFriends "member_member" "member_id" "member_id" memberPairs
      members where
  pairs := rfl
  columns := by decide
  related := by simp [memberPairs]
  targets := rfl
  id := rfl
  pairs_full := by decide
  targets_full := by decide

/-- The first member leaves the first club and joins the third. -/
theorem sync_read_back_clubs :
    ∃ w' q records, (sync memberClubs 1 [3, 2]).runIn ⟨clubStore, []⟩ = (.ok (), w') ∧
      memberClubs.query annie = some q ∧ w'.store.select q.toSelect = .ok records ∧
      records = (clubs.rows.filter (clubs.isIn idName [3, 2])).map clubs.record := by
  obtain ⟨w', q, records, hrun, hquery, hselect, -, hexact⟩ :=
    sync_read_back ⟨clubStore, []⟩ pairsByDefault_clubs rfl pairsOnly_clubs annie 1 rfl [3, 2]
      (by decide)
  have hids : ∀ row ∈ clubs.rows, ∃ i, clubs.datum idName row = .int i := by
    simpa [clubs] using ⟨⟨1, rfl⟩, ⟨2, rfl⟩, 3, rfl⟩
  exact ⟨w', q, records, hrun, hquery, hselect, hexact (by decide +kernel) (by decide) hids⟩

/-- A member who makes friends with another has only itself for a friend. -/
theorem sync_friends_reads_owner :
    clubCatalog.PairsByDefault memberDefinition.id "friends" memberFriends memberDefinition
      memberDefinition ∧
    clubStore.PairsOnly memberFriends "member_member" "member_id" "member_id" memberPairs members ∧
    ∃ w' q, (sync memberFriends 1 [2]).runIn ⟨clubStore, []⟩ = (.ok (), w') ∧
      memberFriends.query annie = some q ∧
      w'.store.select q.toSelect = .ok [members.record [.int 1, .text "Annie"]] ∧
      [members.record [.int 1, .text "Annie"]]
        ≠ (members.rows.filter (members.isIn idName [2])).map members.record := by
  refine ⟨pairsByDefault_friends, pairsOnly_friends, _, _, rfl, rfl, rfl, fun h => ?_⟩
  have hids := congrArg (List.map fun record : Record => (record.get? idName).bind Datum.int?) h
  exact absurd hids (by decide +kernel)

end Club

end Persist

end EntityGraph
