import EntityGraph.Proofs.Relation.Holders
import EntityGraph.Proofs.Relation.Restriction

/-!
# Orders along chains of relations

An order on a model names a column at the end of a chain of relations to one entity. It joins the
tables along the chain, and where no table comes twice a row of the model's table is joined with the
targets that the queries of the relations find one after the other.

* `OrderExpr.Reaches` says which datum an order finds from an entity, by those queries;
* `OrderExpr.Fits` says what a database has to promise of the columns along the chain;
* `OrderExpr.exists_joinAll` and `OrderExpr.tails_joins` describe the joined rows.
-/

namespace EntityGraph

namespace Store

variable {s : Store} {T : String} {t : Table}

/-- At most one row has a given integer for its id. -/
theorem Ids.length_filter_le_one (h : s.Ids T) (hs : s.Full) (ht : s.table T = .ok t) (i : Int64) :
    (t.rows.filter (t.isAt idName i)).length ≤ 1 := by
  obtain ⟨hhas, ids, hnodup, hids⟩ := h t ht
  have hat : ∀ row ∈ t.rows, t.isAt idName i row
      = (((t.record row).get? idName).bind Datum.int? == some i) := by
    intro row hrow
    obtain ⟨k, hk⟩ := Ids.exists_id h ht hrow
    have hrecord := Table.record_get? hhas (hs.table ht row hrow)
    rw [hk] at hrecord
    rw [Table.isAt, ← Option.some.inj hrecord, Datum.equals_int, hk, Bool.eq_iff_iff]
    simp [Datum.int?]
  have hcount : (t.rows.map fun row => (t.record row).get? idName).countP
      (fun d => d.bind Datum.int? == some i) = ids.count i := by
    rw [hids, List.countP_map, List.count]
    refine List.countP_congr fun k _ => ?_
    simp [Datum.int?]
  rw [List.countP_map] at hcount
  rw [List.filter_congr hat, ← List.countP_eq_length_filter]
  exact hcount.trans_le (List.nodup_iff_count_le_one.1 hnodup i)

/-- Every row of a table has at most one target in a relation to one entity, as far as ids and keys
go: ids are distinct integers, what stands as the key of a target is an integer or null, and no two
targets hold the key of one owner. -/
def ToOne (s : Store) (T : String) (r : Relation) : Prop :=
  match r.link with
  | .belongsTo key =>
    s.ForeignKeys T key ∧ s.HasColumn r.targetTable idName ∧ s.Ids r.targetTable
  | .hasOne key => s.Ids T ∧ s.HasColumn r.targetTable key ∧
    ∀ t, s.table r.targetTable = .ok t → ∀ owner, (t.rows.filter (t.isAt key owner)).length ≤ 1
  | _ => False

end Store

namespace Relation

/-- Whether a row of the target's table is a target of a row of a table. -/
def leads (r : Relation) (t t' : Table) (x b : Row) : Bool :=
  (t'.datum r.linkColumn.name b).equals (t.datum r.ownerKey x)

/-- A relation to one entity leads from the rows of one table to those of another. -/
structure LeadsTo (s : Store) (r : Relation) (t t' : Table) : Prop where
  table : s.table r.targetTable = .ok t'
  ownerKey : t.Has r.ownerKey
  linkColumn : t'.Has r.linkColumn.name
  linkColumn_eq : r.linkColumn = Column.of r.targetTable r.linkColumn.name
  linkJoins : r.linkJoins = []
  join : OrderExpr.joinAlong t.name r
    = some ⟨r.targetTable, r.linkColumn, .eq, Column.of t.name r.ownerKey⟩
  one : ∀ x ∈ t.rows, (t'.rows.filter (r.leads t t' x)).length ≤ 1

theorem leadsTo_of_toOne {s : Store} {r : Relation} {T : String} {t : Table} (hs : s.Full)
    (h : s.ToOne T r) (ht : s.table T = .ok t) : ∃ t', r.LeadsTo s t t' := by
  obtain ⟨property, ownerTable, target, targetTable, link⟩ := r
  cases link with
  | belongsTo key =>
    obtain ⟨hkeys, ⟨t', ht', hid⟩, hids⟩ := h
    obtain ⟨hkey, hrows⟩ := hkeys t ht
    refine ⟨t', ht', hkey, hid, rfl, rfl, rfl, fun x hx => ?_⟩
    -- without a key there is no target, and with one the ids tell the targets apart
    obtain ⟨i, hi⟩ := hrows x hx
    rw [Table.record_get? hkey (hs.table ht x hx)] at hi
    have hdatum : t.datum key x = .ofInt? i := Option.some.inj hi
    cases i with
    | none =>
      have hnone : ∀ b ∈ t'.rows, ¬ leads ⟨property, ownerTable, target, targetTable,
          .belongsTo key⟩ t t' x b = true := by
        intro b _
        rw [leads, ownerKey, hdatum]
        simp [Datum.ofInt?, Datum.equals, Datum.isNull]
      rw [List.filter_eq_nil_iff.2 hnone]
      exact Nat.zero_le 1
    | some i =>
      have hat : ∀ b ∈ t'.rows, leads ⟨property, ownerTable, target, targetTable,
          .belongsTo key⟩ t t' x b = t'.isAt idName i b := by
        intro b _
        exact congrArg (t'.datum idName b).equals hdatum
      rw [List.filter_congr hat]
      exact hids.length_filter_le_one hs ht' i
  | hasOne key =>
    obtain ⟨hids, ⟨t', ht', hkey⟩, hone⟩ := h
    obtain ⟨hid, -⟩ := hids t ht
    refine ⟨t', ht', hid, hkey, rfl, rfl, rfl, fun x hx => ?_⟩
    obtain ⟨i, hi⟩ := hids.exists_id ht hx
    rw [Table.record_get? hid (hs.table ht x hx)] at hi
    have hat : ∀ b ∈ t'.rows, leads ⟨property, ownerTable, target, targetTable,
        .hasOne key⟩ t t' x b = t'.isAt key i b := by
      intro b _
      exact congrArg (t'.datum key b).equals (Option.some.inj hi)
    rw [List.filter_congr hat]
    exact hone t' ht' i
  | hasMany key => exact h.elim
  | belongsToMany pivot ownerKey relatedKey => exact h.elim

end Relation

/-- A row of joined tables shows a row of one of them: what is read from the columns of that table
is what the row holds. -/
structure Row.Shows (schema : List Column) (a : Row) (t : Table) (x : Row) : Prop where
  length_eq : a.length = schema.length
  get_eq : ∀ {column}, t.Has column →
    a.get schema (Column.of t.name column) = .ok (t.datum column x)

namespace Row.Shows

variable {schema : List Column} {a x b : Row} {t t' : Table}

theorem self (hfull : t.Full) (hx : x ∈ t.rows) : Row.Shows t.columns x t x where
  length_eq := (hfull x hx).trans t.length_columns.symm
  get_eq {column} hhas := by
    obtain ⟨d, hget, -⟩ := Table.exists_get hhas (hfull x hx)
    rw [hget, ← Table.datum_of, Row.datum_of_get hget]

/-- What is read from a row is read from it still when more is joined. -/
theorem get_append (h : Row.Shows schema a t x) {column : String} (hhas : t.Has column)
    (S : List Column) (b : Row) :
    Row.get (schema ++ S) (a ++ b) (Column.of t.name column) = .ok (t.datum column x) := by
  rw [← h.get_eq hhas]
  refine Row.get_append_left h.length_eq ?_
  have hget := h.get_eq hhas
  unfold Row.get at hget
  cases hfind : schema.findIdx? (Column.of t.name column).refersTo with
  | none => simp [hfind] at hget
  | some i => exact List.any_eq_true.1 (List.findIdx?_isSome.symm.trans (by rw [hfind]; rfl))

/-- A row of a table that is joined for the first time is shown behind the others. -/
theorem join (h : Row.Shows schema a t x) (hfresh : ∀ c ∈ schema, c.table ≠ some t'.name)
    (hfull : t'.Full) (hb : b ∈ t'.rows) : Row.Shows (schema ++ t'.columns) (a ++ b) t' b where
  length_eq := by
    rw [List.length_append, List.length_append, h.length_eq, (self hfull hb).length_eq]
  get_eq hhas := by
    rw [Row.get_append_right h.length_eq fun c hc => Column.refersTo_eq_false rfl (hfresh c hc),
      (self hfull hb).get_eq hhas]

/-- The join along a relation admits the targets of the row that is shown. -/
theorem admits_eq {s : Store} {r : Relation} (hr : r.LeadsTo s t t') (h : Row.Shows schema a t x)
    (hfresh : ∀ c ∈ schema, c.table ≠ some t'.name) (hfull : t'.Full) (hb : b ∈ t'.rows) :
    Join.admits ⟨r.targetTable, r.linkColumn, .eq, Column.of t.name r.ownerKey⟩
      (schema ++ t'.columns) (a ++ b) = .ok (r.leads t t' x b) := by
  have hlink : r.linkColumn = Column.of t'.name r.linkColumn.name := by
    rw [(Store.mem_of_table hr.table).2]
    exact hr.linkColumn_eq
  unfold Join.admits
  rw [h.get_append hr.ownerKey, hlink, (h.join hfresh hfull hb).get_eq hr.linkColumn]
  exact Datum.satisfies_eq _ _

end Row.Shows

/-- An entity that was read from a row has what the row holds. -/
theorem Entity.get_of_record {t : Table} {x : Row} {column : String} (model : ModelId)
    (h : t.Has column) (hx : x.length = t.schema.length) :
    (Entity.of model (t.record x)).get column = t.datum column x :=
  Entity.get_of (Table.record_get? h hx)

/-- An entity without a key of its target has none. -/
theorem Relation.filter_leads_eq_nil {r : Relation} {t t' : Table} {e : Entity} {x : Row}
    (he : e.get r.ownerKey = t.datum r.ownerKey x) (hq : r.query e = none) :
    t'.rows.filter (r.leads t t' x) = [] := by
  refine List.filter_eq_nil_iff.2 fun b _ => ?_
  have hnull := query_eq_none hq
  rw [he] at hnull
  simp [leads, Datum.equals, hnull]

namespace Relation.LeadsTo

variable {s : Store} {r : Relation} {t t' : Table} (hr : r.LeadsTo s t t') {e : Entity} {x : Row}

include hr

/-- The query for the targets of a row answers them. -/
theorem select_eq (hfull : t'.Full) (he : e.get r.ownerKey = t.datum r.ownerKey x) {q : Query}
    (hq : r.query e = some q) :
    s.select q.toSelect = .ok ((t'.rows.filter (r.leads t t' x)).map t'.record) := by
  have hlink : r.linkColumn = Column.of t'.name r.linkColumn.name := by
    rw [(Store.mem_of_table hr.table).2]
    exact hr.linkColumn_eq
  rw [query_eq_some hq, hr.linkJoins]
  refine Store.select_of_tests hr.table fun b hb => ?_
  rw [Store.testAll_singleton, Store.test, hlink,
    (Row.Shows.self hfull hb).get_eq hr.linkColumn, he]
  exact Datum.satisfies_eq _ _

end Relation.LeadsTo

namespace OrderExpr

/-- An order finds a datum from an entity: in the named column of the entity, or of the one target
that the entity's query finds, and so along the chain. -/
def Reaches (c : Catalog) (s : Store) : OrderExpr → Entity → Datum → Prop
  | field property _, e, d => e.get (columnName property) = d
  | relation property target order, e, d => ∃ r q record, c.relation e.model property = .ok r ∧
      r.query e = some q ∧ s.select q.toSelect = .ok [record] ∧
      order.Reaches c s (Entity.of target record) d

theorem Reaches.unique {c : Catalog} {s : Store} {order : OrderExpr} {e : Entity} {d d' : Datum}
    (h : order.Reaches c s e d) (h' : order.Reaches c s e d') : d = d' := by
  induction order generalizing e with
  | field property direction => exact h.symm.trans h'
  | relation property target order ih =>
    obtain ⟨r, q, record, hr, hq, hrecord, hd⟩ := h
    obtain ⟨r', q', record', hr', hq', hrecord', hd'⟩ := h'
    obtain rfl := Except.ok.inj (hr.symm.trans hr')
    obtain rfl := Option.some.inj (hq.symm.trans hq')
    obtain rfl := List.singleton_inj.1 (Except.ok.inj (hrecord.symm.trans hrecord'))
    exact ih hd hd'

variable {c : Catalog} {maxDepth depth : Nat} {model : ModelId} {T : String}

/-- A database has the columns along the chain of an order, and the relations lead to one entity. -/
def Fits (c : Catalog) (s : Store) : OrderExpr → ModelId → String → Prop
  | field property _, _, T => s.HasColumn T (columnName property)
  | relation property target order, model, T => ∃ r, c.relation model property = .ok r ∧
      s.ToOne T r ∧ order.Fits c s target r.targetTable

variable {s : Store} {t : Table}

theorem joins_relation {r : Relation} {t' : Table} {property : String} {target : ModelId}
    {order : OrderExpr} (hr : c.relation model property = .ok r) (hleads : r.LeadsTo s t t') :
    (relation property target order).joins c model t.name
      = ⟨r.targetTable, r.linkColumn, .eq, Column.of t.name r.ownerKey⟩
        :: order.joins c target r.targetTable := by
  rw [joins, hr]
  simp only [hleads.join]
  rfl

/-- The first table along a chain is new to the joined rows, and behind it the later ones are still
new. -/
theorem fresh_relation {schema : List Column} {r : Relation} {t' : Table} {property : String}
    {target : ModelId} {order : OrderExpr} (hr : c.relation model property = .ok r)
    (hleads : r.LeadsTo s t t')
    (hfresh : ∀ j ∈ (relation property target order).joins c model t.name, ∀ column ∈ schema,
      column.table ≠ some j.table)
    (hapart : (((relation property target order).joins c model t.name).map (·.table)).Nodup) :
    (∀ column ∈ schema, column.table ≠ some t'.name) ∧
      (∀ j ∈ order.joins c target r.targetTable, ∀ column ∈ schema ++ t'.columns,
        column.table ≠ some j.table) ∧
      ((order.joins c target r.targetTable).map (·.table)).Nodup := by
  rw [joins_relation hr hleads] at hfresh hapart
  obtain ⟨hnew, hapart⟩ := List.nodup_cons.1 hapart
  refine ⟨?_, fun j hj column hcolumn => ?_, hapart⟩
  · rw [(Store.mem_of_table hleads.table).2]
    exact hfresh _ List.mem_cons_self
  · rcases List.mem_append.1 hcolumn with hold | hadded
    · exact hfresh j (List.mem_cons_of_mem _ hj) column hold
    · have hne : j.table ≠ r.targetTable := fun heq => hnew (List.mem_map.2 ⟨j, hj, heq⟩)
      exact Store.columns_ne hleads.table hne column hadded

/-- The tables along a chain can be joined to rows that show those of its first table. -/
theorem exists_joinAll {order : OrderExpr} (hs : s.Full) (hfits : order.Fits c s model T)
    (ht : s.table T = .ok t) {f : Frame}
    (hshows : ∀ a ∈ f.rows, ∃ x ∈ t.rows, Row.Shows f.schema a t x)
    (hfresh : ∀ j ∈ order.joins c model T, ∀ column ∈ f.schema, column.table ≠ some j.table)
    (hapart : ((order.joins c model T).map (·.table)).Nodup) :
    ∃ g, s.joinAll f (order.joins c model T) = .ok g := by
  -- along the chain the joined rows show those of the table that was joined last
  induction order generalizing model T t f with
  | field property direction => exact ⟨f, rfl⟩
  | relation property target order ih =>
    obtain ⟨r, hr, hone, hfits⟩ := hfits
    obtain ⟨t', hleads⟩ := Relation.leadsTo_of_toOne hs hone ht
    obtain rfl := (Store.mem_of_table ht).2
    have hfull := hs.table hleads.table
    obtain ⟨hfirst, hfresh, hapart⟩ := fresh_relation hr hleads hfresh hapart
    rw [joins_relation hr hleads]
    obtain ⟨g, hg⟩ := ih hfits hleads.table (f := ⟨f.schema ++ t'.columns, _⟩)
      (fun a' ha' => by
        obtain ⟨a, ha, b, hb, rfl⟩ := Frame.mem_pairs.1 (List.mem_of_mem_filter ha')
        obtain ⟨x, -, hx⟩ := hshows a ha
        exact ⟨b, hb, hx.join hfirst hfull hb⟩) hfresh hapart
    refine ⟨g, Store.joinAll_cons_eq_ok.2 ⟨t', _, hleads.table, Store.join_eq_ok.2
      ⟨fun a ha b hb => ?_, rfl⟩, hg⟩⟩
    obtain ⟨x, -, hx⟩ := hshows a ha
    exact ⟨_, hx.admits_eq hleads hfirst hfull hb⟩

/-- Along a relation an order finds what it finds from the one target. -/
theorem reaches_relation_iff {r : Relation} {t' : Table} {x : Row} {property : String}
    {target : ModelId} {order : OrderExpr} {d : Datum} (hr : c.relation model property = .ok r)
    (hleads : r.LeadsTo s t t') (hfull : t'.Full) (hx : x.length = t.schema.length) :
    (relation property target order).Reaches c s (Entity.of model (t.record x)) d ↔
      ∃ b, t'.rows.filter (r.leads t t' x) = [b] ∧
        order.Reaches c s (Entity.of target (t'.record b)) d := by
  have he := Entity.get_of_record model hleads.ownerKey hx
  constructor
  · rintro ⟨r', q, record, hr', hq, hrecord, hd⟩
    obtain rfl := Except.ok.inj (hr.symm.trans hr')
    obtain ⟨b, hb, rfl⟩ := List.map_eq_singleton_iff.1
      (Except.ok.inj ((hleads.select_eq hfull he hq).symm.trans hrecord))
    exact ⟨b, hb, hd⟩
  · rintro ⟨b, hb, hd⟩
    obtain ⟨q, hq⟩ : ∃ q, r.query (Entity.of model (t.record x)) = some q := by
      refine Option.ne_none_iff_exists'.1 fun hnone => ?_
      rw [Relation.filter_leads_eq_nil he hnone] at hb
      cases hb
    refine ⟨r, q, t'.record b, hr, hq, ?_, hd⟩
    rw [hleads.select_eq hfull he hq, hb]
    rfl

/-- A row is joined with nothing, if no target is found along the chain, or with the targets that
are found, and then the datum at the end of the chain is read from the column of the order. -/
theorem tails_joins {order : OrderExpr} (hs : s.Full) (hfits : order.Fits c s model T)
    (ht : s.table T = .ok t) {schema : List Column} {a x : Row} (hx : x ∈ t.rows)
    (hshows : Row.Shows schema a t x)
    (hfresh : ∀ j ∈ order.joins c model T, ∀ column ∈ schema, column.table ≠ some j.table)
    (hapart : ((order.joins c model T).map (·.table)).Nodup) :
    (s.tails schema a (order.joins c model T) = [] ∧
      ∀ d, ¬ order.Reaches c s (Entity.of model (t.record x)) d) ∨
    ∃ b d, s.tails schema a (order.joins c model T) = [b] ∧
      order.Reaches c s (Entity.of model (t.record x)) d ∧
      Row.get (schema ++ s.tailColumns (order.joins c model T)) (a ++ b)
        (order.sortColumn c model T) = .ok d := by
  induction order generalizing model T t schema a x with
  | field property direction =>
    obtain rfl := (Store.mem_of_table ht).2
    obtain ⟨u, hu, hhas⟩ := hfits
    obtain rfl := Except.ok.inj (ht.symm.trans hu)
    exact .inr ⟨[], _, rfl, Entity.get_of_record model hhas (hs.table ht x hx),
      hshows.get_append hhas [] []⟩
  | relation property target order ih =>
    obtain ⟨r, hr, hone, hfits⟩ := hfits
    obtain ⟨t', hleads⟩ := Relation.leadsTo_of_toOne hs hone ht
    obtain rfl := (Store.mem_of_table ht).2
    have hfull := hs.table hleads.table
    obtain ⟨hfirst, hfresh, hapart⟩ := fresh_relation hr hleads hfresh hapart
    have hreaches : ∀ d, (relation property target order).Reaches c s
          (Entity.of model (t.record x)) d ↔ ∃ b, t'.rows.filter (r.leads t t' x) = [b] ∧
            order.Reaches c s (Entity.of target (t'.record b)) d :=
      fun d => reaches_relation_iff hr hleads hfull (hs.table ht x hx)
    have hfound : (t'.rows.filter fun b => holds (Join.admits
        ⟨r.targetTable, r.linkColumn, .eq, Column.of t.name r.ownerKey⟩
          (schema ++ t'.columns) (a ++ b))) = t'.rows.filter (r.leads t t' x) :=
      List.filter_congr fun b hb => by
        rw [hshows.admits_eq hleads hfirst hfull hb, holds_ok]
    rw [joins_relation hr hleads, Store.tails, Store.tailColumns, sortColumn, hr]
    simp only [hleads.table, hfound, hreaches]
    -- the row has no target, one, or more, which the relation excludes
    rcases htargets : t'.rows.filter (r.leads t t' x) with _ | ⟨b, _ | ⟨b', rest⟩⟩
    · exact .inl ⟨rfl, by simp⟩
    · have hb : b ∈ t'.rows := List.mem_of_mem_filter (p := r.leads t t' x) (by simp [htargets])
      simp only [List.flatMap_singleton, List.singleton_inj, exists_eq_left']
      rcases ih hfits hleads.table hb (hshows.join hfirst hfull hb) hfresh hapart with
        ⟨hnone, hnot⟩ | ⟨b', d, htail, hd, hget⟩
      · exact .inl ⟨by rw [hnone]; rfl, hnot⟩
      · refine .inr ⟨b ++ b', d, by rw [htail]; rfl, hd, ?_⟩
        rw [← List.append_assoc, ← List.append_assoc]
        exact hget
    · have hlength := hleads.one x hx
      rw [htargets] at hlength
      simp at hlength

end OrderExpr

end EntityGraph
