import EntityGraph.Proofs.Access.Mutations
import EntityGraph.Proofs.Relation.Sync
import EntityGraph.Proofs.Resolve.Changes

/-!
# What creations, updates and deletions change

A creation adds a row, an update changes cells of a row, a deletion removes a row; then the links
that the input names are synced, and nothing else changes.

* `Service.Syncs` is a run of syncs;
* `Table.Numbered` is a table that numbers its rows in its column of ids;
* `Service.Created` and `Service.Changed` are the row after a creation or an update;
* `Service.mutations_effect` is the result.
-/

namespace EntityGraph

namespace Service

variable {id : Int64} {s s' : Store} {relations : List (Relation × List Int64)} {w w' : World}
  {T : String} {t : Table}

/-- A database before and after some relations were synced one after the other. -/
def Syncs (id : Int64) : List (Relation × List Int64) → Store → Store → Prop
  | [], s, s' => s'.table = s.table
  | (r, targets) :: rest, s, s' => ∃ s₁, Persist.Writes r id targets s s₁ ∧ Syncs id rest s₁ s'

theorem syncs_of_syncAll (h : (syncAll id relations).runIn w = (.ok (), w')) :
    Syncs id relations w.store w'.store := by
  induction relations generalizing w with
  | nil =>
    cases h
    rfl
  | cons link rest ih =>
    obtain ⟨r, targets⟩ := link
    obtain ⟨_, w₁, hsync, hrest⟩ := Action.runIn_bind_eq_ok.1 h
    exact ⟨w₁.store, Persist.writes_of_sync hsync, ih hrest⟩

end Service

namespace Table

variable {t : Table} {row : Row} {id : Int64}

/-- A table of full rows that numbers them in its column of ids, each with an id of its own. -/
structure Numbered (t : Table) : Prop where
  full : t.Full
  has : t.Has idName
  serial : ∀ c ∈ t.schema, c.type = .serial ↔ c.name = idName
  unique : ∀ id, (t.rows.filter (t.hasKey id)).length ≤ 1

/-- The counter of a table is beyond all of its ids. -/
def Ahead (t : Table) : Prop :=
  ∀ row ∈ t.rows, ∀ id, t.hasKey id row = true → id < t.nextKey

/-- The qualified and the plain name of the column of ids mean the same. -/
theorem hasKey_eq (h : t.Has idName) (hrow : row.length = t.schema.length) :
    t.hasKey id row = t.isAt idName id row := by
  obtain ⟨i, hi⟩ := exists_place?_of_has h
  rw [hasKey, idColumn, get_of hrow, hi, isAt, Bool.eq_iff_iff, Datum.equals_iff]
  simp

/-- A table of full rows that numbers them in its column of ids with distinct integers. -/
theorem Numbered.of_ids (ids : List Int64) (hfull : t.Full) (hhas : t.Has idName)
    (hserial : ∀ c ∈ t.schema, c.type = .serial ↔ c.name = idName)
    (hids : t.rows.map (t.datum idName) = ids.map .int) (hnodup : ids.Nodup) : t.Numbered := by
  refine ⟨hfull, hhas, hserial, fun id => ?_⟩
  have hrows : t.rows.countP (t.hasKey id)
      = (t.rows.map (t.datum idName)).countP fun d => d.equals (.int id) := by
    rw [List.countP_map]
    exact List.countP_congr fun row hrow => by rw [hasKey_eq hhas (hfull row hrow)]; rfl
  have hcount : (ids.map Datum.int).countP (fun d => d.equals (.int id)) = ids.count id := by
    rw [List.countP_map]
    exact List.countP_congr fun i _ => by simp [Datum.equals_int]
  rw [← List.countP_eq_length_filter, hrows, hids, hcount]
  exact List.nodup_iff_count_le_one.1 hnodup id

theorem countP_serial (h : t.Numbered) : t.schema.countP (·.type = .serial) = 1 := by
  have hcount : t.schema.countP (·.type = .serial) = t.schema.countP (·.name == idName) :=
    List.countP_congr fun c hc => by simp [h.serial c hc]
  have hname : t.schema.countP (·.name == idName) = (t.schema.map (·.name)).count idName := by
    rw [List.count, List.countP_map]
    rfl
  rw [hcount, hname]
  exact h.has

/-- The row of an id has all other rows before and behind it. -/
theorem Numbered.split (h : t.Numbered) (hrow : row ∈ t.rows) (hid : t.hasKey id row = true) :
    ∃ before after, t.rows = before ++ row :: after ∧
      ∀ other ∈ before ++ after, t.hasKey id other = false := by
  obtain ⟨before, after, hrows⟩ := List.append_of_mem hrow
  refine ⟨before, after, hrows, ?_⟩
  have hone := h.unique id
  rw [hrows, List.filter_append, List.filter_cons_of_pos hid, List.length_append,
    List.length_cons] at hone
  have hbefore : before.filter (t.hasKey id) = [] := List.length_eq_zero_iff.1 (by omega)
  have hafter : after.filter (t.hasKey id) = [] := List.length_eq_zero_iff.1 (by omega)
  intro other hother
  rcases List.mem_append.1 hother with hmem | hmem
  · simpa using List.filter_eq_nil_iff.1 hbefore other hmem
  · simpa using List.filter_eq_nil_iff.1 hafter other hmem

section Split

variable {before after : List Row} (hid : t.hasKey id row = true)
  (hothers : ∀ other ∈ before ++ after, t.hasKey id other = false)

include hid hothers

/-- A change of the row of an id changes that row alone. -/
theorem map_hasKey (f : Row → Row) :
    (before ++ row :: after).map (fun r => if t.hasKey id r then f r else r)
      = before ++ f row :: after := by
  have hsame : ∀ rows : List Row, (∀ other ∈ rows, t.hasKey id other = false) →
      rows.map (fun r => if t.hasKey id r then f r else r) = rows := by
    intro rows hrows
    have hcongr : rows.map (fun r => if t.hasKey id r then f r else r) = rows.map fun r => r :=
      List.map_congr_left fun other hmem => by simp [hrows other hmem]
    rw [hcongr, List.map_id']
  rw [List.map_append, List.map_cons, if_pos hid,
    hsame before fun other hmem => hothers other (List.mem_append_left _ hmem),
    hsame after fun other hmem => hothers other (List.mem_append_right _ hmem)]

theorem filter_hasKey : (before ++ row :: after).filter (fun r => !t.hasKey id r)
    = before ++ after := by
  have hsame : ∀ rows : List Row, (∀ other ∈ rows, t.hasKey id other = false) →
      rows.filter (fun r => !t.hasKey id r) = rows := by
    intro rows hrows
    exact List.filter_eq_self.2 fun other hmem => by simp [hrows other hmem]
  rw [List.filter_append, List.filter_cons_of_neg (by simp [hid]),
    hsame before fun other hmem => hothers other (List.mem_append_left _ hmem),
    hsame after fun other hmem => hothers other (List.mem_append_right _ hmem)]

end Split

end Table

namespace Persist

variable {w w' : World} {t : Table} {T : String} {id : Int64} {attributes : Record}

/-- The condition of a key marks the rows that have it. -/
theorem holds_hasId (h : t.Numbered) {s : Store} {row : Row} (hrow : row ∈ t.rows) :
    holds (s.testAll t.columns row [hasId id]) = t.hasKey id row := by
  rw [Store.testAll_singleton, hasId, Store.holds_test_eq, Table.datum_named,
    Table.hasKey_eq h.has (h.full row hrow)]
  rfl

/-- An insertion into a table that numbers its rows adds one row under the next key, and moves the
counter on. -/
theorem numbered_of_insert (ht : w.store.table T = .ok t) (hnumbered : t.Numbered)
    (hgiven : attributes.get? idName = none)
    (h : (insert T attributes).runIn w = (.ok id, w')) :
    id = t.nextKey ∧ (∀ c ∈ attributes.keys, t.hasColumn c = true) ∧ ∃ next, t.nextKey < next ∧
      w'.store.table = Function.update w.store.table T (.ok { t with
        rows := t.rows ++ [t.schema.map (t.newDatum attributes.get?)]
        nextKey := next }) := by
  obtain ⟨keys, w₁, hinsert, hkey⟩ := Action.runIn_bind_eq_ok.1 h
  obtain ⟨hstore, hresult⟩ :=
    Store.insert_of_table (i := ⟨T, attributes.keys, [attributes.values]⟩) ht
  rw [Action.runIn_insert, hresult, Prod.mk.injEq, Action.stored_eq_ok] at hinsert
  obtain ⟨hkeys, rfl⟩ := hinsert
  have hzip : attributes.keys.zip attributes.values = attributes.entries := by
    rw [Dict.keys, Dict.values, List.zip_map']
    exact List.map_id _
  cases happend : t.append attributes.keys attributes.values with
  | error f => simp [Table.appendAll, happend] at hkeys
  | ok p =>
    obtain ⟨t', key⟩ := p
    obtain ⟨hcolumns, -⟩ := Table.append_eq_ok happend
    -- the one serial column is that of the ids, so the insertion gives it no value
    have hserial : ∀ c ∈ t.schema, c.type = .serial →
        (attributes.keys.zip attributes.values).lookup c.name = none := by
      intro c hc htype
      rw [hzip, (hnumbered.serial c hc).1 htype]
      exact hgiven
    obtain ⟨rfl, next, hnext, rfl⟩ :=
      Table.append_numbered (Table.countP_serial hnumbered) hserial happend
    simp only [Table.appendAll, happend, Except.map, Option.toList_some, List.append_nil,
      Except.ok.injEq] at hkeys
    subst hkeys
    obtain ⟨rfl, rfl⟩ := Action.runIn_pure_eq_ok.1 hkey
    refine ⟨rfl, hcolumns, next, Table.lt_of_keyAfter hnext, ?_⟩
    show (w.store.insert ⟨T, attributes.keys, [attributes.values]⟩).1.table = _
    rw [hstore]
    simp only [Table.appendAll, happend, hzip]
    rfl

/-- What an insertion adds to a table that numbers its rows. -/
theorem table_of_insert (ht : w.store.table T = .ok t) (hnumbered : t.Numbered)
    (hgiven : attributes.get? idName = none)
    (h : (insert T attributes).runIn w = (.ok id, w')) :
    id = t.nextKey ∧ (∀ c ∈ attributes.keys, t.hasColumn c = true) ∧ ∃ next,
      w'.store.table = Function.update w.store.table T (.ok { t with
        rows := t.rows ++ [t.schema.map (t.newDatum attributes.get?)]
        nextKey := next }) := by
  obtain ⟨hid, hcolumns, next, -, htable⟩ := numbered_of_insert ht hnumbered hgiven h
  exact ⟨hid, hcolumns, next, htable⟩

section Split

variable {n : Nat} {row : Row} {before after : List Row} (ht : w.store.table T = .ok t)
  (hnumbered : t.Numbered) (hrows : t.rows = before ++ row :: after)
  (hid : t.hasKey id row = true) (hothers : ∀ other ∈ before ++ after, t.hasKey id other = false)

include ht hnumbered hrows hid hothers

/-- What an update of the row of a key changes. -/
theorem table_of_update (h : (update T id attributes).runIn w = (.ok n, w')) :
    (∀ a ∈ attributes.entries, ∃ i, t.place? a.1 = some i) ∧
      w'.store.table = Function.update w.store.table T (.ok { t with
        rows := before ++ attributes.entries.foldl (fun row a => t.setDatum a.1 a.2 row) row ::
          after }) := by
  unfold update at h
  split_ifs at h with hempty
  · obtain ⟨-, rfl⟩ := Action.runIn_pure_eq_ok.1 h
    have hentries : attributes.entries = [] := by simpa [Dict.isEmpty] using hempty
    rw [hentries, List.foldl_nil, ← hrows]
    exact ⟨by simp, by rw [← ht, Function.update_eq_self]⟩
  · have hne : attributes.entries ≠ [] := by simpa [Dict.isEmpty] using hempty
    obtain ⟨s₁, hupdate, rfl⟩ := Action.runIn_update_eq_ok.1 h
    obtain ⟨u, hu, -, hplaces, rfl, -⟩ := (Store.update_eq_ok hne).1 hupdate
    obtain rfl : t = u := Except.ok.inj (ht.symm.trans hu)
    obtain rfl := (Store.mem_of_table ht).2
    refine ⟨hplaces, ?_⟩
    have hmap : t.rows.map (fun r => if holds (w.store.testAll t.columns r [hasId id]) then
          attributes.entries.foldl (fun row a => t.setDatum a.1 a.2 row) r else r)
        = before ++
            attributes.entries.foldl (fun row a => t.setDatum a.1 a.2 row) row :: after := by
      have hat := Table.map_hasKey hid hothers fun row =>
        attributes.entries.foldl (fun row a => t.setDatum a.1 a.2 row) row
      rw [← hrows] at hat
      exact (List.map_congr_left fun r hr => by rw [holds_hasId hnumbered hr]).trans hat
    rw [← hmap]
    exact Store.table_replace ht

/-- What a deletion of the row of a key removes. -/
theorem table_of_delete (h : (delete T id).runIn w = (.ok n, w')) :
    w'.store.table = Function.update w.store.table T (.ok { t with rows := before ++ after }) := by
  obtain ⟨s₁, hdelete, rfl⟩ := Action.runIn_delete_eq_ok.1 h
  obtain ⟨u, hu, -, rfl, -⟩ := Store.delete_eq_ok.1 hdelete
  obtain rfl : t = u := Except.ok.inj (ht.symm.trans hu)
  obtain rfl := (Store.mem_of_table ht).2
  have hfilter : t.rows.filter (fun r => !holds (w.store.testAll t.columns r [hasId id]))
      = before ++ after := by
    rw [← Table.filter_hasKey hid hothers, ← hrows]
    exact List.filter_congr fun r hr => by rw [holds_hasId hnumbered hr]
  rw [← hfilter]
  exact Store.table_replace ht

end Split

end Persist

namespace Service

open Changes (Sets Links)

variable {sv : Service} {m : ModelId} {T : String} {t : Table} {s s' : Store} {w w' : World}
  {caller : Caller} {id : Int64} {entries : List (String × Literal)} {changes : Changes}
  {relations : List (Relation × List Int64)}

/-- A row holds what the entries of an input write into its columns. -/
def Holds (c : Catalog) (m : ModelId) (skipNulls : Bool) (entries : List (String × Literal))
    (t : Table) (row : Row) : Prop :=
  ∀ entry ∈ entries, ∀ column d, Sets c m skipNulls entry column d →
    ∃ i, t.place? column = some i ∧ row[i]? = some d

/-- A row of a table that was created from an input: it has the next key, holds what the input
gives, unless that is null, and the defaults of all other columns. -/
structure Created (c : Catalog) (m : ModelId) (entries : List (String × Literal)) (t : Table)
    (row : Row) : Prop where
  length : row.length = t.schema.length
  id : t.datum idName row = .int t.nextKey
  holds : Holds c m true entries t row
  default : ∀ (i : Nat) (spec : ColumnSpec), t.schema[i]? = some spec → spec.name ≠ idName →
    (∀ entry ∈ entries, ∀ d, ¬ Sets c m true entry spec.name d) → row[i]? = some spec.default

/-- A row of a table before and after it was updated by an input: it holds what the input gives,
nulls included, and everything else is as it was. -/
structure Changed (c : Catalog) (m : ModelId) (entries : List (String × Literal)) (t : Table)
    (row row' : Row) : Prop where
  length : row'.length = row.length
  holds : Holds c m false entries t row'
  kept : ∀ i, (∀ entry ∈ entries, ∀ column d, Sets c m false entry column d →
    t.place? column ≠ some i) → row'[i]? = row[i]?

/-- The relations that an input names and that are not stored in the row, with their targets. -/
def Named (c : Catalog) (m : ModelId) (skipNulls : Bool) (entries : List (String × Literal))
    (relations : List (Relation × List Int64)) : Prop :=
  ∀ r targets, (r, targets) ∈ relations ↔ ∃ entry ∈ entries, Links c m skipNulls entry r targets

/-- A database before and after one table became another and then some relations were synced. -/
def WritesThenSyncs (T : String) (t' : Table) (id : Int64)
    (relations : List (Relation × List Int64)) (s s' : Store) : Prop :=
  ∃ s₁, s₁.table = Function.update s.table T (.ok t') ∧ Syncs id relations s₁ s'

section Rows

variable (hsep : sv.catalog.Separate m) (hnames : (entries.map (·.1)).Nodup)

include hsep hnames

/-- A new row has the next key, what the input gives, and defaults: the input cannot give the key,
which is in the one serial column. -/
theorem created_of_parse (hnumbered : t.Numbered)
    (hparse : Changes.parse sv.catalog m true (.object entries) = .ok changes)
    (hcolumns : ∀ c ∈ changes.attributes.keys, t.hasColumn c = true) :
    Created sv.catalog m entries t (t.schema.map (t.newDatum changes.attributes.get?)) := by
  obtain ⟨hattributes, -, hsorted⟩ := Changes.parse_spec hsep.distinct hnames hparse
  have hat : ∀ {i : Nat} {spec : ColumnSpec}, t.schema[i]? = some spec →
      (t.schema.map (t.newDatum changes.attributes.get?))[i]?
        = some (t.newDatum changes.attributes.get? spec) := fun hspec => by
    rw [List.getElem?_map, hspec, Option.map_some]
  constructor
  · exact List.length_map _
  · obtain ⟨i, hi⟩ := Table.exists_place?_of_has hnumbered.has
    obtain ⟨spec, hspec, hname⟩ := Table.exists_spec_of_place? hi
    have htype := (hnumbered.serial spec (List.mem_of_getElem? hspec)).2 hname
    rw [Table.datum, hi, Option.bind_some, hat hspec, Table.newDatum, if_pos htype,
      Option.getD_some]
  · intro entry hentry column d hsets
    have hmem : (column, d) ∈ changes.attributes.entries :=
      (hattributes column d).2 ⟨entry, hentry, hsets⟩
    obtain ⟨i, hi⟩ := Table.exists_place?.2
      (hcolumns column (List.mem_map.2 ⟨(column, d), hmem, rfl⟩))
    obtain ⟨spec, hspec, rfl⟩ := Table.exists_spec_of_place? hi
    -- the serial column is that of the ids, which no entry sets
    have htype : spec.type ≠ .serial := fun hserial =>
      hsets.ne_id hsep ((hnumbered.serial spec (List.mem_of_getElem? hspec)).1 hserial)
    refine ⟨i, hi, ?_⟩
    rw [hat hspec, Table.newDatum, if_neg htype, hsorted.mem_entries.1 hmem, Option.getD_some]
  · intro i spec hspec hne hnone
    have htype : spec.type ≠ .serial := fun hserial =>
      hne ((hnumbered.serial spec (List.mem_of_getElem? hspec)).1 hserial)
    rw [hat hspec, Table.newDatum, if_neg htype,
      (Changes.get?_of_parse_eq_none hparse).2 hnone, Option.getD_none]

/-- An updated row holds what the input gives, and the rest of it is as it was. -/
theorem changed_of_parse {row : Row} (hrow : row.length = t.schema.length)
    (hparse : Changes.parse sv.catalog m false (.object entries) = .ok changes)
    (hplaces : ∀ a ∈ changes.attributes.entries, ∃ i, t.place? a.1 = some i) :
    Changed sv.catalog m entries t row
      (changes.attributes.entries.foldl (fun row a => t.setDatum a.1 a.2 row) row) := by
  obtain ⟨hattributes, -, hsorted⟩ := Changes.parse_spec hsep.distinct hnames hparse
  have hlength : (changes.attributes.entries.foldl (fun row a => t.setDatum a.1 a.2 row)
      row).length = row.length := Table.length_foldl_setDatum
  constructor
  · exact hlength
  · intro entry hentry column d hsets
    have hmem : (column, d) ∈ changes.attributes.entries :=
      (hattributes column d).2 ⟨entry, hentry, hsets⟩
    obtain ⟨i, hi⟩ := hplaces _ hmem
    have hlt : i < (changes.attributes.entries.foldl
        (fun row a => t.setDatum a.1 a.2 row) row).length := by
      rw [hlength, hrow]
      exact Table.lt_of_place? hi
    refine ⟨i, hi, ?_⟩
    rw [List.getElem?_eq_getElem hlt, ← Table.datum_eq hi hlt,
      Table.datum_foldl_setDatum hsorted.nodup_keys hrow hmem hi]
  · intro i hother
    refine Table.getElem?_foldl_setDatum fun a ha => ?_
    obtain ⟨entry, hentry, hsets⟩ := (hattributes a.1 a.2).1 ha
    exact hother entry hentry a.1 a.2 hsets

end Rows

section Steps

variable {input : Literal} {selection : Selection}

/-- What is found is a row that has the key, and looking for it changes nothing. -/
theorem exists_row_of_find {e : Entity} (hT : sv.catalog.table m = .ok T)
    (ht : w.store.table T = .ok t) (h : (Persist.find m T id).runIn w = (.ok (some e), w')) :
    w'.store = w.store ∧ ∃ row ∈ t.rows, t.hasKey id row = true := by
  have hw : w' = w.note (.statement (.select (Persist.findQuery T id).toSelect)) := by
    rw [runIn_find] at h
    exact (Prod.mk.inj h).2.symm
  subst hw
  obtain ⟨U, u, hU, hu, -, hfound⟩ := (runIn_find_eq_ok hT).1 h
  obtain rfl : T = U := Except.ok.inj (hT.symm.trans hU)
  obtain rfl : t = u := Except.ok.inj (ht.symm.trans hu)
  obtain ⟨row, hrow, -⟩ := Option.map_eq_some_iff.1 hfound.symm
  exact ⟨rfl, row, List.mem_of_find?_eq_some hrow, List.find?_some hrow⟩

/-- Storing an entity inserts its row and syncs its links. -/
theorem store_eq_ok {e : Entity} (h : (store m T changes).runIn w = (.ok e, w')) :
    ∃ id w₁, (Persist.insert T changes.attributes).runIn
        (w.note (.event (.creating m changes.attributes))) = (.ok id, w₁) ∧
      Syncs id changes.relations w₁.store w'.store := by
  unfold store at h
  rw [Action.runIn_bind_ok (Action.runIn_record _)] at h
  obtain ⟨id, w₁, hinsert, h⟩ := Action.runIn_bind_eq_ok.1 h
  obtain ⟨_, w₂, hsync, h⟩ := Action.runIn_bind_eq_ok.1 h
  obtain ⟨found, w₃, hfind, h⟩ := Action.runIn_bind_eq_ok.1 h
  have hquiet := Action.keeps_of_runIn (AcrossReads.quiet.find m T id) hfind
  have hsyncs := syncs_of_syncAll hsync
  refine ⟨id, w₁, hinsert, ?_⟩
  cases found with
  | none => cases h
  | some e =>
    rw [Action.runIn_bind_ok (Action.runIn_record _)] at h
    obtain ⟨-, rfl⟩ := Action.runIn_pure_eq_ok.1 h
    rw [← hquiet.1] at hsyncs
    exact hsyncs

theorem create_eq_ok {v : Option FieldValue}
    (h : (sv.create caller m input selection).runIn w = (.ok v, w')) :
    ∃ changes T id w₁ w₂, Changes.parse sv.catalog m true input = .ok changes ∧
      sv.catalog.table m = .ok T ∧ w₁.store = w.store ∧
      (Persist.insert T changes.attributes).runIn w₁ = (.ok id, w₂) ∧
      Syncs id changes.relations w₂.store w'.store := by
  unfold create at h
  obtain ⟨_, w₁, hrequire, h⟩ := Action.runIn_bind_eq_ok.1 h
  obtain ⟨-, rfl⟩ := Guard.runIn_require_eq_ok.1 hrequire
  obtain ⟨changes, hparse, h⟩ := Action.runIn_ofExcept_bind_eq_ok.1 h
  obtain ⟨T, hT, h⟩ := Action.runIn_ofExcept_bind_eq_ok.1 h
  obtain ⟨e, w₂, hstore, h⟩ := Action.runIn_bind_eq_ok.1 h
  have hquiet := Action.keeps_of_runIn (AcrossReads.quiet.withRelations sv m e selection) h
  obtain ⟨id, w₃, hinsert, hsyncs⟩ := store_eq_ok hstore
  refine ⟨changes, T, id, _, w₃, hparse, hT, ?_, hinsert, ?_⟩
  · rfl
  · rw [hquiet.1]
    exact hsyncs

/-- An update that does not find its row changes nothing; another changes the row and syncs the
links of its input. -/
theorem update_eq_ok {b : Bool} (h : (sv.update caller m id input).runIn w = (.ok b, w')) :
    ∃ T, sv.catalog.table m = .ok T ∧ (b = false ∧ w'.store = w.store ∨
      b = true ∧ ∃ e w₀ changes n w₁ w₂, (Persist.find m T id).runIn w = (.ok (some e), w₀) ∧
        Changes.parse sv.catalog m false input = .ok changes ∧ w₁.store = w.store ∧
        (Persist.update T id changes.attributes).runIn w₁ = (.ok n, w₂) ∧
        Syncs id changes.relations w₂.store w'.store) := by
  unfold update at h
  obtain ⟨T, hT, h⟩ := Action.runIn_ofExcept_bind_eq_ok.1 h
  obtain ⟨found, w₁, hfind, h⟩ := Action.runIn_bind_eq_ok.1 h
  have hstore := (Action.keeps_of_runIn (AcrossReads.quiet.find m T id) hfind).1
  refine ⟨T, hT, ?_⟩
  cases found with
  | none =>
    cases h
    exact .inl ⟨rfl, hstore⟩
  | some e =>
    obtain ⟨_, w₂, hrequire, h⟩ := Action.runIn_bind_eq_ok.1 h
    obtain ⟨-, rfl⟩ := Guard.runIn_require_eq_ok.1 hrequire
    obtain ⟨changes, hparse, h⟩ := Action.runIn_ofExcept_bind_eq_ok.1 h
    rw [Action.runIn_bind_ok (Action.runIn_record _)] at h
    obtain ⟨n, w₃, hupdate, h⟩ := Action.runIn_bind_eq_ok.1 h
    obtain ⟨_, w₄, hsync, h⟩ := Action.runIn_bind_eq_ok.1 h
    obtain ⟨found', w₅, hfind', h⟩ := Action.runIn_bind_eq_ok.1 h
    have hquiet := Action.keeps_of_runIn (AcrossReads.quiet.find m T id) hfind'
    have hsyncs := syncs_of_syncAll hsync
    rw [← hquiet.1] at hsyncs
    -- the answer depends on the row that was found at first, not on what is read again
    have hdone : b = true ∧ w'.store = w₅.store := by
      cases found' with
      | none =>
        cases h
        exact ⟨rfl, rfl⟩
      | some e' =>
        cases h
        exact ⟨rfl, rfl⟩
    refine .inr ⟨hdone.1, e, w₁, changes, n, _, w₃, hfind, hparse, ?_, hupdate, ?_⟩
    · exact hstore
    · rw [hdone.2]
      exact hsyncs

theorem update_eq_true (hT : sv.catalog.table m = .ok T) (ht : w.store.table T = .ok t)
    (h : (sv.update caller m id input).runIn w = (.ok true, w')) :
    ∃ changes n w₁ w₂, Changes.parse sv.catalog m false input = .ok changes ∧
      (∃ row ∈ t.rows, t.hasKey id row = true) ∧ w₁.store = w.store ∧
      (Persist.update T id changes.attributes).runIn w₁ = (.ok n, w₂) ∧
      Syncs id changes.relations w₂.store w'.store := by
  obtain ⟨U, hU, ⟨hb, -⟩ | ⟨-, e, w₀, changes, n, w₁, w₂, hfind, hparse, hstore, hupdate,
    hsyncs⟩⟩ := update_eq_ok h
  · cases hb
  · obtain rfl : T = U := Except.ok.inj (hT.symm.trans hU)
    exact ⟨changes, n, w₁, w₂, hparse, (exists_row_of_find hT ht hfind).2, hstore, hupdate, hsyncs⟩

/-- A deletion that does not find its row changes nothing. -/
theorem delete_eq_ok {b : Bool} (h : (sv.delete caller m id).runIn w = (.ok b, w')) :
    ∃ T, sv.catalog.table m = .ok T ∧ (b = false ∧ w'.store = w.store ∨
      ∃ e w₀ n w₁ w₂, (Persist.find m T id).runIn w = (.ok (some e), w₀) ∧ w₁.store = w.store ∧
        (Persist.delete T id).runIn w₁ = (.ok n, w₂) ∧ w'.store = w₂.store ∧
        b = decide (0 < n)) := by
  unfold delete at h
  obtain ⟨T, hT, h⟩ := Action.runIn_ofExcept_bind_eq_ok.1 h
  obtain ⟨found, w₁, hfind, h⟩ := Action.runIn_bind_eq_ok.1 h
  have hstore := (Action.keeps_of_runIn (AcrossReads.quiet.find m T id) hfind).1
  refine ⟨T, hT, ?_⟩
  cases found with
  | none =>
    cases h
    exact .inl ⟨rfl, hstore⟩
  | some e =>
    obtain ⟨_, w₂, hrequire, h⟩ := Action.runIn_bind_eq_ok.1 h
    obtain ⟨-, rfl⟩ := Guard.runIn_require_eq_ok.1 hrequire
    rw [Action.runIn_bind_ok (Action.runIn_record _)] at h
    obtain ⟨n, w₃, hdelete, h⟩ := Action.runIn_bind_eq_ok.1 h
    rw [Action.runIn_bind_ok (Action.runIn_record _)] at h
    obtain ⟨hb, rfl⟩ := Action.runIn_pure_eq_ok.1 h
    refine .inr ⟨e, w₁, n, _, w₃, hfind, ?_, hdelete, rfl, hb.symm⟩
    exact hstore

theorem delete_eq_true (hT : sv.catalog.table m = .ok T) (ht : w.store.table T = .ok t)
    (h : (sv.delete caller m id).runIn w = (.ok true, w')) :
    ∃ n w₁ w₂, (∃ row ∈ t.rows, t.hasKey id row = true) ∧ w₁.store = w.store ∧
      (Persist.delete T id).runIn w₁ = (.ok n, w₂) ∧ w'.store = w₂.store := by
  obtain ⟨U, hU, ⟨hb, -⟩ | ⟨e, w₀, n, w₁, w₂, hfind, hstore, hdelete, hstore', -⟩⟩ := delete_eq_ok h
  · cases hb
  · obtain rfl : T = U := Except.ok.inj (hT.symm.trans hU)
    exact ⟨n, w₁, w₂, (exists_row_of_find hT ht hfind).2, hstore, hdelete, hstore'⟩

end Steps

/-- A creation adds one row behind the others, an update that finds its row changes that row alone,
and a deletion that finds its row removes that row alone; then the links that the input names are
synced. The key of the new row is the next one of the table, and thus fresh where the counter is
beyond the ids. -/
theorem mutations_effect (sv : Service) (hT : sv.catalog.table m = .ok T)
    (ht : w.store.table T = .ok t) (hnumbered : t.Numbered) (hsep : sv.catalog.Separate m)
    (hnames : (entries.map (·.1)).Nodup) (caller : Caller) (w' : World) :
    (∀ selection v, (sv.create caller m (.object entries) selection).runIn w = (.ok v, w') →
      ∃ row next relations, (t.Ahead → ∀ old ∈ t.rows, t.hasKey t.nextKey old = false) ∧
        Created sv.catalog m entries t row ∧ Named sv.catalog m true entries relations ∧
        WritesThenSyncs T { t with rows := t.rows ++ [row], nextKey := next } t.nextKey relations
          w.store w'.store) ∧
    (∀ id, (sv.update caller m id (.object entries)).runIn w = (.ok true, w') →
      ∃ before row after row' relations, t.rows = before ++ row :: after ∧
        t.hasKey id row = true ∧ (∀ other ∈ before ++ after, t.hasKey id other = false) ∧
        Changed sv.catalog m entries t row row' ∧ Named sv.catalog m false entries relations ∧
        WritesThenSyncs T { t with rows := before ++ row' :: after } id relations
          w.store w'.store) ∧
    (∀ id, (sv.delete caller m id).runIn w = (.ok true, w') →
      ∃ before row after, t.rows = before ++ row :: after ∧
        t.hasKey id row = true ∧ (∀ other ∈ before ++ after, t.hasKey id other = false) ∧
        w'.store.table
          = Function.update w.store.table T (.ok { t with rows := before ++ after })) := by
  refine ⟨fun selection v h => ?_, fun id h => ?_, fun id h => ?_⟩
  · obtain ⟨changes, U, id, w₁, w₂, hparse, hU, hstore, hinsert, hsyncs⟩ := create_eq_ok h
    obtain rfl : T = U := Except.ok.inj (hT.symm.trans hU)
    obtain ⟨-, hlinks, -⟩ := Changes.parse_spec hsep.distinct hnames hparse
    -- no entry sets the ids, so the table numbers the new row
    have hgiven : changes.attributes.get? idName = none :=
      (Changes.get?_of_parse_eq_none hparse).2 fun _ _ _ hsets => hsets.ne_id hsep rfl
    rw [← hstore] at ht ⊢
    obtain ⟨rfl, hcolumns, next, htable⟩ := Persist.table_of_insert ht hnumbered hgiven hinsert
    refine ⟨_, next, changes.relations, fun hahead old hold => ?_,
      created_of_parse hsep hnames hnumbered hparse hcolumns, hlinks, w₂.store, htable, hsyncs⟩
    by_contra hkey
    exact Int64.lt_irrefl (hahead old hold t.nextKey (by simpa using hkey))
  · obtain ⟨changes, n, w₁, w₂, hparse, ⟨row, hrow, hid⟩, hstore, hupdate, hsyncs⟩ :=
      update_eq_true hT ht h
    -- the row that was found is the only one that the statement marks
    obtain ⟨before, after, hrows, hothers⟩ := hnumbered.split hrow hid
    obtain ⟨-, hlinks, -⟩ := Changes.parse_spec hsep.distinct hnames hparse
    rw [← hstore] at ht ⊢
    obtain ⟨hplaces, htable⟩ :=
      Persist.table_of_update ht hnumbered hrows hid hothers hupdate
    exact ⟨before, row, after, _, changes.relations, hrows, hid, hothers,
      changed_of_parse hsep hnames (hnumbered.full row hrow) hparse hplaces, hlinks, w₂.store,
      htable, hsyncs⟩
  · obtain ⟨n, w₁, w₂, ⟨row, hrow, hid⟩, hstore, hdelete, hstore'⟩ := delete_eq_true hT ht h
    obtain ⟨before, after, hrows, hothers⟩ := hnumbered.split hrow hid
    rw [← hstore] at ht ⊢
    refine ⟨before, row, after, hrows, hid, hothers, ?_⟩
    rw [hstore']
    exact Persist.table_of_delete ht hnumbered hrows hid hothers hdelete

/-- A service that may change everything about the books of a catalog. -/
def library (c : Catalog) : Service :=
  Sample.Shelf.service c Sample.Shelf.book Policy.allowAll

/-- An input that gives a book to the second author and takes its title away. -/
def adoption : List (String × Literal) :=
  [("author", .int 2), ("title", .null)]

theorem mutations_effect_adoption :
    ∃ before row after row' relations, Sample.Shelf.books.rows = before ++ row :: after ∧
      Sample.Shelf.books.hasKey 3 row = true ∧
      (∀ other ∈ before ++ after, Sample.Shelf.books.hasKey 3 other = false) ∧
      Changed Sample.Shelf.catalog Sample.Shelf.book adoption Sample.Shelf.books row row' ∧
      Named Sample.Shelf.catalog Sample.Shelf.book false adoption relations ∧
      WritesThenSyncs "books" { Sample.Shelf.books with rows := before ++ row' :: after } 3
        relations Sample.Shelf.store
        (((library Sample.Shelf.catalog).update none Sample.Shelf.book 3
          (.object adoption)).runIn ⟨Sample.Shelf.store, []⟩).2.store := by
  have hruns : (((library Sample.Shelf.catalog).update none Sample.Shelf.book 3
      (.object adoption)).runIn ⟨Sample.Shelf.store, []⟩).1.toOption = some true := by
    decide +kernel
  have hnumbered : Sample.Shelf.books.Numbered :=
    Table.Numbered.of_ids [1, 2, 3] (by decide) (by decide) (by decide) rfl (by decide)
  have hseparate : Sample.Shelf.catalog.Separate Sample.Shelf.book :=
    Catalog.separate_of_separates (by decide +kernel)
  exact (mutations_effect (library Sample.Shelf.catalog) rfl rfl hnumbered hseparate (by decide)
    none _).2.1 3 (Action.runIn_eq_ok_of_toOption hruns)

/-- Authors whose books hold the key of their author in the column of their ids. -/
def idCatalog : Catalog :=
  ⟨Sample.Shelf.catalog.definitions.modifyHead fun d => { d with relations :=
    [⟨"books", .hasMany (some "id")⟩] }⟩

/-- The database of two authors and one book. -/
def idStore : Store := ⟨[Sample.Shelf.authors, Persist.oneBook]⟩

/-- The gift of the one book to the second author. -/
def give : Action Bool :=
  (library idCatalog).update none Sample.Shelf.author 2 (.object [("books", .list [.int 1])])

/-- The creation of another book. -/
def another : Action (Option FieldValue) :=
  (library idCatalog).create none Sample.Shelf.book (.object [("title", .string "Learning!")])
    ⟨"createBook", "createBook", [], []⟩

/-- The number of books, and the number of those with an id. -/
def books (s : Store) (id : Int64) : Option (Nat × Nat) :=
  (s.table "books").toOption.map fun t => (t.rows.length, t.rows.countP (t.hasKey id))

/-- A book that takes the key of its author as its id is ahead of the counter, and the next book
gets the same id. -/
theorem create_id_taken :
    Persist.oneBook.Numbered ∧ idCatalog.Separate Sample.Shelf.book ∧ ∃ w₁ v w₂,
      give.runIn ⟨idStore, []⟩ = (.ok true, w₁) ∧ books w₁.store 2 = some (1, 1) ∧
      another.runIn w₁ = (.ok v, w₂) ∧ books w₂.store 2 = some (2, 2) := by
  have hnumbered : Persist.oneBook.Numbered :=
    Table.Numbered.of_ids [1] (by decide) (by decide) (by decide) rfl (by decide)
  refine ⟨hnumbered, Catalog.separate_of_separates (by decide +kernel), ?_⟩
  have hruns : (give.runIn ⟨idStore, []⟩).1.toOption = some true ∧
      books (give.runIn ⟨idStore, []⟩).2.store 2 = some (1, 1) ∧
      (another.runIn (give.runIn ⟨idStore, []⟩).2).1.toOption.isSome = true ∧
      books (another.runIn (give.runIn ⟨idStore, []⟩).2).2.store 2 = some (2, 2) := by
    decide +kernel
  obtain ⟨hok, hone, hok', htwo⟩ := hruns
  obtain ⟨v, hv⟩ := Option.isSome_iff_exists.1 hok'
  exact ⟨_, v, _, Action.runIn_eq_ok_of_toOption hok, hone, Action.runIn_eq_ok_of_toOption hv, htwo⟩

end Service

end EntityGraph
