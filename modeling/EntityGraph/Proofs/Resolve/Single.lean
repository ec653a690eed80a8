import EntityGraph.Proofs.Resolve.Effect

/-!
# Relations to one target that holds the key

The rows of a table hold the keys of owners, and no two of them the key of one owner, as long as
targets are given from the owner's side. A target that names its owner itself may break this.

* `Table.Exclusive` is a table in which no two rows hold the key of one owner, and whose ids are
  distinct and used up;
* `Table.Exclusive.updated`, `Table.Exclusive.inserted` and `Table.Exclusive.relinked` say which
  changes of a table keep this;
* `Service.Runs` is a run of mutations, and `Service.hasOne_exclusive` the result.
-/

namespace EntityGraph

namespace Table

/-- The ids in a table are integers, distinct, and below the counter. -/
structure Counted (t : Table) : Prop extends t.Numbered where
  ids : ∀ row ∈ t.rows, ∃ id, t.datum idName row = .int id ∧ id < t.nextKey

/-- No two rows of a table hold the key of one owner. -/
structure Exclusive (t : Table) (key : String) : Prop extends t.Counted where
  default : ∀ spec ∈ t.schema, spec.name = key → spec.default = .null
  sole : ∀ owner, t.rows.countP (t.isAt key owner) ≤ 1

variable {t : Table} {row : Row} {key key' column : String} {owner other id : Int64} {d : Datum}
  {targets : List Int64} {assignments : List (String × Datum)}

theorem Counted.countP_le (h : t.Counted) (id : Int64) : t.rows.countP (t.hasKey id) ≤ 1 := by
  rw [List.countP_eq_length_filter]
  exact h.unique id

theorem isAt_setDatum (hrow : row.length = t.schema.length)
    (h : t.isAt key owner (t.setDatum key d row) = true) : d.equals (.int owner) = true := by
  cases hplace : t.place? key with
  | none =>
    rw [isAt, datum_eq_null hplace] at h
    cases h
  | some i => rwa [isAt, datum_setDatum hrow hplace] at h

/-- A key that a row holds after data were set in it is among them, or was there before. -/
theorem isAt_foldl_setDatum (hrow : row.length = t.schema.length)
    (h : t.isAt key owner (assignments.foldl (fun row a => t.setDatum a.1 a.2 row) row) = true) :
    (∃ d, (key, d) ∈ assignments ∧ d.equals (.int owner) = true) ∨ t.isAt key owner row = true := by
  induction assignments generalizing row with
  | nil => exact .inr h
  | cons a assignments ih =>
    obtain ⟨name, d⟩ := a
    rcases ih (by rw [length_setDatum, hrow]) h with ⟨d', hd', hequals⟩ | hat
    · exact .inl ⟨d', List.mem_cons_of_mem _ hd', hequals⟩
    · by_cases hname : name = key
      · subst hname
        exact .inl ⟨d, List.mem_cons_self, isAt_setDatum hrow hat⟩
      · rw [isAt, datum_setDatum_of_ne (Ne.symm hname)] at hat
        exact .inr hat

theorem datum_foldl_setDatum_of_ne (h : ∀ a ∈ assignments, a.1 ≠ column) :
    t.datum column (assignments.foldl (fun row a => t.setDatum a.1 a.2 row) row)
      = t.datum column row := by
  induction assignments generalizing row with
  | nil => rfl
  | cons a assignments ih =>
    rw [List.foldl_cons, ih fun b hb => h b (List.mem_cons_of_mem a hb),
      datum_setDatum_of_ne (h a List.mem_cons_self).symm]

/-- What holds the key of the owner after a sync was listed. -/
theorem isAt_relink_self (hrow : row.length = t.schema.length) (hne : key ≠ idName)
    (hid : t.datum idName row = .int id)
    (h : t.isAt key owner (t.relink key owner targets row) = true) : id ∈ targets := by
  by_contra hmem
  have hid' : t.datum idName (t.free key owner targets row) = .int id := by
    unfold free
    split_ifs
    · rw [datum_setDatum_of_ne hne.symm, hid]
    · exact hid
  rw [relink, link, isIn_of_int hid', if_neg (by simpa using hmem), free,
    isOutside_of_int hid] at h
  split_ifs at h with hfree
  · cases isAt_setDatum hrow h
  · simp only [h, hmem, not_false_eq_true, decide_true, Bool.and_self] at hfree
    exact hfree trivial

/-- A sync gives no key but that of its owner. -/
theorem isAt_relink_of_ne (hrow : row.length = t.schema.length) (hne : owner ≠ other)
    (h : t.isAt key other (t.relink key owner targets row) = true) :
    t.isAt key other row = true := by
  have hfree : t.isAt key other (t.free key owner targets row) = true := by
    rw [relink, link] at h
    split_ifs at h
    · have hequals := isAt_setDatum (length_free.trans hrow) h
      rw [Datum.equals_int, decide_eq_true_eq] at hequals
      exact absurd hequals hne
    · exact h
  rw [free] at hfree
  split_ifs at hfree
  · cases isAt_setDatum hrow hfree
  · exact hfree

namespace Exclusive

/-- Rows may be changed where they keep their ids and no owner comes to have two of them. -/
theorem map {f : Row → Row} (h : t.Exclusive key) (hlength : ∀ row, (f row).length = row.length)
    (hid : ∀ row ∈ t.rows, t.datum idName (f row) = t.datum idName row)
    (hsole : ∀ owner, t.rows.countP (fun row => t.isAt key owner (f row)) ≤ 1) :
    Exclusive { t with rows := t.rows.map f } key := by
  have hfull : ∀ row ∈ t.rows, (f row).length = t.schema.length := fun row hrow =>
    (hlength row).trans (h.full row hrow)
  refine ⟨⟨⟨?_, h.has, h.serial, fun id => ?_⟩, ?_⟩, h.default, fun owner => ?_⟩
  · exact List.forall_mem_map.2 hfull
  · have hkeys : (t.rows.map f).countP (t.hasKey id) = t.rows.countP (t.hasKey id) := by
      rw [List.countP_map]
      refine List.countP_congr fun row hrow => ?_
      rw [Function.comp_apply, hasKey_eq h.has (hfull row hrow), hasKey_eq h.has (h.full row hrow),
        isAt, isAt, hid row hrow]
    show ((t.rows.map f).filter (t.hasKey id)).length ≤ 1
    rw [← List.countP_eq_length_filter, hkeys]
    exact h.countP_le id
  · refine List.forall_mem_map.2 fun row hrow => ?_
    obtain ⟨id, hrowid, hlt⟩ := h.ids row hrow
    exact ⟨id, (hid row hrow).trans hrowid, hlt⟩
  · show (t.rows.map f).countP (t.isAt key owner) ≤ 1
    rw [List.countP_map]
    exact hsole owner

/-- Rows may be removed. -/
theorem sublist {rows : List Row} (h : t.Exclusive key) (hrows : rows.Sublist t.rows) :
    Exclusive { t with rows } key := by
  refine ⟨⟨⟨?_, h.has, h.serial, fun id => ?_⟩, ?_⟩, h.default, fun owner => ?_⟩
  · exact fun row hrow => h.full row (hrows.subset hrow)
  · exact (hrows.filter _).length_le.trans (h.unique id)
  · exact fun row hrow => h.ids row (hrows.subset hrow)
  · exact (hrows.countP_le).trans (h.sole owner)

/-- A row may be added under the next key if it holds the key of no owner who has a row. -/
theorem append {next : Int64} (h : t.Exclusive key) (hrow : row.length = t.schema.length)
    (hid : t.datum idName row = .int t.nextKey) (hnext : t.nextKey < next)
    (hnew : ∀ owner, t.isAt key owner row = true → ∀ old ∈ t.rows, t.isAt key owner old = false) :
    Exclusive { t with rows := t.rows ++ [row], nextKey := next } key := by
  have hone : ∀ p : Row → Bool, (p row = true → ∀ old ∈ t.rows, p old = false) →
      t.rows.countP p ≤ 1 → (t.rows ++ [row]).countP p ≤ 1 := by
    intro p hp hle
    rw [List.countP_append, List.countP_singleton]
    split_ifs with hrow
    · rw [List.countP_eq_zero.2 fun old hold => by simp [hp hrow old hold]]
    · exact hle
  have hkey : ∀ id, t.hasKey id row = true → id = t.nextKey := fun id hat => by
    rw [hasKey_eq h.has hrow, isAt, hid, Datum.equals_int, decide_eq_true_eq] at hat
    exact hat.symm
  refine ⟨⟨⟨?_, h.has, h.serial, fun id => ?_⟩, ?_⟩, h.default, fun owner => ?_⟩
  · exact List.forall_mem_append.2 ⟨h.full, List.forall_mem_singleton.2 hrow⟩
  · show ((t.rows ++ [row]).filter (t.hasKey id)).length ≤ 1
    rw [← List.countP_eq_length_filter]
    refine hone _ (fun hat old hold => ?_) (h.countP_le id)
    obtain ⟨id', hold', hlt⟩ := h.ids old hold
    rw [hasKey_eq h.has (h.full old hold), isAt, hold', Datum.equals_int, hkey id hat]
    exact decide_eq_false fun heq => Int64.lt_irrefl (heq ▸ hlt)
  · refine List.forall_mem_append.2 ⟨fun old hold => ?_, List.forall_mem_singleton.2 ?_⟩
    · obtain ⟨id, hold', hlt⟩ := h.ids old hold
      exact ⟨id, hold', Int64.lt_trans hlt hnext⟩
    · exact ⟨t.nextKey, hid, hnext⟩
  · exact hone _ (hnew owner) (h.sole owner)

/-- A sync keeps to it if it writes another column, or has one target at most. -/
theorem relinked (h : t.Exclusive key) (hne : key' ≠ idName)
    (hone : key' = key → targets.length ≤ 1) :
    (t.relinked key' owner targets).Exclusive key := by
  refine h.map (fun _ => length_relink) (fun row _ => datum_relink_of_ne hne.symm) fun other => ?_
  by_cases hkey : key' = key
  swap
  · refine le_trans (le_of_eq (List.countP_congr fun row _ => ?_)) (h.sole other)
    rw [isAt, datum_relink_of_ne (Ne.symm hkey), isAt]
  subst hkey
  by_cases hother : owner = other
  swap
  · refine (List.countP_mono_left fun row hrow hat => ?_).trans (h.sole other)
    exact isAt_relink_of_ne (h.full row hrow) hother hat
  subst hother
  -- the one listed id is the id of at most one row
  obtain ⟨listed, hlisted⟩ : ∃ listed, ∀ id ∈ targets, id = listed := by
    cases targets with
    | nil => exact ⟨0, by simp⟩
    | cons listed rest =>
      have hrest : rest = [] := by simpa using hone rfl
      exact ⟨listed, by simp [hrest]⟩
  refine (List.countP_mono_left fun row hrow hat => ?_).trans (h.countP_le listed)
  obtain ⟨id, hid, -⟩ := h.ids row hrow
  have hmem := isAt_relink_self (h.full row hrow) hne hid hat
  rw [hasKey_eq h.has (h.full row hrow), isAt, hid, Datum.equals_int, hlisted id hmem]
  exact decide_eq_true rfl

/-- An update of the row of an id keeps to it if it gives no key that another row holds. -/
theorem updated (h : t.Exclusive key) (hids : ∀ a ∈ assignments, a.1 ≠ idName)
    (hfree : ∀ d owner, (key, d) ∈ assignments → d.equals (.int owner) = true →
      ∀ row ∈ t.rows, t.isAt key owner row = true → t.hasKey id row = true) :
    Exclusive { t with rows := t.rows.map fun row => if t.hasKey id row then
      assignments.foldl (fun row a => t.setDatum a.1 a.2 row) row else row } key := by
  refine h.map (fun row => ?_) (fun row _ => ?_) fun owner => ?_
  · split_ifs
    · exact length_foldl_setDatum
    · rfl
  · split_ifs
    · exact datum_foldl_setDatum_of_ne hids
    · rfl
  · by_cases hgiven : ∃ d, (key, d) ∈ assignments ∧ d.equals (.int owner) = true
    · obtain ⟨d, hd, hequals⟩ := hgiven
      refine (List.countP_mono_left fun row hrow hat => ?_).trans (h.countP_le id)
      split_ifs at hat with hkey
      · exact hkey
      · exact hfree d owner hd hequals row hrow hat
    · refine (List.countP_mono_left fun row hrow hat => ?_).trans (h.sole owner)
      split_ifs at hat
      · exact (isAt_foldl_setDatum (h.full row hrow) hat).resolve_left hgiven
      · exact hat

/-- A new row keeps to it if no other row holds the key that is given. -/
theorem inserted {given : String → Option Datum} {next : Int64} (h : t.Exclusive key)
    (hne : key ≠ idName) (hnext : t.nextKey < next)
    (hfree : ∀ d owner, given key = some d → d.equals (.int owner) = true →
      ∀ row ∈ t.rows, t.isAt key owner row = false) :
    Exclusive { t with rows := t.rows ++ [t.schema.map (t.newDatum given)], nextKey := next }
      key := by
  have hdatum : ∀ {column : String} {i : Nat}, t.place? column = some i → ∃ spec ∈ t.schema,
      spec.name = column ∧
        t.datum column (t.schema.map (t.newDatum given)) = t.newDatum given spec := by
    intro column i hi
    obtain ⟨spec, hspec, hname⟩ := exists_spec_of_place? hi
    refine ⟨spec, List.mem_of_getElem? hspec, hname, ?_⟩
    rw [datum, hi, Option.bind_some, List.getElem?_map, hspec]
    rfl
  refine h.append (List.length_map _) ?_ hnext fun owner hat old hold => ?_
  · obtain ⟨i, hi⟩ := exists_place?_of_has h.has
    obtain ⟨spec, hspec, hname, hrow⟩ := hdatum hi
    rw [hrow, newDatum, if_pos ((h.serial spec hspec).2 hname)]
  · cases hi : t.place? key with
    | none =>
      rw [isAt, datum_eq_null hi] at hat
      cases hat
    | some i =>
      obtain ⟨spec, hspec, hname, hrow⟩ := hdatum hi
      have htype : spec.type ≠ .serial := fun hserial =>
        hne (hname ▸ (h.serial spec hspec).1 hserial)
      rw [isAt, hrow, newDatum, if_neg htype, hname, h.default spec hspec hname] at hat
      cases hgiven : given key with
      | none =>
        rw [hgiven] at hat
        cases hat
      | some d =>
        rw [hgiven] at hat
        exact hfree d owner hgiven hat old hold

end Exclusive

end Table

namespace Persist

variable {w w' : World} {t t' : Table} {T U key : String} {id : Int64} {attributes : Record}
  {n : Nat}

theorem table_insert_of_ne (hne : T ≠ U) (h : (insert U attributes).runIn w = (.ok id, w')) :
    w'.store.table T = w.store.table T := by
  obtain ⟨keys, w₁, hinsert, hkey⟩ := Action.runIn_bind_eq_ok.1 h
  rw [Action.runIn_insert, Prod.mk.injEq] at hinsert
  obtain ⟨-, rfl⟩ := hinsert
  have hw : w'.store = (w.store.insert ⟨U, attributes.keys, [attributes.values]⟩).1 := by
    cases keys with
    | nil => cases hkey
    | cons k rest =>
      obtain ⟨-, rfl⟩ := Action.runIn_pure_eq_ok.1 hkey
      rfl
  rw [hw]
  exact Store.table_insert_of_ne hne

theorem table_update_of_ne (hne : T ≠ U) (h : (update U id attributes).runIn w = (.ok n, w')) :
    w'.store.table T = w.store.table T := by
  unfold update at h
  split_ifs at h with hempty
  · obtain ⟨-, rfl⟩ := Action.runIn_pure_eq_ok.1 h
    rfl
  · obtain ⟨s₁, hupdate, rfl⟩ := Action.runIn_update_eq_ok.1 h
    exact Store.table_update_of_ne hne hupdate

theorem table_delete_of_ne (hne : T ≠ U) (h : (delete U id).runIn w = (.ok n, w')) :
    w'.store.table T = w.store.table T := by
  obtain ⟨s₁, hdelete, rfl⟩ := Action.runIn_delete_eq_ok.1 h
  exact Store.table_delete_of_ne hne hdelete

section Exclusive

variable (ht : w.store.table T = .ok t) (h : t.Exclusive key)

include ht h

theorem exclusive_of_insert (hne : key ≠ idName) (hgiven : attributes.get? idName = none)
    (hfree : ∀ d owner, attributes.get? key = some d → d.equals (.int owner) = true →
      ∀ row ∈ t.rows, t.isAt key owner row = false)
    (hinsert : (insert T attributes).runIn w = (.ok id, w')) :
    ∃ t', w'.store.table T = .ok t' ∧ t'.Exclusive key := by
  obtain ⟨rfl, -, next, hnext, htable⟩ := numbered_of_insert ht h.toNumbered hgiven hinsert
  have ht' := congrFun htable T
  rw [Function.update_self] at ht'
  exact ⟨_, ht', h.inserted hne hnext hfree⟩

theorem exclusive_of_update (hids : ∀ a ∈ attributes.entries, a.1 ≠ idName)
    (hfree : ∀ d owner, (key, d) ∈ attributes.entries → d.equals (.int owner) = true →
      ∀ row ∈ t.rows, t.isAt key owner row = true → t.hasKey id row = true)
    (hupdate : (update T id attributes).runIn w = (.ok n, w')) :
    ∃ t', w'.store.table T = .ok t' ∧ t'.Exclusive key := by
  unfold update at hupdate
  split_ifs at hupdate with hempty
  · obtain ⟨-, rfl⟩ := Action.runIn_pure_eq_ok.1 hupdate
    exact ⟨t, ht, h⟩
  · obtain ⟨s₁, hrun, rfl⟩ := Action.runIn_update_eq_ok.1 hupdate
    have hentries : attributes.entries ≠ [] := by simpa [Dict.isEmpty] using hempty
    obtain ⟨u, hu, -, -, rfl, -⟩ := (Store.update_eq_ok hentries).1 hrun
    obtain rfl : t = u := Except.ok.inj (ht.symm.trans hu)
    obtain rfl := (Store.mem_of_table ht).2
    refine ⟨_, Store.table_replace_self ht, ?_⟩
    have hrows : w.store.rewritten t [hasId id] (fun row =>
        attributes.entries.foldl (fun row a => t.setDatum a.1 a.2 row) row)
          = { t with rows := t.rows.map fun row => if t.hasKey id row then
              attributes.entries.foldl (fun row a => t.setDatum a.1 a.2 row) row else row } := by
      refine congrArg (fun rows => { t with rows }) (List.map_congr_left fun row hrow => ?_)
      rw [holds_hasId h.toNumbered hrow]
    exact hrows ▸ h.updated hids hfree

theorem exclusive_of_delete (hdelete : (delete T id).runIn w = (.ok n, w')) :
    ∃ t', w'.store.table T = .ok t' ∧ t'.Exclusive key := by
  obtain ⟨s₁, hrun, rfl⟩ := Action.runIn_delete_eq_ok.1 hdelete
  obtain ⟨u, hu, -, rfl, -⟩ := Store.delete_eq_ok.1 hrun
  obtain rfl : t = u := Except.ok.inj (ht.symm.trans hu)
  obtain rfl := (Store.mem_of_table ht).2
  exact ⟨_, Store.table_replace_self ht, h.sublist List.filter_sublist⟩

end Exclusive

end Persist

namespace Relation

/-- The column of a table in which the syncs of a relation write the keys of owners. -/
def keyIn (r : Relation) (T : String) : Option String :=
  if r.targetTable = T then
    match r.link with
    | .hasOne key => some key
    | .hasMany key => some key
    | _ => none
  else none

/-- The table of pairs of a relation. -/
def pivot? (r : Relation) : Option String :=
  match r.link with
  | .belongsToMany pivot _ _ => some pivot
  | _ => none

end Relation

namespace Catalog

/-- The relations behind the properties of all models. -/
def relations (c : Catalog) : List Relation :=
  c.definitions.flatMap fun d => match c.describe d.id with
    | .ok properties => properties.filterMap fun p => (c.relation d.id p.name).toOption
    | .error _ => []

variable {c : Catalog} {m : ModelId} {name T : String} {r : Relation}

theorem exists_definition (h : c.table m = .ok T) :
    ∃ d ∈ c.definitions, d.id = m ∧ d.tableName = T := by
  simp only [table, definition, bind_eq_ok, pure_eq_ok] at h
  obtain ⟨d, hd, rfl⟩ := h
  have hfind := elim_error_eq_ok.1 hd
  exact ⟨d, List.mem_of_find?_eq_some hfind, by simpa using List.find?_some hfind, rfl⟩

theorem mem_relations (h : c.relation m name = .ok r) : r ∈ c.relations := by
  have h' := h
  simp only [relation, property, findProperty, bind_eq_ok] at h'
  obtain ⟨p, ⟨properties, hdescribe, hp⟩, -⟩ := h'
  obtain ⟨d, hd, rfl⟩ := exists_definition_of_describe hdescribe
  have hfind := elim_error_eq_ok.1 hp
  obtain rfl : p.name = name := by simpa using List.find?_some hfind
  refine List.mem_flatMap.2 ⟨d, hd, ?_⟩
  rw [hdescribe]
  exact List.mem_filterMap.2 ⟨p, List.mem_of_find?_eq_some hfind, by rw [h]; rfl⟩

/-- Where relations keep their keys, a column of a table is kept for the keys of owners with one
target each: no relation stores pairs in the table, or keys of owners in its ids, and those in the
column belong to relations to one target. The properties of the models of the table stand in columns
of their own. -/
structure Reserves (c : Catalog) (T key : String) : Prop where
  separate : ∀ d ∈ c.definitions, d.tableName = T → c.Separate d.id
  keys : ∀ r ∈ c.relations, ∀ key', r.keyIn T = some key' →
    key' ≠ idName ∧ (key' = key → r.link = .hasOne key)
  pairs : ∀ r ∈ c.relations, r.pivot? ≠ some T

theorem Reserves.separate_of_table {c : Catalog} {T key : String} {m : ModelId}
    (h : c.Reserves T key) (hm : c.table m = .ok T) : c.Separate m := by
  obtain ⟨d, hd, rfl, hT⟩ := exists_definition hm
  exact h.separate d hd hT

end Catalog

/-- What is no list stands for one key at most. -/
theorem Changes.length_keys_le {name : String} {l : Literal} {targets : List Int64}
    (h : keys name l = .ok targets) (hlist : ∀ items, l ≠ .list items) : targets.length ≤ 1 := by
  unfold keys at h
  split at h
  · cases h
    exact Nat.zero_le 1
  next items => exact absurd rfl (hlist items)
  · obtain ⟨k, -, hk⟩ := bind_eq_ok.1 h
    cases hk
    exact Nat.le_refl 1

namespace Service

open Changes (Sets Links)

/-- A mutation with its input, and what is selected from what it creates. -/
inductive Mutation where
  | create (m : ModelId) (entries : List (String × Literal)) (selection : Selection)
  | update (m : ModelId) (id : Int64) (entries : List (String × Literal))
  | delete (m : ModelId) (id : Int64)

namespace Mutation

/-- The model that a mutation is about. -/
def model : Mutation → ModelId
  | create m _ _ => m
  | update m _ _ => m
  | delete m _ => m

/-- The entries of the input. -/
def entries : Mutation → List (String × Literal)
  | create _ entries _ => entries
  | update _ _ entries => entries
  | delete _ _ => []

/-- Whether the input is that of a creation, where nulls mean nothing. -/
def isCreation : Mutation → Bool
  | create _ _ _ => true
  | _ => false

/-- A mutation succeeds. -/
def Succeeds (sv : Service) (caller : Caller) (w w' : World) : Mutation → Prop
  | create m entries selection =>
    ∃ v, (sv.create caller m (.object entries) selection).runIn w = (.ok v, w')
  | update m id entries => ∃ b, (sv.update caller m id (.object entries)).runIn w = (.ok b, w')
  | delete m id => ∃ b, (sv.delete caller m id).runIn w = (.ok b, w')

/-- The entries of the input have different names, and those of relations to one target are no
lists. -/
def Fits (c : Catalog) (μ : Mutation) : Prop :=
  (μ.entries.map (·.1)).Nodup ∧ ∀ entry ∈ μ.entries, ∀ r, c.relation μ.model entry.1 = .ok r →
    r.link.isToOne = true → ∀ items, entry.2 ≠ .list items

/-- The input writes the key of an owner into a column of its own row. -/
def Claims (c : Catalog) (key : String) (owner : Int64) (μ : Mutation) : Prop :=
  ∃ entry ∈ μ.entries, ∃ d, Sets c μ.model μ.isCreation entry key d ∧ d.equals (.int owner) = true

/-- A mutation changes a row. -/
def IsAbout (t : Table) (row : Row) : Mutation → Prop
  | update _ id _ => t.hasKey id row = true
  | _ => False

/-- A mutation leaves the rows of a table their owners: no row of it claims for itself an owner who
has another row already. -/
def Yields (c : Catalog) (T key : String) (s : Store) (μ : Mutation) : Prop :=
  c.table μ.model = .ok T → ∀ owner, μ.Claims c key owner → ∀ t, s.table T = .ok t →
    ∀ row ∈ t.rows, t.isAt key owner row = true → μ.IsAbout t row

end Mutation

/-- A run of mutations on behalf of some callers, all of which succeed and meet a condition. -/
def Runs (sv : Service) (ok : Store → Mutation → Prop) :
    List (Caller × Mutation) → World → World → Prop
  | [], w, w' => w' = w
  | (caller, μ) :: rest, w, w' => ok w.store μ ∧
    ∃ w₁, μ.Succeeds sv caller w w₁ ∧ Runs sv ok rest w₁ w'

variable {sv : Service} {c : Catalog} {caller : Caller} {w w₁ w' : World} {s s' : Store} {t : Table}
  {T key : String} {id : Int64} {μ : Mutation} {r : Relation} {targets : List Int64}
  {relations : List (Relation × List Int64)}

theorem Runs.nil {ok : Store → Mutation → Prop} (w : World) : sv.Runs ok [] w w := rfl

theorem Runs.cons {ok : Store → Mutation → Prop} {rest : List (Caller × Mutation)}
    (hok : ok w.store μ) (h : μ.Succeeds sv caller w w₁) (hrest : sv.Runs ok rest w₁ w') :
    sv.Runs ok ((caller, μ) :: rest) w w' :=
  ⟨hok, w₁, h, hrest⟩

theorem exclusive_of_writes (ht : s.table T = .ok t) (h : t.Exclusive key)
    (hpivot : r.pivot? ≠ some T)
    (hkeys : ∀ key', r.keyIn T = some key' → key' ≠ idName ∧ (key' = key → targets.length ≤ 1))
    (hwrites : Persist.Writes r id targets s s') :
    ∃ t', s'.table T = .ok t' ∧ t'.Exclusive key := by
  have hholders : ∀ key', r.link = .hasOne key' ∨ r.link = .hasMany key' →
      Persist.Relinks r.targetTable key' id targets s s' →
        ∃ t', s'.table T = .ok t' ∧ t'.Exclusive key := by
    rintro key' hlink ⟨u, hu, htable⟩
    by_cases hT : r.targetTable = T
    · subst hT
      obtain rfl : t = u := Except.ok.inj (ht.symm.trans hu)
      have hkey' : r.keyIn r.targetTable = some key' := by
        rcases hlink with hlink | hlink <;> simp [Relation.keyIn, hlink]
      obtain ⟨hne, hone⟩ := hkeys key' hkey'
      exact ⟨_, by rw [htable, Function.update_self], h.relinked hne hone⟩
    · exact ⟨t, by rw [htable, Function.update_of_ne (Ne.symm hT), ht], h⟩
  unfold Persist.Writes at hwrites
  cases hlink : r.link with
  | belongsTo key' =>
    rw [hlink] at hwrites
    exact hwrites.elim
  | hasOne key' =>
    rw [hlink] at hwrites
    exact hholders key' (.inl hlink) hwrites
  | hasMany key' =>
    rw [hlink] at hwrites
    exact hholders key' (.inr hlink) hwrites
  | belongsToMany pivot ownerKey relatedKey =>
    rw [hlink] at hwrites
    obtain ⟨p, added, next, -, htable, -⟩ := hwrites
    -- pairs are written to a table of their own
    have hne : T ≠ pivot := fun hT => hpivot (by simp [Relation.pivot?, hlink, hT])
    exact ⟨t, by rw [htable, Function.update_of_ne hne, ht], h⟩

theorem exclusive_of_syncs (ht : s.table T = .ok t) (h : t.Exclusive key)
    (hrelations : ∀ link ∈ relations, link.1.pivot? ≠ some T ∧ ∀ key', link.1.keyIn T = some key' →
      key' ≠ idName ∧ (key' = key → link.2.length ≤ 1))
    (hsyncs : Syncs id relations s s') : ∃ t', s'.table T = .ok t' ∧ t'.Exclusive key := by
  induction relations generalizing s t with
  | nil =>
    have htable : s'.table = s.table := hsyncs
    exact ⟨t, by rw [htable, ht], h⟩
  | cons link rest ih =>
    obtain ⟨r, targets⟩ := link
    obtain ⟨s₁, hwrites, hrest⟩ := hsyncs
    obtain ⟨hpivot, hkeys⟩ := hrelations _ List.mem_cons_self
    obtain ⟨t₁, ht₁, h₁⟩ := exclusive_of_writes ht h hpivot hkeys hwrites
    exact ih ht₁ h₁ (fun link hlink => hrelations link (List.mem_cons_of_mem _ hlink)) hrest

/-- The relations that a fitting input names give an owner one target at most in a reserved
column. -/
theorem fits_relations {changes : Changes} (hc : c.Reserves T key) (hμ : μ.Fits c)
    (h : Changes.parse c μ.model μ.isCreation (.object μ.entries) = .ok changes) :
    ∀ link ∈ changes.relations, link.1.pivot? ≠ some T ∧ ∀ key', link.1.keyIn T = some key' →
      key' ≠ idName ∧ (key' = key → link.2.length ≤ 1) := by
  rintro ⟨r, targets⟩ hlink
  rw [Changes.relations_of_foldlM h] at hlink
  obtain ⟨entry, hentry, -, p, target, hp, -, hr, htargets, -⟩ :=
    Changes.mem_filterMap_linkOf.1 hlink
  have hrelation := Catalog.mem_relations hr
  refine ⟨hc.pairs r hrelation, fun key' hkey' => ?_⟩
  obtain ⟨hne, hone⟩ := hc.keys r hrelation key' hkey'
  refine ⟨hne, fun hkey => ?_⟩
  rw [Changes.name_of_writable hp] at hr
  exact Changes.length_keys_le htargets (hμ.2 entry hentry r hr (by rw [hone hkey]; rfl))

/-- What a fitting input gives to the row of its own entity: no id, and a reserved column only where
it claims an owner. -/
theorem attributes_of_fits {changes : Changes} (hsep : c.Separate μ.model) (hμ : μ.Fits c)
    (h : Changes.parse c μ.model μ.isCreation (.object μ.entries) = .ok changes) :
    changes.attributes.Sorted ∧ (∀ a ∈ changes.attributes.entries, a.1 ≠ idName) ∧
      ∀ d owner, (key, d) ∈ changes.attributes.entries → d.equals (.int owner) = true →
        μ.Claims c key owner := by
  obtain ⟨hattributes, -, hsorted⟩ := Changes.parse_spec hsep.distinct hμ.1 h
  refine ⟨hsorted, fun a ha => ?_, fun d owner hd hequals => ?_⟩
  · obtain ⟨entry, -, hsets⟩ := (hattributes a.1 a.2).1 ha
    exact hsets.ne_id hsep
  · obtain ⟨entry, hentry, hsets⟩ := (hattributes key d).1 hd
    exact ⟨entry, hentry, d, hsets, hequals⟩

section Succeeds

variable (hc : sv.catalog.Reserves T key) (ht : w.store.table T = .ok t) (h : t.Exclusive key)

include hc ht h

theorem exclusive_of_create {m : ModelId} {entries : List (String × Literal)}
    {selection : Selection} (hne : key ≠ idName)
    (hμ : (Mutation.create m entries selection).Fits sv.catalog)
    (hyields : (Mutation.create m entries selection).Yields sv.catalog T key w.store)
    (hsucceeds : (Mutation.create m entries selection).Succeeds sv caller w w') :
    ∃ t', w'.store.table T = .ok t' ∧ t'.Exclusive key := by
  obtain ⟨v, hcreate⟩ := hsucceeds
  obtain ⟨changes, U, id, w₁, w₂, hparse, hU, hstore, hinsert, hsyncs⟩ := create_eq_ok hcreate
  have ht₁ : w₁.store.table T = .ok t := hstore ▸ ht
  obtain ⟨t₂, ht₂, h₂⟩ : ∃ t', w₂.store.table T = .ok t' ∧ t'.Exclusive key := by
    by_cases hTU : T = U
    · subst hTU
      have hsep : sv.catalog.Separate (Mutation.create m entries selection).model :=
        hc.separate_of_table hU
      obtain ⟨hsorted, hids, hclaims⟩ := attributes_of_fits hsep hμ hparse
      refine Persist.exclusive_of_insert ht₁ h hne ?_ (fun d owner hd hequals row hrow => ?_)
        hinsert
      · cases hget : changes.attributes.get? idName with
        | none => rfl
        | some d => exact absurd rfl (hids _ (hsorted.mem_entries.2 hget))
      · by_contra hat
        exact hyields hU owner (hclaims d owner (hsorted.mem_entries.2 hd) hequals) t ht row hrow
          (by simpa using hat)
    · exact ⟨t, (Persist.table_insert_of_ne hTU hinsert).trans ht₁, h⟩
  exact exclusive_of_syncs ht₂ h₂ (fits_relations hc hμ hparse) hsyncs

theorem exclusive_of_update {m : ModelId} {entries : List (String × Literal)}
    (hμ : (Mutation.update m id entries).Fits sv.catalog)
    (hyields : (Mutation.update m id entries).Yields sv.catalog T key w.store)
    (hsucceeds : (Mutation.update m id entries).Succeeds sv caller w w') :
    ∃ t', w'.store.table T = .ok t' ∧ t'.Exclusive key := by
  obtain ⟨b, hupdate⟩ := hsucceeds
  obtain ⟨U, hU, ⟨-, hstore⟩ |
    ⟨-, e, w₀, changes, n, w₁, w₂, -, hparse, hstore, hrow, hsyncs⟩⟩ := update_eq_ok hupdate
  · exact ⟨t, hstore ▸ ht, h⟩
  have ht₁ : w₁.store.table T = .ok t := hstore ▸ ht
  obtain ⟨t₂, ht₂, h₂⟩ : ∃ t', w₂.store.table T = .ok t' ∧ t'.Exclusive key := by
    by_cases hTU : T = U
    · subst hTU
      have hsep : sv.catalog.Separate (Mutation.update m id entries).model :=
        hc.separate_of_table hU
      obtain ⟨-, hids, hclaims⟩ := attributes_of_fits hsep hμ hparse
      exact Persist.exclusive_of_update ht₁ h hids (fun d owner hd hequals =>
        hyields hU owner (hclaims d owner hd hequals) t ht) hrow
    · exact ⟨t, (Persist.table_update_of_ne hTU hrow).trans ht₁, h⟩
  exact exclusive_of_syncs ht₂ h₂ (fits_relations hc hμ hparse) hsyncs

omit hc in
theorem exclusive_of_delete {m : ModelId}
    (hsucceeds : (Mutation.delete m id).Succeeds sv caller w w') :
    ∃ t', w'.store.table T = .ok t' ∧ t'.Exclusive key := by
  obtain ⟨b, hdelete⟩ := hsucceeds
  obtain ⟨U, -, ⟨-, hstore⟩ | ⟨e, w₀, n, w₁, w₂, -, hstore, hrow, hstore', -⟩⟩ :=
    delete_eq_ok hdelete
  · exact ⟨t, hstore ▸ ht, h⟩
  have ht₁ : w₁.store.table T = .ok t := hstore ▸ ht
  rw [hstore']
  by_cases hTU : T = U
  · subst hTU
    exact Persist.exclusive_of_delete ht₁ h hrow
  · exact ⟨t, (Persist.table_delete_of_ne hTU hrow).trans ht₁, h⟩

/-- A mutation that succeeds keeps owners to one row each, if its input does not claim an owner who
has another row. -/
theorem exclusive_of_succeeds (hne : key ≠ idName) (hμ : μ.Fits sv.catalog)
    (hyields : μ.Yields sv.catalog T key w.store) (hsucceeds : μ.Succeeds sv caller w w') :
    ∃ t', w'.store.table T = .ok t' ∧ t'.Exclusive key := by
  cases μ with
  | create m entries selection => exact exclusive_of_create hc ht h hne hμ hyields hsucceeds
  | update m id entries => exact exclusive_of_update hc ht h hμ hyields hsucceeds
  | delete m id => exact exclusive_of_delete ht h hsucceeds

end Succeeds

/-- Over a run of mutations no owner comes to have two targets in a relation to one, unless a target
claims an owner who has another. -/
theorem hasOne_exclusive (sv : Service) {m : ModelId} {name : String}
    {history : List (Caller × Mutation)}
    (hr : sv.catalog.relation m name = .ok r) (hlink : r.link = .hasOne key)
    (hc : sv.catalog.Reserves r.targetTable key) (ht : w.store.table r.targetTable = .ok t)
    (h : t.Exclusive key)
    (hruns : sv.Runs (fun s μ => μ.Fits sv.catalog ∧ μ.Yields sv.catalog r.targetTable key s)
      history w w') :
    ∃ t', w'.store.table r.targetTable = .ok t' ∧ t'.Exclusive key := by
  have hne : key ≠ idName :=
    (hc.keys r (Catalog.mem_relations hr) key (by simp [Relation.keyIn, hlink])).1
  -- each mutation keeps the key exclusive, whichever model it changes
  induction history generalizing w t with
  | nil =>
    obtain rfl : w' = w := hruns
    exact ⟨t, ht, h⟩
  | cons step rest ih =>
    obtain ⟨caller, μ⟩ := step
    obtain ⟨⟨hfits, hyields⟩, w₁, hsucceeds, hrest⟩ := hruns
    obtain ⟨t₁, ht₁, h₁⟩ := exclusive_of_succeeds hc ht h hne hfits hyields hsucceeds
    exact ih ht₁ h₁ hrest

section Desk

open Sample.Shelf (author)

/-- The model of pencils. -/
def pencil : ModelId := ⟨"Pencil"⟩

/-- Authors with one pencil each, and pencils with their author. -/
def deskCatalog : Catalog :=
  ⟨[⟨"Author", "", some "authors",
      "@property int $id\n@property string $name\n@property ?Pencil $pencil",
      [⟨"pencil", .hasOne none⟩], none⟩,
    ⟨"Pencil", "", some "pencils",
      "@property int $id\n@property string $color\n@property ?Author $author", [], none⟩]⟩

/-- The table of pencils. -/
def pencils : Table :=
  ⟨"pencils", [⟨"id", .serial, .null⟩, ⟨"color", .text, .null⟩, ⟨"author_id", .int, .null⟩],
    [[.int 1, .text "red", .int 1], [.int 2, .text "blue", .null]], 3⟩

/-- The database of two authors and two pencils. -/
def deskStore : Store := ⟨[Sample.Shelf.authors, pencils]⟩

/-- A service for authors and pencils. -/
def desk : Service :=
  Sample.Shelf.service deskCatalog author Policy.allowAll

/-- The relation of an author to the pencil. -/
def authorPencil : Relation :=
  ⟨"pencil", "authors", pencil, "pencils", .hasOne "author_id"⟩

theorem exclusive_pencils : pencils.Exclusive "author_id" := by
  have hids : ∀ row ∈ pencils.rows, ∃ id, pencils.datum idName row = .int id ∧ id < 3 := by
    simpa [pencils] using ⟨⟨1, rfl, by decide⟩, 2, rfl, by decide⟩
  refine ⟨⟨Table.Numbered.of_ids [1, 2] (by decide) (by decide) (by decide) rfl (by decide), hids⟩,
    by simp [pencils], fun owner => ?_⟩
  have hfree : pencils.isAt "author_id" owner [.int 2, .text "blue", .null] = false := rfl
  show [[.int 1, .text "red", .int 1], [.int 2, .text "blue", .null]].countP
    (pencils.isAt "author_id" owner) ≤ 1
  rw [List.countP_cons, List.countP_singleton, hfree, if_neg Bool.false_ne_true]
  split_ifs <;> decide

theorem relation_pencil : deskCatalog.relation author "pencil" = .ok authorPencil :=
  eq_ok_of_toOption (by decide +kernel)

theorem reserves_pencils : deskCatalog.Reserves "pencils" "author_id" := by
  have hpencil : deskCatalog.separates pencil = true := by decide +kernel
  have hauthor : deskCatalog.separates author = true := by decide +kernel
  constructor
  · intro d hd _
    rcases List.mem_pair.1 hd with rfl | rfl
    · exact Catalog.separate_of_separates hauthor
    · exact Catalog.separate_of_separates hpencil
  · decide +kernel
  · decide +kernel

/-- The first pencil passes to the second author, and the second pencil to the first. -/
def swap : List (Caller × Mutation) :=
  [(none, .update author 2 [("pencil", .int 1)]), (none, .update pencil 2 [("author", .int 1)])]

/-- The first pencil is given to the second author. -/
def giving : Except Error Bool × World :=
  (desk.update none author 2 (.object [("pencil", .int 1)])).runIn ⟨deskStore, []⟩

/-- Then the second pencil takes the first author. -/
def taking : Except Error Bool × World :=
  (desk.update none pencil 2 (.object [("author", .int 1)])).runIn giving.2

/-- The only owner that a pencil claims by naming the first author is that author. -/
theorem claims_author {μ : Mutation} {owner : Int64} (hm : μ.model = pencil)
    (hentry : ∀ entry ∈ μ.entries, ∀ d, Sets deskCatalog pencil μ.isCreation entry "author_id" d →
      entry = ("author", .int 1))
    (h : μ.Claims deskCatalog "author_id" owner) : owner = 1 := by
  obtain ⟨entry, hmem, d, hsets, hequals⟩ := h
  rw [hm] at hsets
  obtain rfl := hentry entry hmem d hsets
  obtain ⟨-, p, hp, -, hd⟩ := hsets
  have htype : (Changes.writable deskCatalog pencil "author").toOption.map (·.type)
      = some (.model author) := by decide +kernel
  rw [hp] at htype
  have hmodel : p.type = .model author := Option.some.inj htype
  have hkey : Changes.datumOf p (.int 1) = .ok (.int 1) := by
    rw [Changes.datumOf, hmodel]
    rfl
  rw [Except.ok.inj (hd.symm.trans hkey), Datum.equals_int, decide_eq_true_eq] at hequals
  exact hequals.symm

theorem fits_of_ints {μ : Mutation} {c : Catalog} (hnames : (μ.entries.map (·.1)).Nodup)
    (hints : ∀ entry ∈ μ.entries, ∀ items, entry.2 ≠ .list items) : μ.Fits c :=
  ⟨hnames, fun entry hentry _ _ _ => hints entry hentry⟩

theorem hasOne_exclusive_swap :
    ∃ w', desk.Runs (fun s μ => μ.Fits deskCatalog ∧ μ.Yields deskCatalog "pencils" "author_id" s)
      swap ⟨deskStore, []⟩ w' ∧
    ∃ t', w'.store.table "pencils" = .ok t' ∧ t'.Exclusive "author_id" := by
  have hruns : giving.1.toOption = some true ∧ taking.1.toOption = some true ∧
      (giving.2.store.table "pencils").toOption.all (fun t => t.rows.all fun row =>
        !t.isAt "author_id" 1 row || t.hasKey 2 row) = true := by
    decide +kernel
  obtain ⟨hgiving, htaking, hfree⟩ := hruns
  have hgive : (Mutation.update author 2 [("pencil", .int 1)]).Succeeds desk none ⟨deskStore, []⟩
      giving.2 := ⟨true, Action.runIn_eq_ok_of_toOption hgiving⟩
  have htake : (Mutation.update pencil 2 [("author", .int 1)]).Succeeds desk none giving.2
      taking.2 := ⟨true, Action.runIn_eq_ok_of_toOption htaking⟩
  have hyields : (Mutation.update pencil 2 [("author", .int 1)]).Yields deskCatalog "pencils"
      "author_id" giving.2.store := by
    intro _ owner hclaims t ht row hrow hat
    obtain rfl := claims_author rfl (by simp [Mutation.entries]) hclaims
    rw [ht] at hfree
    have hrows := List.all_eq_true.1 hfree row hrow
    rw [hat, Bool.not_true, Bool.false_or] at hrows
    exact hrows
  have hother : (Mutation.update author 2 [("pencil", .int 1)]).Yields deskCatalog "pencils"
      "author_id" deskStore := by
    intro htable
    have hauthors : deskCatalog.table author = .ok "authors" := rfl
    exact absurd (Except.ok.inj (hauthors.symm.trans htable)) (by decide)
  have hrun : desk.Runs (fun s μ => μ.Fits deskCatalog ∧
      μ.Yields deskCatalog "pencils" "author_id" s) swap ⟨deskStore, []⟩ taking.2 :=
    .cons ⟨fits_of_ints (by decide) (by simp [Mutation.entries]), hother⟩ hgive <|
      .cons ⟨fits_of_ints (by decide) (by simp [Mutation.entries]), hyields⟩ htake (.nil _)
  have hkept := hasOne_exclusive desk relation_pencil rfl reserves_pencils rfl exclusive_pencils
    hrun
  exact ⟨taking.2, hrun, hkept⟩

/-- A further pencil of the first author. -/
def further : List (String × Literal) :=
  [("color", .string "green"), ("author", .int 1)]

/-- The creation of a further pencil of the first author. -/
def creating : Except Error (Option FieldValue) × World :=
  (desk.create none pencil (.object further) ⟨"createPencil", "createPencil", [], []⟩).runIn
    ⟨deskStore, []⟩

/-- A pencil that is created for an author who has one is the author's second. -/
theorem hasOne_second_target :
    deskCatalog.relation author "pencil" = .ok authorPencil ∧
    pencils.Exclusive "author_id" ∧
    (Mutation.create pencil further ⟨"createPencil", "createPencil", [], []⟩).Fits deskCatalog ∧
    ∃ w', (Mutation.create pencil further ⟨"createPencil", "createPencil", [], []⟩).Succeeds desk
        none ⟨deskStore, []⟩ w' ∧
      (w'.store.table "pencils").toOption.map (fun t => t.rows.countP (t.isAt "author_id" 1))
        = some 2 := by
  have hruns : creating.1.toOption.isSome = true ∧
      (creating.2.store.table "pencils").toOption.map
        (fun t => t.rows.countP (t.isAt "author_id" 1)) = some 2 := by
    decide +kernel
  obtain ⟨hok, htwo⟩ := hruns
  obtain ⟨v, hv⟩ := Option.isSome_iff_exists.1 hok
  refine ⟨relation_pencil, exclusive_pencils, fits_of_ints (by decide) ?_, creating.2,
    ⟨v, Action.runIn_eq_ok_of_toOption hv⟩, htwo⟩
  simp [Mutation.entries, further]

end Desk

end Service

end EntityGraph
