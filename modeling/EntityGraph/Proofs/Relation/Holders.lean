import EntityGraph.Proofs.Relation.Keys
import EntityGraph.Proofs.Run.Action
import EntityGraph.Proofs.Store.Modify
import EntityGraph.Relation.Persist

/-!
# Syncing targets that hold the key of their owner

A sync sets the former targets of an owner free and gives its key to the listed ones.

* `Table.relink` is what a sync makes of a row, and `Table.relinked` of a table;
* `Persist.table_of_syncHolders` says that a successful sync does this to the table of the targets,
  and `Persist.table_of_syncHolders_error` that a failed one has changed nothing;
* `Table.relinked_relink` says what it means for the keys in the rows, and `Table.relink_relink`
  that a second time changes nothing.
-/

namespace EntityGraph

namespace Store

variable {s : Store} {t : Table} {row : Row} {column : String} {i : Nat}

theorem holds_test_noneOf (schema : List Column) (c : Column) (ds : List Datum) :
    holds (s.test schema row (.noneOf c ds))
      = (!(row.datum schema c).isNull && !ds.any (row.datum schema c).equals) := by
  rw [test, Row.datum]
  cases row.get schema c <;> rfl

section Tests

variable (hrow : row.length = t.schema.length) (h : t.place? column = some i)

include hrow h

theorem test_eq_of_place? (d : Datum) :
    s.test t.columns row (.compare (Column.named column) .eq d)
      = .ok ((t.datum column row).equals d) := by
  rw [test, Table.get_named hrow, h]
  exact Datum.satisfies_eq _ d

theorem test_oneOf_of_place? (ds : List Datum) :
    s.test t.columns row (.oneOf (Column.named column) ds)
      = .ok (ds.any (t.datum column row).equals) := by
  rw [test, Table.get_named hrow, h]
  rfl

theorem test_noneOf_of_place? (ds : List Datum) :
    s.test t.columns row (.noneOf (Column.named column) ds)
      = .ok (!(t.datum column row).isNull && !ds.any (t.datum column row).equals) := by
  rw [test, Table.get_named hrow, h]
  rfl

end Tests

end Store

namespace Table

variable {t : Table} {row : Row} {key : String} {owner id : Int64} {targets : List Int64}

/-- Whether a row holds an integer in a column. -/
def isAt (t : Table) (column : String) (i : Int64) (row : Row) : Bool :=
  (t.datum column row).equals (.int i)

/-- Whether a row holds one of some integers in a column. -/
def isIn (t : Table) (column : String) (is : List Int64) (row : Row) : Bool :=
  (is.map Datum.int).any (t.datum column row).equals

/-- Whether a row holds something in a column that is none of some integers. -/
def isOutside (t : Table) (column : String) (is : List Int64) (row : Row) : Bool :=
  !(t.datum column row).isNull && !t.isIn column is row

/-- A row with the key of an owner set free, if it is a target that is not listed. -/
def free (t : Table) (key : String) (owner : Int64) (targets : List Int64) (row : Row) : Row :=
  if t.isAt key owner row && t.isOutside idName targets row then t.setDatum key .null row else row

/-- A row with the key of an owner, if it is listed. -/
def link (t : Table) (key : String) (owner : Int64) (targets : List Int64) (row : Row) : Row :=
  if t.isIn idName targets row then t.setDatum key (.int owner) row else row

/-- A row which may hold the key of an owner, after the targets were synced. -/
def relink (t : Table) (key : String) (owner : Int64) (targets : List Int64) (row : Row) : Row :=
  t.link key owner targets (t.free key owner targets row)

theorem isAt_of_ofInt? {k : Option Int64} (h : t.datum key row = .ofInt? k) :
    t.isAt key owner row = decide (t.key? key row = some owner) := by
  rw [isAt, key?, h, Datum.ofInt?_equals, Datum.int?_ofInt?, Bool.eq_iff_iff]
  simp

theorem isIn_of_int (h : t.datum key row = .int id) :
    t.isIn key targets row = decide (id ∈ targets) := by
  rw [isIn, h, List.any_map, Bool.eq_iff_iff]
  simp [Datum.equals_int]

theorem isOutside_of_int (h : t.datum key row = .int id) :
    t.isOutside key targets row = decide (id ∉ targets) := by
  rw [isOutside, isIn_of_int h, h]
  simp [Datum.isNull]

@[simp] theorem length_free : (t.free key owner targets row).length = row.length := by
  unfold free
  split_ifs <;> simp

@[simp] theorem length_link : (t.link key owner targets row).length = row.length := by
  unfold link
  split_ifs <;> simp

@[simp] theorem length_relink : (t.relink key owner targets row).length = row.length := by
  rw [relink, length_link, length_free]

/-- A sync writes only keys of owners. -/
theorem getElem?_relink {i : Nat} (h : t.place? key ≠ some i) :
    (t.relink key owner targets row)[i]? = row[i]? := by
  unfold relink link free
  split_ifs <;> simp [getElem?_setDatum h]

theorem datum_relink_of_ne {column : String} (h : column ≠ key) :
    t.datum column (t.relink key owner targets row) = t.datum column row := by
  unfold relink link free
  split_ifs <;> simp [datum_setDatum_of_ne h]

/-- Of a row with an id and a key, both in their own column. -/
theorem relink_eq {k : Option Int64} (hne : key ≠ idName) (hid : t.datum idName row = .int id)
    (hkey : t.datum key row = .ofInt? k) :
    t.relink key owner targets row =
      if id ∈ targets then t.setDatum key (.int owner) row
      else if t.key? key row = some owner then t.setDatum key .null row
      else row := by
  have hid' : t.datum idName (t.setDatum key .null row) = .int id := by
    rw [datum_setDatum_of_ne hne.symm, hid]
  unfold relink link free
  rw [isAt_of_ofInt? hkey, isOutside_of_int hid]
  by_cases hmem : id ∈ targets
  · simp [hmem, isIn_of_int hid]
  · by_cases hheld : t.key? key row = some owner
    · simp [hmem, hheld, isIn_of_int hid']
    · simp [hmem, hheld, isIn_of_int hid]

/-- The table with every row of it set free that should be. -/
def freed (t : Table) (key : String) (owner : Int64) (targets : List Int64) : Table :=
  { t with rows := t.rows.map (t.free key owner targets) }

/-- The table with every listed row linked. -/
def linked (t : Table) (key : String) (owner : Int64) (targets : List Int64) : Table :=
  { t with rows := t.rows.map (t.link key owner targets) }

/-- The table after the targets of an owner were synced in it. -/
def relinked (t : Table) (key : String) (owner : Int64) (targets : List Int64) : Table :=
  { t with rows := t.rows.map (t.relink key owner targets) }

theorem linked_freed (t : Table) (key : String) (owner : Int64) (targets : List Int64) :
    (t.freed key owner targets).linked key owner targets = t.relinked key owner targets := by
  show { t with rows := (t.rows.map (t.free key owner targets)).map (t.link key owner targets) } = _
  rw [List.map_map]
  rfl

theorem freed_nil (t : Table) (key : String) (owner : Int64) :
    t.freed key owner [] = t.relinked key owner [] := rfl

theorem Full.freed (h : t.Full) : (t.freed key owner targets).Full := by
  intro row hrow
  obtain ⟨old, hold, rfl⟩ := List.mem_map.1 hrow
  exact length_free.trans (h old hold)

theorem Full.relinked (h : t.Full) : (t.relinked key owner targets).Full := by
  intro row hrow
  obtain ⟨old, hold, rfl⟩ := List.mem_map.1 hrow
  exact length_relink.trans (h old hold)

/-- Without a column of ids no row is set free. -/
theorem freed_of_place? (h : t.place? idName = none) : t.freed key owner targets = t := by
  have hfree : ∀ row, t.free key owner targets row = row := by
    intro row
    simp [free, isOutside, datum_eq_null h, Datum.isNull]
  rw [freed, List.map_id'' hfree]

end Table

namespace Store

variable {s s' : Store} {t : Table} {T key : String} {owner : Int64} {targets : List Int64}
  {n i : Nat}

theorem holds_testAll_former (s : Store) (t : Table) (key column : String) (row : Row) :
    holds (s.testAll t.columns row [.compare (Column.named key) .eq (.int owner),
        .noneOf (Column.named column) (targets.map Datum.int)])
      = (t.isAt key owner row && t.isOutside column targets row) := by
  rw [holds_testAll_cons, testAll_singleton, holds_test_eq, holds_test_noneOf, Table.datum_named,
    Table.datum_named]
  rfl

theorem holds_testAll_listed (s : Store) (t : Table) (column : String) (row : Row) :
    holds (s.testAll t.columns row [.oneOf (Column.named column) (targets.map Datum.int)])
      = t.isIn column targets row := by
  rw [testAll_singleton, holds_test_oneOf, Table.datum_named]
  rfl

/-- The first step of a sync: former targets that are not listed are set free. -/
def freeing (T key : String) (owner : Int64) (targets : List Int64) : Update :=
  ⟨T, [(key, .null)], [.compare (Column.named key) .eq (.int owner),
    .noneOf (Column.named idName) (targets.map Datum.int)]⟩

/-- The second step: the listed rows get the key of the owner. -/
def linking (T key : String) (owner : Int64) (targets : List Int64) : Update :=
  ⟨T, [(key, .int owner)], [.oneOf (Column.named idName) (targets.map Datum.int)]⟩

theorem update_freeing_eq_ok (h : s.update (freeing T key owner targets) = .ok (s', n)) :
    ∃ t, s.table T = .ok t ∧ (∃ i, t.place? key = some i) ∧
      s'.table = Function.update s.table T (.ok (t.freed key owner targets)) := by
  obtain ⟨t, ht, hplace, hs'⟩ := update_column_eq_ok h
  simp only [rewritten, holds_testAll_former] at hs'
  exact ⟨t, ht, hplace, hs'⟩

theorem update_linking_eq_ok (h : s.update (linking T key owner targets) = .ok (s', n)) :
    ∃ t, s.table T = .ok t ∧ (∃ i, t.place? key = some i) ∧
      s'.table = Function.update s.table T (.ok (t.linked key owner targets)) := by
  obtain ⟨t, ht, hplace, hs'⟩ := update_column_eq_ok h
  simp only [rewritten, holds_testAll_listed] at hs'
  exact ⟨t, ht, hplace, hs'⟩

section Succeeds

variable (owner targets) (ht : s.table T = .ok t) (hfull : t.Full)
  (hkey : t.place? key = some i) (hid : t.rows ≠ [] → ∃ j, t.place? idName = some j)

include ht hfull hkey hid

/-- In a table of full rows nothing but a missing column stops the first step. -/
theorem exists_update_freeing :
    ∃ s' n, s.update (freeing T key owner targets) = .ok (s', n) := by
  refine exists_update_column ht ⟨i, hkey⟩ fun row hrow => ?_
  obtain ⟨j, hj⟩ := hid (List.ne_nil_of_mem hrow)
  rw [testAll_cons, test_eq_of_place? (hfull row hrow) hkey, testAll_singleton,
    test_noneOf_of_place? (hfull row hrow) hj]
  cases (t.datum key row).equals (.int owner) <;> exact ⟨_, rfl⟩

theorem exists_update_linking :
    ∃ s' n, s.update (linking T key owner targets) = .ok (s', n) := by
  refine exists_update_column ht ⟨i, hkey⟩ fun row hrow => ?_
  obtain ⟨j, hj⟩ := hid (List.ne_nil_of_mem hrow)
  rw [testAll_singleton, test_oneOf_of_place? (hfull row hrow) hj]
  exact ⟨_, rfl⟩

end Succeeds

end Store

namespace Persist

open Store (freeing linking)

variable {w w' : World} {t : Table} {T key : String} {owner : Int64} {targets : List Int64}
  {i : Nat}

theorem syncHolders_eq (T key : String) (owner : Int64) (targets : List Int64) :
    syncHolders T key owner targets = (do
      let _ ← Action.update (freeing T key owner targets)
      if targets.isEmpty then return ()
      else
        let _ ← Action.update (linking T key owner targets)
        return ()) := by
  rw [syncHolders, List.isEmpty_map]
  rfl

/-- A successful sync of targets that hold the key of their owner relinks every row of their
table. -/
theorem table_of_syncHolders (h : (syncHolders T key owner targets).runIn w = (.ok (), w')) :
    ∃ t, w.store.table T = .ok t ∧ (∃ i, t.place? key = some i) ∧
      w'.store.table = Function.update w.store.table T (.ok (t.relinked key owner targets)) := by
  rw [syncHolders_eq, Action.runIn_bind_eq_ok] at h
  obtain ⟨n, w₁, hfree, h⟩ := h
  obtain ⟨s₁, hfree', rfl⟩ := Action.runIn_update_eq_ok.1 hfree
  obtain ⟨t, ht, hkey, htable⟩ := Store.update_freeing_eq_ok hfree'
  refine ⟨t, ht, hkey, ?_⟩
  split_ifs at h with hempty
  · obtain ⟨-, rfl⟩ := Action.runIn_pure_eq_ok.1 h
    obtain rfl : targets = [] := by simpa using hempty
    rw [← Table.freed_nil]
    exact htable
  · obtain ⟨m, w₂, hlink, h⟩ := Action.runIn_bind_eq_ok.1 h
    obtain ⟨-, rfl⟩ := Action.runIn_pure_eq_ok.1 h
    obtain ⟨s₂, hlink', rfl⟩ := Action.runIn_update_eq_ok.1 hlink
    obtain ⟨u, hu, -, htable'⟩ := Store.update_linking_eq_ok hlink'
    obtain rfl : t.freed key owner targets = u := by
      have hu' : s₁.table T = .ok u := hu
      rw [htable, Function.update_self] at hu'
      exact Except.ok.inj hu'
    show s₂.table = _
    rw [htable', htable, Function.update_idem, Table.linked_freed]

/-- In a table of full rows a sync only fails where it has changed nothing. -/
theorem table_of_syncHolders_error {e : Error} (hfull : w.store.Full)
    (h : (syncHolders T key owner targets).runIn w = (.error e, w')) :
    w'.store.table = w.store.table := by
  rw [syncHolders_eq, Action.runIn_bind_eq_error] at h
  rcases h with h | ⟨n, w₁, hfree, h⟩
  · obtain ⟨-, -, -, hstore⟩ := Action.runIn_update_eq_error h
    rw [hstore]
  obtain ⟨s₁, hfree', rfl⟩ := Action.runIn_update_eq_ok.1 hfree
  obtain ⟨t, ht, ⟨i, hkey⟩, htable⟩ := Store.update_freeing_eq_ok hfree'
  split_ifs at h with hempty
  · cases h
  rw [Action.runIn_bind_eq_error] at h
  rcases h with h | ⟨m, w₂, -, h⟩
  · obtain ⟨f, hlink, -, hstore⟩ := Action.runIn_update_eq_error h
    have ht₁ : s₁.table T = .ok (t.freed key owner targets) := by
      rw [htable, Function.update_self]
    -- the second step finds the rows and the column of keys, so it can only miss the ids
    have hid : t.place? idName = none := by
      by_contra hsome
      obtain ⟨s₂, m, hok⟩ := Store.exists_update_linking owner targets ht₁ (hfull.table ht).freed
        hkey fun _ => Option.ne_none_iff_exists'.1 hsome
      cases hlink.symm.trans hok
    -- and then the first step has set no row free
    rw [hstore]
    show s₁.table = _
    rw [htable, Table.freed_of_place? hid, ← ht, Function.update_eq_self]
  · cases h

/-- A sync succeeds in a table of full rows that has the columns of keys and of ids. -/
theorem exists_syncHolders (ht : w.store.table T = .ok t) (hfull : t.Full)
    (hkey : t.place? key = some i) (hid : t.rows ≠ [] → ∃ j, t.place? idName = some j) :
    ∃ w', (syncHolders T key owner targets).runIn w = (.ok (), w') := by
  obtain ⟨s₁, n, hfree⟩ := Store.exists_update_freeing owner targets ht hfull hkey hid
  obtain ⟨u, hu, -, htable⟩ := Store.update_freeing_eq_ok hfree
  obtain rfl : t = u := Except.ok.inj (ht.symm.trans hu)
  have ht₁ : s₁.table T = .ok (t.freed key owner targets) := by
    rw [htable, Function.update_self]
  have hid₁ : (t.freed key owner targets).rows ≠ [] → ∃ j, t.place? idName = some j := by
    intro hne
    refine hid fun hrows => hne ?_
    simp [Table.freed, hrows]
  obtain ⟨s₂, m, hlink⟩ := Store.exists_update_linking owner targets ht₁ hfull.freed hkey hid₁
  rw [syncHolders_eq, Action.runIn_bind_ok (Action.runIn_update_eq_ok.2 ⟨s₁, hfree, rfl⟩)]
  split_ifs
  · exact ⟨_, rfl⟩
  · rw [Action.runIn_bind_ok (Action.runIn_update_eq_ok.2 ⟨s₂, hlink, rfl⟩)]
    exact ⟨_, rfl⟩

end Persist

namespace Table

variable {t : Table} {row : Row} {key : String} {owner id : Int64} {targets : List Int64}

/-- A row before and after the targets of an owner were synced: afterwards it holds the key of the
owner where it is listed, what it held before it lost to null, and nothing else changed. -/
structure Relinked (t : Table) (key : String) (owner : Int64) (targets : List Int64)
    (row row' : Row) : Prop where
  linked : t.key? key row' = some owner ↔ ∃ id ∈ targets, t.key? idName row' = some id
  freed : t.key? key row = some owner → t.key? key row' ≠ some owner → t.datum key row' = .null
  kept : t.key? key row ≠ some owner → t.key? key row' ≠ some owner → row' = row
  cells : ∀ i, t.place? key ≠ some i → row'[i]? = row[i]?

section

variable {k : Option Int64} {i : Nat} (hne : key ≠ idName) (hrow : row.length = t.schema.length)
  (hplace : t.place? key = some i) (hid : t.datum idName row = .int id)
  (hkey : t.datum key row = .ofInt? k)

include hne hrow hplace hid hkey

theorem datum_relink (owner : Int64) (targets : List Int64) :
    t.datum key (t.relink key owner targets row) = if id ∈ targets then .int owner
      else if t.key? key row = some owner then .null else .ofInt? k := by
  rw [relink_eq hne hid hkey]
  split_ifs
  · exact datum_setDatum hrow hplace
  · exact datum_setDatum hrow hplace
  · exact hkey

theorem relinked_relink : t.Relinked key owner targets row (t.relink key owner targets row) := by
  have hid' : t.datum idName (t.relink key owner targets row) = .int id := by
    rw [datum_relink_of_ne hne.symm, hid]
  have hdatum := datum_relink hne hrow hplace hid hkey owner targets
  have hheld : t.key? key row = k := by
    rw [key?, hkey, Datum.int?_ofInt?]
  have hlinked : t.key? key (t.relink key owner targets row) = some owner ↔ id ∈ targets := by
    rw [key?, hdatum, hheld]
    by_cases hmem : id ∈ targets
    · simp [hmem, Datum.int?]
    · by_cases hk : k = some owner
      · simp [hmem, hk, Datum.int?]
      · simp [hmem, hk]
  constructor
  · rw [hlinked, key?, hid']
    simp [Datum.int?]
  · intro hformer hnot
    rw [hdatum, if_neg (mt hlinked.2 hnot), if_pos hformer]
  · intro hformer hnot
    rw [relink_eq hne hid hkey, if_neg (mt hlinked.2 hnot), if_neg hformer]
  · intro j hj
    exact getElem?_relink hj

/-- A row that was synced once stays as it is. -/
theorem relink_relink : t.relink key owner targets (t.relink key owner targets row)
    = t.relink key owner targets row := by
  have hid' : t.datum idName (t.relink key owner targets row) = .int id := by
    rw [datum_relink_of_ne hne.symm, hid]
  have hdatum := datum_relink hne hrow hplace hid hkey owner targets
  by_cases hmem : id ∈ targets
  · rw [if_pos hmem] at hdatum
    rw [relink_eq (k := some owner) hne hid' hdatum, if_pos hmem, relink_eq hne hid hkey,
      if_pos hmem, setDatum_setDatum]
  · rw [if_neg hmem] at hdatum
    by_cases hformer : t.key? key row = some owner
    · rw [if_pos hformer] at hdatum
      have hnone : t.key? key (t.relink key owner targets row) ≠ some owner := by
        rw [key?, hdatum]
        simp [Datum.int?]
      rw [relink_eq (k := none) hne hid' hdatum, if_neg hmem, if_neg hnone]
    · have hsame : t.relink key owner targets row = row := by
        rw [relink_eq hne hid hkey, if_neg hmem, if_neg hformer]
      rw [hsame, hsame]

end

end Table

end EntityGraph
