import EntityGraph.Proofs.Relation.Holders
import EntityGraph.Proofs.Store.Insert

/-!
# Syncing targets that are paired with their owner

A sync removes the pairs of an owner with targets that are not listed and adds the missing ones.

* `Table.survives` says which pairs stay, and `Table.relatedKeys` which targets an owner has;
* `Persist.table_of_syncPairs` says what a successful sync makes of the table of pairs, and
  `Persist.table_of_syncPairs_error` that a failed one has changed nothing;
* `Table.PairsSynced` says what it means for the keys in the rows.
-/

namespace EntityGraph

namespace Persist

variable {existing keys added : List Int64} {k : Int64}

theorem mem_foldl_newKeys : k ∈ keys.foldl
      (fun added key => if key ∈ existing || key ∈ added then added else added ++ [key]) added ↔
    k ∈ added ∨ k ∈ keys ∧ k ∉ existing := by
  induction keys generalizing added with
  | nil => simp
  | cons key keys ih =>
    rw [List.foldl_cons, ih]
    by_cases hkey : key ∈ existing
    · by_cases hk : k = key
      · simp [hk, hkey]
      · simp [hk, hkey]
    · by_cases hadded : key ∈ added
      · by_cases hk : k = key
        · simp [hk, hadded]
        · simp [hk, hadded]
      · by_cases hk : k = key
        · simp [hk, hkey, hadded]
        · simp [hk, hkey, hadded]

theorem nodup_foldl_newKeys (h : added.Nodup) : (keys.foldl
    (fun added key => if key ∈ existing || key ∈ added then added else added ++ [key])
      added).Nodup := by
  induction keys generalizing added with
  | nil => exact h
  | cons key keys ih =>
    rw [List.foldl_cons]
    refine ih ?_
    split_ifs with hskip
    · exact h
    · have hnew : key ∉ added := fun hmem => hskip (by simp [hmem])
      exact h.append (List.nodup_singleton key) (by simpa using hnew)

theorem mem_newKeys : k ∈ newKeys existing keys ↔ k ∈ keys ∧ k ∉ existing := by
  rw [newKeys, mem_foldl_newKeys]
  simp

theorem nodup_newKeys (existing keys : List Int64) : (newKeys existing keys).Nodup :=
  nodup_foldl_newKeys List.nodup_nil

end Persist

namespace Table

variable {t : Table} {row : Row} {column : String}

/-- A new row holds a given integer in its column. -/
theorem datum_of_fills {given : String → Option Datum} {i : Nat} {k : Int64}
    (hrow : List.Forall₂ (Fills given) t.schema row) (hplace : t.place? column = some i)
    (hgiven : given column = some (.int k)) : t.datum column row = .int k := by
  have hlt := lt_of_place? hplace
  have hlt' : i < row.length := hrow.length_eq ▸ hlt
  obtain ⟨_, hname, -⟩ := List.findIdx?_eq_some_iff_getElem.1 hplace
  rw [datum_eq hplace hlt']
  refine Fills.eq_int (hrow.get hlt hlt') ?_
  rw [← hgiven]
  exact congrArg given (beq_iff_eq.1 hname)

/-- The pair of keys in a row of a table of pairs. -/
def pairOf (p : Table) (ownerKey relatedKey : String) (row : Row) : Option Int64 × Option Int64 :=
  (p.key? ownerKey row, p.key? relatedKey row)

/-- The keys of the targets of an owner, as records show them. -/
def relatedKeys (p : Table) (ownerKey relatedKey : String) (owner : Int64) : List Int64 :=
  (p.rows.filter (p.isAt ownerKey owner)).filterMap fun row =>
    ((p.record row).get? relatedKey).bind Datum.int?

/-- Whether a pair stays when the targets of an owner are synced. -/
def survives (p : Table) (ownerKey relatedKey : String) (owner : Int64) (targets : List Int64)
    (row : Row) : Bool :=
  !(p.isAt ownerKey owner row && p.isOutside relatedKey targets row)

/-- The table of pairs without those that a sync removes. -/
def cleared (p : Table) (ownerKey relatedKey : String) (owner : Int64) (targets : List Int64) :
    Table :=
  { p with rows := p.rows.filter (p.survives ownerKey relatedKey owner targets) }

/-- The table of pairs after a sync that has added some rows. -/
def repaired (p : Table) (ownerKey relatedKey : String) (owner : Int64) (targets : List Int64)
    (added : List Row) (next : Int64) : Table :=
  { p with rows := p.rows.filter (p.survives ownerKey relatedKey owner targets) ++ added,
           nextKey := next }

theorem cleared_eq_repaired (p : Table) (ownerKey relatedKey : String) (owner : Int64)
    (targets : List Int64) : p.cleared ownerKey relatedKey owner targets
      = p.repaired ownerKey relatedKey owner targets [] p.nextKey := by
  rw [repaired, List.append_nil]
  rfl

/-- Without its columns of keys a table of pairs loses none. -/
theorem cleared_of_place? {p : Table} {ownerKey relatedKey c : String} {owner : Int64}
    {targets : List Int64} (hc : c ∈ [ownerKey, relatedKey]) (h : p.hasColumn c = false) :
    p.cleared ownerKey relatedKey owner targets = p := by
  have hplace : p.place? c = none := by
    by_contra hsome
    rw [exists_place?.1 (Option.ne_none_iff_exists'.1 hsome)] at h
    cases h
  have hsurvives : ∀ row, p.survives ownerKey relatedKey owner targets row = true := by
    intro row
    rcases List.mem_pair.1 hc with rfl | rfl
    · simp [survives, isAt, datum_eq_null hplace]
    · simp [survives, isOutside, datum_eq_null hplace, Datum.isNull]
  rw [cleared, List.filter_eq_self.2 fun row _ => hsurvives row]

/-- What may stand in a new row that pairs an owner with a target. -/
def PairRow (p : Table) (ownerKey relatedKey : String) (owner target : Int64) (row : Row) : Prop :=
  List.Forall₂ (Fills fun c =>
    ([ownerKey, relatedKey].zip [Datum.int owner, .int target]).lookup c) p.schema row

end Table

namespace Store

variable {s s' : Store} {p : Table} {pivot ownerKey relatedKey : String} {owner : Int64}
  {targets added : List Int64} {n : Nat}

/-- The selection of the pairs of an owner. -/
def pairsQuery (pivot ownerKey : String) (owner : Int64) : Query :=
  (Query.all pivot).filter (.compare (Column.of pivot ownerKey) .eq (.int owner))

/-- The removal of the pairs of an owner with targets that are not listed. -/
def unpairing (pivot ownerKey relatedKey : String) (owner : Int64) (targets : List Int64) :
    Deletion :=
  ⟨pivot, [.all [.compare (Column.named ownerKey) .eq (.int owner),
    .noneOf (Column.named relatedKey) (targets.map Datum.int)]]⟩

/-- The insertion of pairs of an owner with targets. -/
def pairing (pivot ownerKey relatedKey : String) (owner : Int64) (added : List Int64) : Insertion :=
  ⟨pivot, [ownerKey, relatedKey], added.map fun key => [Datum.int owner, .int key]⟩

/-- The selection of the pairs of an owner finds them in order. -/
theorem select_pairsQuery {records : List Record}
    (h : s.select (pairsQuery pivot ownerKey owner).toSelect = .ok records) :
    ∃ p, s.table pivot = .ok p ∧
      records = (p.rows.filter (p.isAt ownerKey owner)).map p.record := by
  obtain ⟨p, hp, -, rfl⟩ := select_rows_eq_ok.1 h
  obtain rfl := (mem_of_table hp).2
  refine ⟨p, hp, congrArg (List.map p.record) (List.filter_congr fun row _ => ?_)⟩
  change holds (s.testAll p.columns row [.compare (Column.of p.name ownerKey) .eq (.int owner)])
    = p.isAt ownerKey owner row
  rw [testAll_singleton, holds_test_eq, Table.datum_of]
  rfl

theorem delete_unpairing_eq_ok
    (h : s.delete (unpairing pivot ownerKey relatedKey owner targets) = .ok (s', n)) :
    ∃ p, s.table pivot = .ok p ∧ s'.table = Function.update s.table pivot
      (.ok (p.cleared ownerKey relatedKey owner targets)) := by
  obtain ⟨p, hp, -, rfl, -⟩ := delete_eq_ok.1 h
  obtain rfl := (mem_of_table hp).2
  refine ⟨p, hp, ?_⟩
  have hpruned : s.pruned p (unpairing p.name ownerKey relatedKey owner targets).filters
      = p.cleared ownerKey relatedKey owner targets := by
    simp only [pruned, unpairing, testAll_singleton, test, holds_testAll_former]
    rfl
  rw [← hpruned]
  exact table_replace hp

section Succeeds

variable (owner targets) (hp : s.table pivot = .ok p) (hfull : p.Full)
  (howner : p.rows ≠ [] → ∃ i, p.place? ownerKey = some i)

include hp hfull howner

theorem exists_select_pairsQuery :
    ∃ records, s.select (pairsQuery pivot ownerKey owner).toSelect = .ok records := by
  obtain rfl := (mem_of_table hp).2
  refine ⟨_, select_rows_eq_ok.2 ⟨p, hp, fun row hrow => ?_, rfl⟩⟩
  obtain ⟨i, hi⟩ := howner (List.ne_nil_of_mem hrow)
  change ∃ b, s.testAll p.columns row [.compare (Column.of p.name ownerKey) .eq (.int owner)]
    = .ok b
  rw [testAll_singleton, test, Table.get_of (hfull row hrow), hi]
  exact ⟨_, Datum.satisfies_eq _ _⟩

theorem exists_delete_unpairing (hrelated : p.rows ≠ [] → ∃ j, p.place? relatedKey = some j) :
    ∃ s' n, s.delete (unpairing pivot ownerKey relatedKey owner targets) = .ok (s', n) := by
  refine ⟨_, _, delete_eq_ok.2 ⟨p, hp, fun row hrow => ?_, rfl, rfl⟩⟩
  obtain ⟨i, hi⟩ := howner (List.ne_nil_of_mem hrow)
  obtain ⟨j, hj⟩ := hrelated (List.ne_nil_of_mem hrow)
  rw [testAll_singleton, test, testAll_cons, test_eq_of_place? (hfull row hrow) hi,
    testAll_singleton, test_noneOf_of_place? (hfull row hrow) hj]
  cases (p.datum ownerKey row).equals (.int owner) <;> exact ⟨_, rfl⟩

end Succeeds

end Store

namespace Persist

open Store (pairsQuery unpairing pairing)

variable {w w' : World} {p : Table} {pivot ownerKey relatedKey : String} {owner : Int64}
  {targets : List Int64}

theorem syncPairs_eq (pivot ownerKey relatedKey : String) (owner : Int64) (targets : List Int64) :
    syncPairs pivot ownerKey relatedKey owner targets = (do
      let links ← Action.query (pairsQuery pivot ownerKey owner)
      let _ ← Action.delete (unpairing pivot ownerKey relatedKey owner targets)
      let added := newKeys (links.filterMap fun link => (link.get? relatedKey).bind Datum.int?)
        targets
      if added.isEmpty then return ()
      else
        let _ ← Action.insert (pairing pivot ownerKey relatedKey owner added)
        return ()) := rfl

section Pairing

variable {added : List Int64} (hp : w.store.table pivot = .ok p)

include hp

theorem runIn_pairing (ownerKey relatedKey : String) (owner : Int64) (added : List Int64) :
    ∃ p' result w', p.appendAll [ownerKey, relatedKey]
        (added.map fun key => [Datum.int owner, .int key]) = (p', result) ∧
      (Action.insert (pairing pivot ownerKey relatedKey owner added)).runIn w
        = (Action.stored result, w') ∧
      w'.store.table = Function.update w.store.table pivot (.ok p') := by
  obtain ⟨hstore, hresult⟩ :=
    Store.insert_of_table (i := pairing pivot ownerKey relatedKey owner added) hp
  refine ⟨_, _, ⟨(w.store.insert (pairing pivot ownerKey relatedKey owner added)).1,
    w.log ++ [.statement (.insert (pairing pivot ownerKey relatedKey owner added))]⟩, rfl, ?_,
    hstore⟩
  rw [Action.runIn_insert, hresult]
  rfl

/-- Where pairs are inserted they stand behind the others, and the table has both columns. -/
theorem table_of_pairing {keys : List Int64} (hne : added ≠ [])
    (h : (Action.insert (pairing pivot ownerKey relatedKey owner added)).runIn w
      = (.ok keys, w')) :
    ∃ rows next, w'.store.table = Function.update w.store.table pivot
        (.ok { p with rows := p.rows ++ rows, nextKey := next }) ∧
      List.Forall₂ (p.PairRow ownerKey relatedKey owner) added rows ∧
      ∀ c ∈ [ownerKey, relatedKey], p.hasColumn c = true := by
  obtain ⟨p', result, w₁, happend, hrun, htable⟩ := runIn_pairing hp ownerKey relatedKey owner added
  rw [hrun, Prod.mk.injEq, Action.stored_eq_ok] at h
  obtain ⟨rfl, rfl⟩ := h
  obtain ⟨rows, next, rfl, hcolumns, hforall⟩ := Table.appendAll_eq_ok happend
  rw [List.forall₂_map_left_iff] at hforall
  refine ⟨rows, next, htable, hforall, hcolumns ?_⟩
  simpa using hne

/-- Where no pair can be inserted a column is missing, or no key is left. -/
theorem table_of_pairing_error {e : Error}
    (h : (Action.insert (pairing pivot ownerKey relatedKey owner added)).runIn w
      = (.error e, w')) :
    e = Error.ofStore (.keysExhausted pivot) ∨
      (∃ c ∈ [ownerKey, relatedKey], p.hasColumn c = false) ∧
        w'.store.table = w.store.table := by
  obtain ⟨p', result, w₁, happend, hrun, htable⟩ := runIn_pairing hp ownerKey relatedKey owner added
  rw [hrun] at h
  cases result with
  | ok keys => cases h
  | error f =>
    obtain ⟨hf, rfl⟩ := Prod.mk.inj h
    obtain rfl : Error.ofStore f = e := Except.error.inj hf
    have hwidth : ∀ values ∈ added.map fun key => [Datum.int owner, .int key],
        [ownerKey, relatedKey].length = values.length := by
      intro values hvalues
      obtain ⟨key, -, rfl⟩ := List.mem_map.1 hvalues
      rfl
    rcases Table.appendAll_eq_error hwidth happend with ⟨rfl, hmissing⟩ | rfl
    · right
      rw [htable, ← hp, Function.update_eq_self]
      exact ⟨hmissing, rfl⟩
    · left
      rw [(Store.mem_of_table hp).2]

end Pairing

/-- What a sync has done before it inserts anything. -/
theorem runIn_syncPairs (pivot ownerKey relatedKey : String) (owner : Int64)
    (targets : List Int64) (w : World) :
    (∃ e w', (syncPairs pivot ownerKey relatedKey owner targets).runIn w = (.error e, w') ∧
      w'.store = w.store ∧
      ((∃ f, w.store.select (pairsQuery pivot ownerKey owner).toSelect = .error f) ∨
        ∃ f, w.store.delete (unpairing pivot ownerKey relatedKey owner targets) = .error f)) ∨
    ∃ p w₁, w.store.table pivot = .ok p ∧
      w₁.store.table = Function.update w.store.table pivot
        (.ok (p.cleared ownerKey relatedKey owner targets)) ∧
      (syncPairs pivot ownerKey relatedKey owner targets).runIn w =
        (if (newKeys (p.relatedKeys ownerKey relatedKey owner) targets).isEmpty then return ()
        else do
          let _ ← Action.insert (pairing pivot ownerKey relatedKey owner
            (newKeys (p.relatedKeys ownerKey relatedKey owner) targets))
          return ()).runIn w₁ := by
  rw [syncPairs_eq, Action.runIn_bind, Action.runIn_query]
  rcases hselect : w.store.select (pairsQuery pivot ownerKey owner).toSelect with f | links
  · exact .inl ⟨_, _, rfl, rfl, .inl ⟨f, rfl⟩⟩
  obtain ⟨p, hp, rfl⟩ := Store.select_pairsQuery hselect
  have hkeys : (((p.rows.filter (p.isAt ownerKey owner)).map p.record).filterMap fun link =>
      (link.get? relatedKey).bind Datum.int?) = p.relatedKeys ownerKey relatedKey owner := by
    rw [List.filterMap_map]
    rfl
  simp only [Action.stored, hkeys]
  rcases hdelete : (Action.delete (unpairing pivot ownerKey relatedKey owner targets)).runIn
    (w.note (.statement (.select (pairsQuery pivot ownerKey owner).toSelect))) with ⟨e | n, w₁⟩
  · obtain ⟨f, hf, -, hstore⟩ := Action.runIn_delete_eq_error hdelete
    exact .inl ⟨e, w₁, Action.runIn_bind_error hdelete, hstore, .inr ⟨f, hf⟩⟩
  · obtain ⟨s₁, hcleared, rfl⟩ := Action.runIn_delete_eq_ok.1 hdelete
    obtain ⟨q, hq, htable⟩ := Store.delete_unpairing_eq_ok hcleared
    obtain rfl : p = q := Except.ok.inj (hp.symm.trans hq)
    exact .inr ⟨p, _, hp, htable, Action.runIn_bind_ok hdelete⟩

/-- A successful sync of pairs removes those that are not listed and adds the missing ones. -/
theorem table_of_syncPairs
    (h : (syncPairs pivot ownerKey relatedKey owner targets).runIn w = (.ok (), w')) :
    ∃ p added next, w.store.table pivot = .ok p ∧
      w'.store.table = Function.update w.store.table pivot
        (.ok (p.repaired ownerKey relatedKey owner targets added next)) ∧
      List.Forall₂ (p.PairRow ownerKey relatedKey owner)
        (newKeys (p.relatedKeys ownerKey relatedKey owner) targets) added ∧
      (added = [] → next = p.nextKey) ∧
      (added ≠ [] → ∀ c ∈ [ownerKey, relatedKey], p.hasColumn c = true) := by
  rcases runIn_syncPairs pivot ownerKey relatedKey owner targets w with ⟨e, w₁, herror, -, -⟩ |
    ⟨p, w₁, hp, htable, hrest⟩
  · rw [herror] at h
    cases h
  rw [hrest] at h
  split_ifs at h with hempty
  · obtain ⟨-, rfl⟩ := Action.runIn_pure_eq_ok.1 h
    refine ⟨p, [], p.nextKey, hp, ?_, ?_, fun _ => rfl, fun hne => absurd rfl hne⟩
    · rw [htable, Table.cleared_eq_repaired]
    · rw [List.isEmpty_iff.1 hempty]
      exact .nil
  · obtain ⟨keys, w₂, hinsert, h⟩ := Action.runIn_bind_eq_ok.1 h
    obtain ⟨-, rfl⟩ := Action.runIn_pure_eq_ok.1 h
    have hcleared : w₁.store.table pivot = .ok (p.cleared ownerKey relatedKey owner targets) := by
      rw [htable, Function.update_self]
    have hne : newKeys (p.relatedKeys ownerKey relatedKey owner) targets ≠ [] := by
      simpa using hempty
    obtain ⟨added, next, htable', hrows, hcolumns⟩ := table_of_pairing hcleared hne hinsert
    refine ⟨p, added, next, hp, ?_, hrows, ?_, fun _ => hcolumns⟩
    · rw [htable', htable, Function.update_idem]
      rfl
    · rintro rfl
      exact absurd (List.forall₂_nil_right_iff.1 hrows) hne

/-- A sync of pairs that fails has changed nothing, unless the table of pairs ran out of keys. -/
theorem table_of_syncPairs_error {e : Error}
    (h : (syncPairs pivot ownerKey relatedKey owner targets).runIn w = (.error e, w'))
    (hkeys : e ≠ Error.ofStore (.keysExhausted pivot)) : w'.store.table = w.store.table := by
  rcases runIn_syncPairs pivot ownerKey relatedKey owner targets w with ⟨f, w₁, herror, hstore, -⟩ |
    ⟨p, w₁, hp, htable, hrest⟩
  · rw [herror] at h
    obtain ⟨-, rfl⟩ := Prod.mk.inj h
    rw [hstore]
  rw [hrest] at h
  split_ifs at h with hempty
  · cases h
  rcases Action.runIn_bind_eq_error.1 h with hinsert | ⟨keys, w₂, -, h⟩
  · have hcleared : w₁.store.table pivot = .ok (p.cleared ownerKey relatedKey owner targets) := by
      rw [htable, Function.update_self]
    rcases table_of_pairing_error hcleared hinsert with rfl | ⟨⟨c, hc, hmissing⟩, htable'⟩
    · exact absurd rfl hkeys
    · -- where a column is missing the first step has removed nothing
      have hmissing' : p.hasColumn c = false := hmissing
      rw [htable', htable, Table.cleared_of_place? hc hmissing', ← hp, Function.update_eq_self]
  · cases h

/-- A sync succeeds in a table of full rows that has both columns of keys, if the missing pairs can
be inserted. -/
theorem exists_syncPairs (hp : w.store.table pivot = .ok p) (hfull : p.Full)
    (howner : p.rows ≠ [] → ∃ i, p.place? ownerKey = some i)
    (hrelated : p.rows ≠ [] → ∃ j, p.place? relatedKey = some j)
    (hinsert : newKeys (p.relatedKeys ownerKey relatedKey owner) targets ≠ [] →
      ∀ w₁ : World, w₁.store.table pivot = .ok (p.cleared ownerKey relatedKey owner targets) →
        ∃ keys w₂, (Action.insert (pairing pivot ownerKey relatedKey owner
          (newKeys (p.relatedKeys ownerKey relatedKey owner) targets))).runIn w₁
            = (.ok keys, w₂)) :
    ∃ w', (syncPairs pivot ownerKey relatedKey owner targets).runIn w = (.ok (), w') := by
  rcases runIn_syncPairs pivot ownerKey relatedKey owner targets w with
    ⟨e, w₁, -, -, ⟨f, hf⟩ | ⟨f, hf⟩⟩ | ⟨q, w₁, hq, htable, hrest⟩
  · obtain ⟨records, hok⟩ := Store.exists_select_pairsQuery owner hp hfull howner
    cases hf.symm.trans hok
  · obtain ⟨s', n, hok⟩ := Store.exists_delete_unpairing owner targets hp hfull howner hrelated
    cases hf.symm.trans hok
  · obtain rfl : p = q := Except.ok.inj (hp.symm.trans hq)
    rw [hrest]
    split_ifs with hempty
    · exact ⟨w₁, rfl⟩
    · have hcleared : w₁.store.table pivot = .ok (p.cleared ownerKey relatedKey owner targets) := by
        rw [htable, Function.update_self]
      obtain ⟨keys, w₂, hrun⟩ := hinsert (by simpa using hempty) w₁ hcleared
      exact ⟨w₂, Action.runIn_bind_ok hrun⟩

end Persist

namespace Table

variable {p p' : Table} {ownerKey relatedKey : String} {owner : Int64}
  {targets missing : List Int64}
  {row : Row} {added : List Row} {next k : Int64}

/-- A table of pairs holds integers in both of its columns of keys, the second of which has a name
of its own. -/
def PairKeys (p : Table) (ownerKey relatedKey : String) : Prop :=
  (p.schema.map (·.name)).count relatedKey ≤ 1 ∧ ∀ row ∈ p.rows,
    (∃ i, p.datum ownerKey row = .int i) ∧ ∃ j, p.datum relatedKey row = .int j

/-- Whether a pair belongs to another owner or leads to a listed target. -/
def isKept (p : Table) (ownerKey relatedKey : String) (owner : Int64) (targets : List Int64)
    (row : Row) : Bool :=
  p.key? ownerKey row != some owner || (targets.map some).contains (p.key? relatedKey row)

/-- A table of pairs before and after the targets of an owner were synced: the owner is paired with
the listed targets; pairs that stay do so in order, and behind them each missing target is paired
once; the pairs of others stay; and no pair is there twice unless one was before. -/
structure PairsSynced (p p' : Table) (ownerKey relatedKey : String) (owner : Int64)
    (targets : List Int64) : Prop where
  name : p'.name = p.name
  schema : p'.schema = p.schema
  paired : ∀ k, (some owner, some k) ∈ p'.rows.map (p.pairOf ownerKey relatedKey) ↔ k ∈ targets
  rows : ∃ (missing : List Int64) (added : List Row),
    p'.rows = p.rows.filter (p.isKept ownerKey relatedKey owner targets) ++ added ∧
    added.map (p.pairOf ownerKey relatedKey) = missing.map (fun k => (some owner, some k)) ∧
    missing.Nodup ∧ ∀ k, k ∈ missing ↔
      k ∈ targets ∧ (some owner, some k) ∉ p.rows.map (p.pairOf ownerKey relatedKey)
  others : p'.rows.filter (fun row => p.key? ownerKey row != some owner)
    = p.rows.filter fun row => p.key? ownerKey row != some owner
  nodup : (p.rows.map (p.pairOf ownerKey relatedKey)).Nodup →
    (p'.rows.map (p.pairOf ownerKey relatedKey)).Nodup

theorem place?_of_int {column : String} {i : Int64} (h : p.datum column row = .int i) :
    ∃ j, p.place? column = some j :=
  exists_place?_of_ne_null (by simp [h] : p.datum column row ≠ .null)

theorem has_of_place? {column : String} (h : (p.schema.map (·.name)).count column ≤ 1)
    (hplace : ∃ i, p.place? column = some i) : p.Has column := by
  have hmem : column ∈ p.schema.map (·.name) := by
    obtain ⟨c, hc, hname⟩ := List.any_eq_true.1 (exists_place?.1 hplace)
    exact List.mem_map.2 ⟨c, hc, beq_iff_eq.1 hname⟩
  have hpos := List.count_pos_iff.2 hmem
  unfold Has
  omega

/-- What stands as the key of a target in a new pair: where both keys have one name, the column is
filled with the key of the owner. -/
def writtenKey (ownerKey relatedKey : String) (owner target : Int64) : Int64 :=
  if ownerKey = relatedKey then owner else target

/-- A row that pairs an owner with a target holds the keys that were written. -/
theorem PairRow.datum_eq (hcolumns : ∀ c ∈ [ownerKey, relatedKey], p.hasColumn c = true)
    (h : p.PairRow ownerKey relatedKey owner k row) :
    p.datum ownerKey row = .int owner ∧
      p.datum relatedKey row = .int (writtenKey ownerKey relatedKey owner k) := by
  obtain ⟨i, hi⟩ := exists_place?.2 (hcolumns ownerKey (by simp))
  obtain ⟨j, hj⟩ := exists_place?.2 (hcolumns relatedKey (by simp))
  refine ⟨datum_of_fills h hi (by simp), datum_of_fills h hj ?_⟩
  unfold writtenKey
  split_ifs with heq
  · simp [heq]
  · simp [List.lookup_cons, beq_false_of_ne (Ne.symm heq)]

theorem writtenKey_of_ne (h : ownerKey ≠ relatedKey) :
    writtenKey ownerKey relatedKey owner = id :=
  funext fun _ => if_neg h

theorem Full.repaired (hfull : p.Full) (targets : List Int64) (next : Int64)
    (hadded : List.Forall₂ (p.PairRow ownerKey relatedKey owner) missing added) :
    (p.repaired ownerKey relatedKey owner targets added next).Full := by
  intro row hrow
  rcases List.mem_append.1 hrow with hold | hnew
  · exact hfull row (List.mem_filter.1 hold).1
  · obtain ⟨k, -, hk⟩ := exists_of_forall₂_right hadded hnew
    exact hk.length_eq.symm

theorem map_pairOf {keys : List Int64} (hne : ownerKey ≠ relatedKey)
    (h : List.Forall₂ (p.PairRow ownerKey relatedKey owner) keys added)
    (hcolumns : added ≠ [] → ∀ c ∈ [ownerKey, relatedKey], p.hasColumn c = true) :
    added.map (p.pairOf ownerKey relatedKey) = keys.map fun k => (some owner, some k) := by
  induction h with
  | nil => rfl
  | @cons k row keys added hrow _ ih =>
    have hc := hcolumns (List.cons_ne_nil row added)
    obtain ⟨howner, hrelated⟩ := hrow.datum_eq hc
    rw [List.map_cons, List.map_cons, ih fun _ => hc, pairOf, key?, key?, howner, hrelated,
      writtenKey_of_ne hne]
    rfl

theorem isKept_of_pairOf (h : p.pairOf ownerKey relatedKey row = (some owner, some k)) :
    p.isKept ownerKey relatedKey owner targets row = decide (k ∈ targets) := by
  obtain ⟨howner, hk⟩ := Prod.mk.inj h
  rw [isKept, howner, hk, Bool.eq_iff_iff]
  simp

theorem mem_map_filter_isKept :
    (some owner, some k) ∈ (p.rows.filter (p.isKept ownerKey relatedKey owner targets)).map
      (p.pairOf ownerKey relatedKey) ↔
    (some owner, some k) ∈ p.rows.map (p.pairOf ownerKey relatedKey) ∧ k ∈ targets := by
  simp only [List.mem_map, List.mem_filter]
  constructor
  · rintro ⟨row, ⟨hrow, hkept⟩, hpair⟩
    rw [isKept_of_pairOf hpair, decide_eq_true_iff] at hkept
    exact ⟨⟨row, hrow, hpair⟩, hkept⟩
  · rintro ⟨⟨row, hrow, hpair⟩, hk⟩
    refine ⟨row, ⟨hrow, ?_⟩, hpair⟩
    rw [isKept_of_pairOf hpair, decide_eq_true_iff]
    exact hk

section PairKeys

variable (hkeys : p.PairKeys ownerKey relatedKey) (hfull : p.Full)

include hkeys

theorem PairKeys.exists_place? (hrows : p.rows ≠ []) :
    (∃ i, p.place? ownerKey = some i) ∧ ∃ j, p.place? relatedKey = some j := by
  obtain ⟨row, hrow⟩ := List.exists_mem_of_ne_nil _ hrows
  obtain ⟨⟨i, hi⟩, j, hj⟩ := hkeys.2 row hrow
  exact ⟨place?_of_int hi, place?_of_int hj⟩

theorem PairKeys.survives_eq (hrow : row ∈ p.rows) :
    p.survives ownerKey relatedKey owner targets row
      = p.isKept ownerKey relatedKey owner targets row := by
  obtain ⟨⟨i, hi⟩, j, hj⟩ := hkeys.2 row hrow
  have howner : p.datum ownerKey row = .ofInt? (some i) := hi
  rw [survives, isAt_of_ofInt? howner, isOutside_of_int hj, isKept, key?, key?, hi, hj]
  by_cases hio : i = owner
  · simp [Datum.int?, hio]
  · simp [Datum.int?, hio]

include hfull

theorem PairKeys.mem_relatedKeys : k ∈ p.relatedKeys ownerKey relatedKey owner ↔
    (some owner, some k) ∈ p.rows.map (p.pairOf ownerKey relatedKey) := by
  rw [relatedKeys, List.mem_filterMap, List.mem_map]
  have hrecord : ∀ row ∈ p.rows,
      (p.record row).get? relatedKey = some (p.datum relatedKey row) := by
    intro row hrow
    obtain ⟨-, j, hj⟩ := hkeys.2 row hrow
    exact record_get? (has_of_place? hkeys.1 (place?_of_int hj)) (hfull row hrow)
  have hat : ∀ row ∈ p.rows,
      p.isAt ownerKey owner row = decide (p.key? ownerKey row = some owner) := by
    intro row hrow
    obtain ⟨⟨i, hi⟩, -⟩ := hkeys.2 row hrow
    exact isAt_of_ofInt? (k := some i) hi
  constructor
  · rintro ⟨row, hmem, hk⟩
    obtain ⟨hrow, howner⟩ := List.mem_filter.1 hmem
    rw [hrecord row hrow, Option.bind_some] at hk
    rw [hat row hrow, decide_eq_true_iff] at howner
    exact ⟨row, hrow, by rw [pairOf, howner, key?, hk]⟩
  · rintro ⟨row, hrow, hpair⟩
    obtain ⟨howner, hk⟩ := Prod.mk.inj hpair
    refine ⟨row, List.mem_filter.2 ⟨hrow, ?_⟩, ?_⟩
    · rw [hat row hrow, decide_eq_true_iff]
      exact howner
    · rw [hrecord row hrow, Option.bind_some]
      exact hk

/-- Adding the missing pairs and keeping the others makes the targets complete. -/
theorem PairKeys.synced (hne : ownerKey ≠ relatedKey)
    (hadded : List.Forall₂ (p.PairRow ownerKey relatedKey owner)
      (Persist.newKeys (p.relatedKeys ownerKey relatedKey owner) targets) added)
    (hcolumns : added ≠ [] → ∀ c ∈ [ownerKey, relatedKey], p.hasColumn c = true) :
    p.PairsSynced (p.repaired ownerKey relatedKey owner targets added next) ownerKey relatedKey
      owner targets := by
  have hrows : (p.repaired ownerKey relatedKey owner targets added next).rows
      = p.rows.filter (p.isKept ownerKey relatedKey owner targets) ++ added := by
    rw [repaired, List.filter_congr fun row hrow => hkeys.survives_eq hrow]
  have hpairs := map_pairOf hne hadded hcolumns
  have hmem : ∀ k, k ∈ Persist.newKeys (p.relatedKeys ownerKey relatedKey owner) targets ↔
      k ∈ targets ∧ (some owner, some k) ∉ p.rows.map (p.pairOf ownerKey relatedKey) := by
    intro k
    rw [Persist.mem_newKeys, hkeys.mem_relatedKeys hfull]
  have hnew : ∀ k, (some owner, some k) ∈ added.map (p.pairOf ownerKey relatedKey) ↔
      k ∈ Persist.newKeys (p.relatedKeys ownerKey relatedKey owner) targets := by
    intro k
    rw [hpairs]
    simp
  have hnodup := Persist.nodup_newKeys (p.relatedKeys ownerKey relatedKey owner) targets
  refine ⟨rfl, rfl, fun k => ?_, ⟨_, added, hrows, hpairs, hnodup, hmem⟩, ?_, fun hbefore => ?_⟩
  · rw [hrows, List.map_append, List.mem_append, mem_map_filter_isKept, hnew, hmem]
    tauto
  · -- whatever is added is a pair of this owner, so the rows of others are the old ones
    have hothers : ∀ row ∈ added, (p.key? ownerKey row != some owner) = false := by
      intro row hrow
      have hpair := List.mem_map_of_mem (f := p.pairOf ownerKey relatedKey) hrow
      rw [hpairs] at hpair
      obtain ⟨k, -, hk⟩ := List.mem_map.1 hpair
      simp [(Prod.mk.inj hk).1.symm]
    have hnone : added.filter (fun row => p.key? ownerKey row != some owner) = [] :=
      List.filter_eq_nil_iff.2 fun row hrow => by simp [hothers row hrow]
    rw [hrows, List.filter_append, List.filter_filter, hnone, List.append_nil]
    refine List.filter_congr fun row _ => ?_
    rw [isKept]
    cases p.key? ownerKey row != some owner <;> simp
  · rw [hrows, List.map_append]
    refine List.Nodup.append (hbefore.sublist (List.filter_sublist.map _)) ?_ ?_
    · rw [hpairs]
      refine hnodup.map fun k k' hk => ?_
      exact Option.some.inj (Prod.mk.inj hk).2
    · intro pair hold hpair
      rw [hpairs] at hpair
      obtain ⟨k, hk, rfl⟩ := List.mem_map.1 hpair
      exact ((hmem k).1 hk).2 (mem_map_filter_isKept.1 hold).1

/-- Where the targets of an owner are complete there is nothing to add or to remove. -/
theorem PairKeys.complete
    (h : ∀ k, (some owner, some k) ∈ p.rows.map (p.pairOf ownerKey relatedKey) ↔ k ∈ targets) :
    Persist.newKeys (p.relatedKeys ownerKey relatedKey owner) targets = [] ∧
      p.repaired ownerKey relatedKey owner targets [] p.nextKey = p := by
  constructor
  · refine List.eq_nil_iff_forall_not_mem.2 fun k hk => ?_
    rw [Persist.mem_newKeys, hkeys.mem_relatedKeys hfull, h] at hk
    exact hk.2 hk.1
  · have hsurvives : ∀ row ∈ p.rows, p.survives ownerKey relatedKey owner targets row = true := by
      intro row hrow
      rw [hkeys.survives_eq hrow]
      obtain ⟨-, j, hj⟩ := hkeys.2 row hrow
      by_cases howner : p.key? ownerKey row = some owner
      · have hpair : p.pairOf ownerKey relatedKey row = (some owner, some j) := by
          rw [pairOf, howner, key?, hj]
          rfl
        rw [isKept_of_pairOf hpair, decide_eq_true_iff, ← h, ← hpair]
        exact List.mem_map_of_mem hrow
      · simp [isKept, howner]
    rw [repaired, List.filter_eq_self.2 hsurvives, List.append_nil]

/-- A table of pairs stays one. -/
theorem PairKeys.repaired (targets : List Int64) (next : Int64)
    (hadded : List.Forall₂ (p.PairRow ownerKey relatedKey owner) missing added)
    (hcolumns : added ≠ [] → ∀ c ∈ [ownerKey, relatedKey], p.hasColumn c = true) :
    (p.repaired ownerKey relatedKey owner targets added next).PairKeys ownerKey relatedKey ∧
      (p.repaired ownerKey relatedKey owner targets added next).Full := by
  refine ⟨⟨hkeys.1, fun row hmem => ?_⟩, hfull.repaired targets next hadded⟩
  rcases List.mem_append.1 hmem with hold | hnew
  · exact hkeys.2 row (List.mem_filter.1 hold).1
  · obtain ⟨k, -, hk⟩ := exists_of_forall₂_right hadded hnew
    obtain ⟨howner, hrelated⟩ := hk.datum_eq (hcolumns (List.ne_nil_of_mem hnew))
    exact ⟨⟨_, howner⟩, _, hrelated⟩

end PairKeys

end Table

end EntityGraph
