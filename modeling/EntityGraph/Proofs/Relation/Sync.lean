import EntityGraph.Proofs.Relation.Pairs
import EntityGraph.Sample.Shelf

/-!
# Making targets complete

After a sync the listed targets are the targets of the owner, and no others.

* `Persist.Writes` is what a successful sync writes, whatever the keys in the database;
* `Persist.Synced` says that the targets are complete, and `Store.Linkable` what has to hold of the
  keys in the database before;
* `Persist.sync_complete` is the result: a sync that succeeds does this and nothing else, running it
  again changes nothing, and one that fails has changed nothing;
* `Persist.sync_ids_not_idempotent` shows why keys of owners must not stand in the column of ids.
-/

namespace EntityGraph

namespace Store

/-- The rows of a table hold integers as their ids and, in a column of its own, an integer or null
as the key of their owner. -/
def Holders (s : Store) (T key : String) : Prop :=
  key ≠ idName ∧ ∀ t, s.table T = .ok t → ∀ row ∈ t.rows,
    (∃ i, t.datum idName row = .int i) ∧ ∃ k, t.datum key row = .ofInt? k

/-- The keys by which the links of a relation are stored are sound: targets hold the keys of their
owners, and pairs are pairs of integers in two different columns. -/
def Linkable (s : Store) (r : Relation) : Prop :=
  match r.link with
  | .belongsTo _ => True
  | .hasOne key => s.Holders r.targetTable key
  | .hasMany key => s.Holders r.targetTable key
  | .belongsToMany pivot ownerKey relatedKey =>
    ownerKey ≠ relatedKey ∧ ∀ p, s.table pivot = .ok p → p.PairKeys ownerKey relatedKey

end Store

namespace Persist

/-- A database before and after the rows of a table were linked anew. -/
def Relinks (T key : String) (owner : Int64) (targets : List Int64) (s s' : Store) : Prop :=
  ∃ t, s.table T = .ok t ∧
    s'.table = Function.update s.table T (.ok (t.relinked key owner targets))

/-- A database before and after a sync: either the rows of the targets were linked anew, or pairs of
the owner were removed and pairs with targets added; every other table stays. -/
def Writes (r : Relation) (owner : Int64) (targets : List Int64) (s s' : Store) : Prop :=
  match r.link with
  | .belongsTo _ => False
  | .hasOne key => Relinks r.targetTable key owner targets s s'
  | .hasMany key => Relinks r.targetTable key owner targets s s'
  | .belongsToMany pivot ownerKey relatedKey =>
    ∃ p added next, s.table pivot = .ok p ∧
      s'.table = Function.update s.table pivot
        (.ok (p.repaired ownerKey relatedKey owner targets added next)) ∧
      ∀ row ∈ added, ∃ k ∈ targets, p.PairRow ownerKey relatedKey owner k row

/-- A sync that succeeds writes links and nothing else. -/
theorem writes_of_sync {r : Relation} {owner : Int64} {targets : List Int64} {w w' : World}
    (h : (sync r owner targets).runIn w = (.ok (), w')) :
    Writes r owner targets w.store w'.store := by
  have hholders : ∀ key, (syncHolders r.targetTable key owner targets).runIn w = (.ok (), w') →
      Relinks r.targetTable key owner targets w.store w'.store := by
    intro key hsync
    obtain ⟨t, ht, -, htable⟩ := table_of_syncHolders hsync
    exact ⟨t, ht, htable⟩
  unfold sync at h
  unfold Writes
  cases hlink : r.link with
  | belongsTo key =>
    rw [hlink] at h
    cases h
  | hasOne key =>
    rw [hlink] at h
    exact hholders key h
  | hasMany key =>
    rw [hlink] at h
    exact hholders key h
  | belongsToMany pivot ownerKey relatedKey =>
    rw [hlink] at h
    obtain ⟨p, added, next, hp, htable, hadded, -, -⟩ := table_of_syncPairs h
    refine ⟨p, added, next, hp, htable, fun row hrow => ?_⟩
    obtain ⟨k, hk, hpair⟩ := exists_of_forall₂_right hadded hrow
    exact ⟨k, (mem_newKeys.1 hk).1, hpair⟩

/-- A database before and after targets that hold the key of an owner were synced: their rows were
linked anew. -/
def HoldersSynced (T key : String) (owner : Int64) (targets : List Int64) (s s' : Store) : Prop :=
  ∃ t rows, s.table T = .ok t ∧ s'.table = Function.update s.table T (.ok { t with rows }) ∧
    List.Forall₂ (t.Relinked key owner targets) t.rows rows

/-- A database before and after the targets of an owner were synced: one table has changed, the rows
of which hold or pair the keys of the owner and of its targets as they should. -/
def Synced (r : Relation) (owner : Int64) (targets : List Int64) (s s' : Store) : Prop :=
  match r.link with
  | .belongsTo _ => False
  | .hasOne key => HoldersSynced r.targetTable key owner targets s s'
  | .hasMany key => HoldersSynced r.targetTable key owner targets s s'
  | .belongsToMany pivot ownerKey relatedKey =>
    ∃ p p', s.table pivot = .ok p ∧ s'.table = Function.update s.table pivot (.ok p') ∧
      p.PairsSynced p' ownerKey relatedKey owner targets

variable {w w' : World} {T key pivot ownerKey relatedKey : String} {owner : Int64}
  {targets : List Int64}

/-- A sync of targets that hold the key of their owner is complete, and a second one changes
nothing. -/
theorem syncHolders_complete (hfull : w.store.Full) (hlink : w.store.Holders T key)
    (h : (syncHolders T key owner targets).runIn w = (.ok (), w')) :
    HoldersSynced T key owner targets w.store w'.store ∧
      ∃ w'', (syncHolders T key owner targets).runIn w' = (.ok (), w'') ∧
        w''.store.table = w'.store.table := by
  obtain ⟨hne, hlink⟩ := hlink
  obtain ⟨t, ht, ⟨i, hkey⟩, htable⟩ := table_of_syncHolders h
  have ht' : w'.store.table T = .ok (t.relinked key owner targets) := by
    rw [htable, Function.update_self]
  have hrows := hlink t ht
  have hfull' := hfull.table ht
  constructor
  · refine ⟨t, _, ht, htable, List.forall₂_map_right_iff.2 (List.forall₂_same.2 fun row hrow => ?_)⟩
    obtain ⟨⟨id, hid⟩, k, hk⟩ := hrows row hrow
    exact Table.relinked_relink hne (hfull' row hrow) hkey hid hk
  · have hid : (t.relinked key owner targets).rows ≠ [] → ∃ j, t.place? idName = some j := by
      intro hnonempty
      obtain ⟨_, hmem⟩ := List.exists_mem_of_ne_nil _ hnonempty
      obtain ⟨row, hrow, rfl⟩ := List.mem_map.1 hmem
      obtain ⟨⟨id, hid⟩, -⟩ := hrows row hrow
      exact Table.place?_of_int hid
    obtain ⟨w'', hagain⟩ : ∃ w'', (syncHolders T key owner targets).runIn w' = (.ok (), w'') :=
      exists_syncHolders ht' hfull'.relinked hkey hid
    obtain ⟨u, hu, -, htable'⟩ := table_of_syncHolders hagain
    obtain rfl := Except.ok.inj (ht'.symm.trans hu)
    -- a row that was linked anew is left as it is by the second sync
    have htwice : (t.relinked key owner targets).relinked key owner targets
        = t.relinked key owner targets := by
      have hmap : (t.rows.map (t.relink key owner targets)).map (t.relink key owner targets)
          = t.rows.map (t.relink key owner targets) := by
        rw [List.map_map]
        refine List.map_congr_left fun row hrow => ?_
        obtain ⟨⟨id, hid⟩, k, hk⟩ := hrows row hrow
        exact Table.relink_relink hne (hfull' row hrow) hkey hid hk
      exact congrArg (fun rows => { t with rows }) hmap
    refine ⟨w'', hagain, ?_⟩
    rw [htable', htwice, ← ht', Function.update_eq_self]

/-- A sync of pairs is complete, and a second one changes nothing. -/
theorem syncPairs_complete (hfull : w.store.Full) (hne : ownerKey ≠ relatedKey)
    (hpairs : ∀ p, w.store.table pivot = .ok p → p.PairKeys ownerKey relatedKey)
    (h : (syncPairs pivot ownerKey relatedKey owner targets).runIn w = (.ok (), w')) :
    (∃ p p', w.store.table pivot = .ok p ∧
      w'.store.table = Function.update w.store.table pivot (.ok p') ∧
      p.PairsSynced p' ownerKey relatedKey owner targets) ∧
    ∃ w'', (syncPairs pivot ownerKey relatedKey owner targets).runIn w' = (.ok (), w'') ∧
      w''.store.table = w'.store.table := by
  obtain ⟨p, added, next, hp, htable, hadded, -, hcolumns⟩ := table_of_syncPairs h
  have hkeys := hpairs p hp
  have hsynced : p.PairsSynced (p.repaired ownerKey relatedKey owner targets added next) ownerKey
      relatedKey owner targets := hkeys.synced (hfull.table hp) hne hadded hcolumns
  refine ⟨⟨p, _, hp, htable, hsynced⟩, ?_⟩
  obtain ⟨hkeys', hfull'⟩ := hkeys.repaired (hfull.table hp) targets next hadded hcolumns
  have hp' : w'.store.table pivot
      = .ok (p.repaired ownerKey relatedKey owner targets added next) := by
    rw [htable, Function.update_self]
  obtain ⟨hnone, hsame⟩ := hkeys'.complete hfull' hsynced.paired
  obtain ⟨w'', hagain⟩ := exists_syncPairs hp' hfull' (fun hrows => (hkeys'.exists_place? hrows).1)
    (fun hrows => (hkeys'.exists_place? hrows).2) fun hne => absurd hnone hne
  obtain ⟨q, added', next', hq, htable', hadded', hnext, -⟩ := table_of_syncPairs hagain
  obtain rfl := Except.ok.inj (hp'.symm.trans hq)
  rw [hnone] at hadded'
  obtain rfl := List.forall₂_nil_left_iff.1 hadded'
  refine ⟨w'', hagain, ?_⟩
  rw [htable', hnext rfl, hsame, ← hp', Function.update_eq_self]

/-- A sync makes the listed targets the targets of the owner and does nothing else, if its keys are
sound; running it again changes nothing. A sync that fails has changed nothing, unless the table of
pairs ran out of keys. -/
theorem sync_complete (r : Relation) (owner : Int64) (targets : List Int64) (w w' : World)
    (hfull : w.store.Full) :
    ((sync r owner targets).runIn w = (.ok (), w') → w.store.Linkable r →
      Synced r owner targets w.store w'.store ∧
      ∃ w'', (sync r owner targets).runIn w' = (.ok (), w'') ∧
        w''.store.table = w'.store.table) ∧
    (∀ e, (sync r owner targets).runIn w = (.error e, w') →
      (∀ T, e ≠ Error.ofStore (.keysExhausted T)) → w'.store.table = w.store.table) := by
  unfold sync Store.Linkable Synced
  cases r.link with
  | belongsTo key =>
    constructor
    · intro h
      cases h
    · intro e h _
      obtain ⟨-, rfl⟩ := Prod.mk.inj h
      rfl
  | hasOne key =>
    exact ⟨fun h hlink => syncHolders_complete hfull hlink h,
      fun e h _ => table_of_syncHolders_error hfull h⟩
  | hasMany key =>
    exact ⟨fun h hlink => syncHolders_complete hfull hlink h,
      fun e h _ => table_of_syncHolders_error hfull h⟩
  | belongsToMany pivot ownerKey relatedKey =>
    exact ⟨fun h hlink => syncPairs_complete hfull hlink.1 hlink.2 h,
      fun e h hkeys => table_of_syncPairs_error h (hkeys pivot)⟩

/-- The books of an author on the shelf. -/
def shelfBooks : Relation :=
  ⟨"books", "authors", Sample.Shelf.book, "books", .hasMany "author_id"⟩

theorem sync_shelf_complete :
    Synced shelfBooks 2 [3, 1, 3] Sample.Shelf.store
        ((sync shelfBooks 2 [3, 1, 3]).runIn ⟨Sample.Shelf.store, []⟩).2.store ∧
      ∃ w'', (sync shelfBooks 2 [3, 1, 3]).runIn
          ((sync shelfBooks 2 [3, 1, 3]).runIn ⟨Sample.Shelf.store, []⟩).2 = (.ok (), w'') ∧
        w''.store.table
          = ((sync shelfBooks 2 [3, 1, 3]).runIn ⟨Sample.Shelf.store, []⟩).2.store.table := by
  have hlink : Sample.Shelf.store.Linkable shelfBooks := by
    refine ⟨by decide, fun t ht row hrow => ?_⟩
    obtain rfl : Sample.Shelf.books = t := Except.ok.inj ht
    have hrows : row = [.int 1, .text "Studyology", .int 1] ∨
        row = [.int 2, .text "Learning!", .int 2] ∨ row = [.int 3, .text "Untitled", .null] := by
      simpa [Sample.Shelf.books] using hrow
    rcases hrows with rfl | rfl | rfl
    · exact ⟨⟨1, rfl⟩, some 1, rfl⟩
    · exact ⟨⟨2, rfl⟩, some 2, rfl⟩
    · exact ⟨⟨3, rfl⟩, none, rfl⟩
  exact (sync_complete shelfBooks 2 [3, 1, 3] ⟨Sample.Shelf.store, []⟩ _ (by decide)).1 rfl hlink

/-- A relation whose targets hold the key of their owner in the column of their ids. -/
def booksByTheirId : Relation :=
  ⟨"books", "authors", Sample.Shelf.book, "books", .hasMany "id"⟩

/-- A table of one book. -/
def oneBook : Table :=
  ⟨"books", [⟨"id", .serial, .null⟩, ⟨"title", .text, .null⟩], [[.int 1, .text "Studyology"]], 2⟩

/-- Where the key of the owner stands in the column of ids a second sync undoes the first. -/
theorem sync_ids_not_idempotent :
    (⟨[oneBook]⟩ : Store).Full ∧ (⟨[oneBook]⟩ : Store).Ids "books" ∧
    (⟨[oneBook]⟩ : Store).ForeignKeys "books" "id" ∧
    ∃ w₁ w₂, (sync booksByTheirId 2 [1]).runIn ⟨⟨[oneBook]⟩, []⟩ = (.ok (), w₁) ∧
      (sync booksByTheirId 2 [1]).runIn w₁ = (.ok (), w₂) ∧
      w₁.store.table "books" = .ok { oneBook with rows := [[.int 2, .text "Studyology"]] } ∧
      w₂.store.table "books" = .ok { oneBook with rows := [[.null, .text "Studyology"]] } := by
  refine ⟨by decide, ?_, ?_, _, _, rfl, rfl, rfl, rfl⟩
  · intro t ht
    obtain rfl : oneBook = t := Except.ok.inj ht
    exact ⟨by decide, [1], by simp, rfl⟩
  · intro t ht
    obtain rfl : oneBook = t := Except.ok.inj ht
    refine ⟨by decide, fun row hrow => ?_⟩
    obtain rfl := List.mem_singleton.1 hrow
    exact ⟨some 1, rfl⟩

end Persist

end EntityGraph
