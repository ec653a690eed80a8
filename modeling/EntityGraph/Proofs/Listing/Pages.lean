import EntityGraph.Listing.Paginator
import EntityGraph.Proofs.Run.Action
import EntityGraph.Proofs.Store.Answer
import EntityGraph.Sample.Shelf

/-!
# The pages of a list

A query cut to a window answers the window of what it answers without one (`Store.select_window`).
So every window of a list is cut out of one and the same list of entities, whichever part of the
program cuts it, and the count is the length of that list.

* `Paginator.runIn_get` and `Paginator.runIn_count` are what a paginator gives for a window;
* `Paginator.runIn_firstPages` says that pages one after the other are the start of the list;
* `Paginator.pages_partition` puts them together.
-/

namespace EntityGraph

namespace Select

variable {α : Type}

@[simp] theorem window_none (items : List α) : window none none items = items := by
  simp [window]

end Select

namespace Store

variable {s : Store} {q : Query}

/-- Every kept row of a query has a record. -/
theorem select_eq_map : s.select q.toSelect
    = (s.selectRows q.toSelect).map fun f => f.rows.map (Select.part q.table f.schema) := by
  have hrecords : ∀ f : Frame, f.rows.mapM (Select.recordOf q.toSelect.columns f.schema)
      = .ok (f.rows.map (Select.part q.table f.schema)) := fun f =>
    mapM_eq_ok.2 (List.forall₂_map_right_iff.2 (List.forall₂_same.2 fun row _ =>
      Select.recordOf_allFrom q.table f.schema row))
  unfold select
  cases s.selectRows q.toSelect with
  | error failure => rfl
  | ok f => exact hrecords f

/-- The kept rows of a query are a window of those that it keeps without one. -/
theorem selectRows_window : s.selectRows q.toSelect
    = (s.selectRows q.withoutWindow.toSelect).map fun f =>
        ⟨f.schema, Select.window q.offset q.limit f.rows⟩ := by
  simp only [selectRows, Query.toSelect, Query.withoutWindow, Select.window_none]
  cases s.frame q.table q.joins with
  | error failure => rfl
  | ok f =>
    simp only [bind, Except.bind]
    cases f.rows.filterM fun row => s.testAll f.schema row q.filters with
    | error failure => rfl
    | ok rows =>
      simp only
      cases rows.mapM (Select.keyed q.order f.schema) with
      | error failure => rfl
      | ok keyed => rfl

/-- A query answers the window of what it answers without one. -/
theorem select_window : s.select q.toSelect
    = (s.select q.withoutWindow.toSelect).map (Select.window q.offset q.limit) := by
  rw [select_eq_map, select_eq_map, selectRows_window]
  cases s.selectRows q.withoutWindow.toSelect with
  | error failure => rfl
  | ok f => exact congrArg Except.ok (Select.map_window _ _ _ _)

end Store

namespace ListArgs

variable {α : Type}

theorem getD_positive (n : Option Nat) : (positive n).getD 0 = n.getD 0 := by
  cases n with
  | none => rfl
  | some n => cases n <;> rfl

/-- A page of a list. -/
theorem paginate_page (args : ListArgs) {n : Nat} (hn : 0 < n) (hlimit : args.limit = some n)
    (items : List α) : args.paginate items = (items.drop (args.offset.getD 0)).take n := by
  have hpositive : positive args.limit = some n := by
    rw [hlimit]
    exact Option.filter_some_pos (by simpa using hn)
  simp only [paginate, hpositive, getD_positive]

end ListArgs

namespace Paginator

/-- The list cut to a window. -/
def cut (p : Paginator) (limit offset : Option Nat) : Paginator :=
  (p.withLimit limit).withOffset offset

/-- The list without a window. -/
def whole (p : Paginator) : Paginator :=
  p.cut none none

/-- The list of entities that are at hand, in the place of those of a query. -/
def holding (p : Paginator) (entities : List Entity) : Paginator :=
  .of p.catalog p.maxDepth p.model (.materialized entities)

/-- The first `k` pages of `n` entities each, one after the other. -/
def firstPages (p : Paginator) (n : Nat) : Nat → Action (List Entity)
  | 0 => pure []
  | k + 1 => do
    let before ← p.firstPages n k
    let page ← (p.cut (some n) (some (k * n))).get
    return before ++ page

/-- The pages of `n` entities each, as many as the count calls for. -/
def pages (p : Paginator) (n : Nat) : Action (List Entity) := do
  let total ← p.count
  p.firstPages n ((total + n - 1) / n)

variable {p : Paginator} {q : Query} {w : World}

/-- What a database answers to a query of a paginator without a window. -/
def answer (p : Paginator) (q : Query) (s : Store) : Except Error (List Entity) :=
  (Action.stored (s.select q.withoutWindow.toSelect)).map (Entity.ofRecords p.model)

theorem get_eq (hsource : p.source = .query q) (hentries : p.entries = none)
    (limit offset : Option Nat) : (p.cut limit offset).get = (do
      let records ← Action.query ((q.withLimit (ListArgs.positive limit)).withOffset
        (ListArgs.positive offset))
      return Entity.ofRecords p.model records) := by
  simp only [get, cut, withLimit, withOffset, hentries, hsource]

/-- A window of a list is cut out of what its query answers without one. -/
theorem runIn_get (hsource : p.source = .query q) (hentries : p.entries = none)
    (limit offset : Option Nat) : ∃ w', w'.store = w.store ∧ (p.cut limit offset).get.runIn w
      = ((p.answer q w.store).map (p.cut limit offset).args.paginate, w') := by
  let windowed := (q.withLimit (ListArgs.positive limit)).withOffset (ListArgs.positive offset)
  have hq : windowed.withoutWindow = q.withoutWindow := rfl
  refine ⟨w.note (.statement (.select windowed.toSelect)), rfl, ?_⟩
  rw [get_eq hsource hentries, Action.runIn_bind, Action.runIn_query, Store.select_window, hq,
    answer]
  cases w.store.select q.withoutWindow.toSelect with
  | error failure => rfl
  | ok records =>
    have hwindow : Entity.ofRecords p.model
        (Select.window (ListArgs.positive offset) (ListArgs.positive limit) records)
          = (p.cut limit offset).args.paginate (Entity.ofRecords p.model records) :=
      Select.map_window _ _ _ _
    exact congrArg (fun entities => (Except.ok entities, _)) hwindow

/-- Counting a list runs its query without a window. -/
theorem runIn_count (hsource : p.source = .query q) (limit offset : Option Nat) :
    ∃ w', w'.store = w.store ∧ (p.cut limit offset).count.runIn w
      = ((p.answer q w.store).map List.length, w') := by
  have hcount : (p.cut limit offset).count = Action.count q.withoutWindow := by
    simp only [count, cut, withLimit, withOffset, hsource]
  rw [hcount]
  refine ⟨w.note (.statement (.count q.withoutWindow.toSelect)), rfl, ?_⟩
  have hrun : (Action.count q.withoutWindow).runIn w
      = (Action.ofStore (w.store.count q.withoutWindow.toSelect)).runIn
          (w.note (.statement (.count q.withoutWindow.toSelect))) := rfl
  rw [hrun, Action.runIn_ofStore, Store.count, answer]
  cases w.store.select q.withoutWindow.toSelect with
  | error failure => rfl
  | ok records =>
    have hlength : (Entity.ofRecords p.model records).length = records.length := List.length_map _
    exact congrArg (fun n => (Except.ok n, _)) hlength.symm

/-- A list without a window is what its query answers. -/
theorem runIn_whole (hsource : p.source = .query q) (hentries : p.entries = none) :
    ∃ w', w'.store = w.store ∧ p.whole.get.runIn w = (p.answer q w.store, w') := by
  obtain ⟨w', hstore, hrun⟩ := runIn_get (w := w) hsource hentries none none
  refine ⟨w', hstore, hrun.trans ?_⟩
  cases p.answer q w.store <;> rfl

/-- Pages one after the other are the start of the list. -/
theorem runIn_firstPages (hsource : p.source = .query q) (hentries : p.entries = none)
    {entities : List Entity} (hanswer : p.answer q w.store = .ok entities) {n : Nat} (hn : 0 < n)
    (k : Nat) : ∃ w', w'.store = w.store ∧
      (p.firstPages n k).runIn w = (.ok (entities.take (k * n)), w') := by
  induction k with
  | zero => exact ⟨w, rfl, by simp [firstPages]⟩
  | succ k ih =>
    obtain ⟨w₁, hw₁, hbefore⟩ := ih
    obtain ⟨w₂, hw₂, hpage⟩ := runIn_get (w := w₁) hsource hentries (some n) (some (k * n))
    rw [hw₁, hanswer] at hpage
    have hcut : (p.cut (some n) (some (k * n))).args.paginate entities
        = (entities.drop (k * n)).take n := ListArgs.paginate_page _ hn rfl entities
    refine ⟨w₂, hw₂.trans hw₁, ?_⟩
    rw [firstPages, Action.runIn_bind_ok hbefore, Action.runIn_bind_ok hpage, Action.runIn_pure,
      hcut, Nat.succ_mul, List.take_add]

theorem count_le_pages {total n : Nat} (hn : 0 < n) : total ≤ (total + n - 1) / n * n := by
  have hdiv := Nat.div_add_mod (total + n - 1) n
  have hmod := Nat.mod_lt (total + n - 1) hn
  rw [Nat.mul_comm] at hdiv
  omega

/-- All pages of a list are the list, or fail as it does. -/
theorem runIn_pages (hsource : p.source = .query q) (hentries : p.entries = none) {n : Nat}
    (hn : 0 < n) : ((p.pages n).runIn w).1 = p.answer q w.store := by
  obtain ⟨w₁, hw₁, hcount⟩ := runIn_count (w := w) hsource p.limit p.offset
  have hsame : p.cut p.limit p.offset = p := rfl
  rw [hsame] at hcount
  cases hanswer : p.answer q w.store with
  | error e =>
    rw [hanswer] at hcount
    rw [pages, Action.runIn_bind_error hcount]
  | ok entities =>
    rw [hanswer] at hcount
    obtain ⟨w₂, -, hpages⟩ := runIn_firstPages (w := w₁) hsource hentries (hw₁ ▸ hanswer) hn
      ((entities.length + n - 1) / n)
    rw [pages, Action.runIn_bind_ok hcount, hpages, List.take_of_length_le (count_le_pages hn)]

/-- The windows of a list that a query answers are cut out of one list. Whatever the window, the
count is the length of that list, and the window is the one that the restrictions themselves cut out
of it, as does a paginator over its entities; zero cuts nothing off. The pages of any size, one
after the other up to the count, are the list itself. -/
theorem pages_partition (p : Paginator) (q : Query) (hsource : p.source = .query q)
    (hentries : p.entries = none) (w : World) :
    (∀ limit offset,
      ((p.cut limit offset).count.runIn w).1 = (p.whole.get.runIn w).1.map List.length ∧
      ((p.cut limit offset).get.runIn w).1
        = (p.whole.get.runIn w).1.map (p.cut limit offset).args.paginate ∧
      ∀ entities, (p.whole.get.runIn w).1 = .ok entities →
        ((p.cut limit offset).get.runIn w).1
          = (((p.holding entities).cut limit offset).get.runIn w).1) ∧
    (∀ n, (p.cut (some 0) n).get = (p.cut none n).get ∧
      (p.cut n (some 0)).get = (p.cut n none).get) ∧
    ∀ n, 0 < n → ((p.pages n).runIn w).1 = (p.whole.get.runIn w).1 ∧
      ∀ entities, (p.whole.get.runIn w).1 = .ok entities →
        ∀ k, ((p.firstPages n k).runIn w).1 = .ok (entities.take (k * n)) := by
  obtain ⟨w₀, -, hwhole⟩ := runIn_whole (w := w) hsource hentries
  rw [hwhole]
  refine ⟨fun limit offset => ?_, fun n => ?_, fun n hn => ?_⟩
  · obtain ⟨w₁, -, hcount⟩ := runIn_count (w := w) hsource limit offset
    obtain ⟨w₂, -, hget⟩ := runIn_get (w := w) hsource hentries limit offset
    rw [hcount, hget]
    refine ⟨rfl, rfl, fun entities hanswer => ?_⟩
    -- entities that are at hand are cut in memory, by the same rule
    have hheld : ((p.holding entities).cut limit offset).get
        = pure ((p.cut limit offset).args.paginate entities) := rfl
    rw [hheld, Action.runIn_pure, show p.answer q w.store = .ok entities from hanswer]
    rfl
  · constructor
    · rw [get_eq hsource hentries, get_eq hsource hentries]
      rfl
    · rw [get_eq hsource hentries, get_eq hsource hentries]
      rfl
  · refine ⟨runIn_pages hsource hentries hn, fun entities hanswer k => ?_⟩
    obtain ⟨w₁, -, hpages⟩ := runIn_firstPages (w := w) hsource hentries hanswer hn k
    rw [hpages]

section Shelf

open Sample

/-- The books of the shelf, by their titles. -/
def booksByTitle : Paginator :=
  .of Shelf.catalog 3 Shelf.book
    (.query ((Query.all "books").orderBy (Column.of "books" "title") .asc))

/-- The three books of the shelf are a page of two and a page of one. -/
theorem pages_partition_shelf : ∃ books : List Entity,
    books.map (·.id?) = [some 2, some 1, some 3] ∧
    ((booksByTitle.pages 2).runIn ⟨Shelf.store, []⟩).1 = .ok books ∧
    ((booksByTitle.cut (some 2) (some 0)).get.runIn ⟨Shelf.store, []⟩).1 = .ok (books.take 2) ∧
    ((booksByTitle.cut (some 2) (some 2)).get.runIn ⟨Shelf.store, []⟩).1 = .ok (books.drop 2) ∧
    ((booksByTitle.cut (some 2) (some 2)).count.runIn ⟨Shelf.store, []⟩).1 = .ok 3 := by
  obtain ⟨hwindows, -, hpages⟩ := pages_partition booksByTitle _ rfl rfl ⟨Shelf.store, []⟩
  have hids : (booksByTitle.whole.get.runIn ⟨Shelf.store, []⟩).1.toOption.map
      (List.map (·.id?)) = some [some 2, some 1, some 3] := by decide +kernel
  obtain ⟨books, hbooks, hids⟩ := Option.map_eq_some_iff.1 hids
  have hwhole := eq_ok_of_toOption hbooks
  have hlength : books.length = 3 := by simpa using congrArg List.length hids
  refine ⟨books, hids, (hpages 2 (by decide)).1.trans hwhole, ?_, ?_, ?_⟩
  · rw [(hwindows (some 2) (some 0)).2.1, hwhole]
    exact congrArg Except.ok (ListArgs.paginate_page _ (by decide) rfl books)
  · have hrest : (books.drop 2).take 2 = books.drop 2 := by
      rw [List.take_of_length_le]
      rw [List.length_drop]
      omega
    rw [(hwindows (some 2) (some 2)).2.1, hwhole]
    exact congrArg Except.ok ((ListArgs.paginate_page _ (by decide) rfl books).trans hrest)
  · rw [(hwindows (some 2) (some 2)).1, hwhole]
    exact congrArg Except.ok hlength

end Shelf

end Paginator

end EntityGraph
