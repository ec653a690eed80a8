import EntityGraph.Proofs.Store.Range
import EntityGraph.Proofs.Store.Sort

/-!
# Rows as long as their columns

A row has a datum for each of its columns: every row of a table, whatever calls the database has
seen, and every row that comes up in a statement. So the place of a column is never behind the end
of the row in which it is read or set.

* `Store.callAll` is a database after calls, of which some may have been refused, and
  `Store.Full.call` says that each call leaves its tables full;
* `Store.Sees.fits` says that where tables are full the rows that come up fit their columns;
* `Store.SetsWithin` says the same of the places at which an update sets data;
* `Store.rows_fit` is the result.
-/

namespace EntityGraph

/-- A call of a database: a table is created, with rows or without, or a statement is run. -/
inductive Call where
  | create (name : String) (schema : List ColumnSpec)
  | createWith (name : String) (schema : List ColumnSpec) (rows : List (List Datum))
  | run (st : Statement)

namespace Store

/-- The database after a call, whether it is refused or not. -/
def call (s : Store) : Call → Store
  | .create name schema => s.create name schema
  | .createWith name schema rows => (s.createWith name schema rows).1
  | .run st => s.execute st

/-- The database after calls, one after the other. -/
def callAll (s : Store) (calls : List Call) : Store :=
  calls.foldl call s

end Store

section Tables

variable {s : Store} {t t' : Table}

theorem Table.full_new (name : String) (schema : List ColumnSpec) : (Table.new name schema).Full :=
  nofun

theorem Table.Full.append {columns : List String} {values : List Datum} {key : Option Int64}
    (ht : t.Full) (h : t.append columns values = .ok (t', key)) : t'.Full := by
  obtain ⟨-, row, next, rfl, hfills⟩ := Table.append_eq_ok h
  intro r hr
  rcases List.mem_append.1 hr with hr | hr
  · exact ht r hr
  · rw [List.mem_singleton.1 hr]
    exact hfills.length_eq.symm

/-- The rows before a refused one fit as well. -/
theorem Table.Full.appendAll (ht : t.Full) (columns : List String) (rows : List (List Datum)) :
    (t.appendAll columns rows).1.Full := by
  induction rows generalizing t with
  | nil => exact ht
  | cons values rest ih =>
    rw [Table.appendAll]
    cases happend : t.append columns values with
    | error failure => exact ht
    | ok p => exact ih (ht.append happend)

namespace Store

theorem full_empty : empty.Full :=
  nofun

namespace Full

variable (hs : s.Full)

include hs

theorem replace (ht : t.Full) : (s.replace t).Full := by
  intro u hu
  obtain ⟨v, hv, rfl⟩ := List.mem_map.1 hu
  split_ifs
  · exact ht
  · exact hs v hv

theorem create (name : String) (schema : List ColumnSpec) : (s.create name schema).Full := by
  unfold Store.create
  split_ifs
  · exact hs
  · intro t ht
    rcases List.mem_append.1 ht with ht | ht
    · exact hs t ht
    · rw [List.mem_singleton.1 ht]
      exact Table.full_new name schema

theorem insert (i : Insertion) : (s.insert i).1.Full := by
  cases ht : s.table i.table with
  | error failure => rwa [insert_eq_error ht]
  | ok t =>
    rw [insert_eq ht]
    exact hs.replace ((hs.table ht).appendAll i.columns i.rows)

theorem update {u : Update} {n : Nat} {s' : Store} (h : s.update u = .ok (s', n)) : s'.Full := by
  obtain ⟨T, assignments, filters⟩ := u
  by_cases hne : assignments = []
  · subst hne
    obtain ⟨rfl, -⟩ := Prod.mk.inj (Except.ok.inj h)
    exact hs
  · obtain ⟨t, ht, -, -, rfl, -⟩ := (update_eq_ok hne).1 h
    refine hs.replace fun row hrow => ?_
    obtain ⟨r, hr, rfl⟩ := List.mem_map.1 hrow
    split_ifs
    · rw [Table.length_foldl_setDatum]
      exact hs.table ht r hr
    · exact hs.table ht r hr

theorem delete {d : Deletion} {n : Nat} {s' : Store} (h : s.delete d = .ok (s', n)) : s'.Full := by
  obtain ⟨t, ht, -, rfl, -⟩ := delete_eq_ok.1 h
  exact hs.replace fun row hrow => hs.table ht row (List.mem_of_mem_filter hrow)

theorem execute (st : Statement) : (s.execute st).Full := by
  cases st with
  | select q => exact hs
  | count q => exact hs
  | insert i => exact hs.insert i
  | update u =>
    rw [Store.execute]
    split
    · exact hs.update ‹_›
    · exact hs
  | delete d =>
    rw [Store.execute]
    split
    · exact hs.delete ‹_›
    · exact hs

/-- A call leaves full tables, whether it is refused or not. -/
theorem call (c : Call) : (s.call c).Full := by
  cases c with
  | create name schema => exact hs.create name schema
  | createWith name schema rows => exact (hs.create name schema).insert _
  | run st => exact hs.execute st

theorem callAll (calls : List Call) : (s.callAll calls).Full := by
  induction calls generalizing s with
  | nil => exact hs
  | cons c calls ih => exact ih (hs.call c)

end Full

end Store

end Tables

section Rows

variable {s : Store} {t : Table} {f g : Frame} {schema schema' : List Column} {row row' : Row}

/-- Every row of a frame has a datum for each of its columns. -/
def Frame.Full (f : Frame) : Prop :=
  ∀ row ∈ f.rows, row.Fits f.schema

theorem Table.Full.ofTable (ht : t.Full) : (Frame.ofTable t).Full := fun row hrow => by
  rw [Row.Fits, Frame.ofTable, Table.columns, List.length_map]
  exact ht row hrow

theorem Row.Fits.append {l r : Row} (hl : l.Fits schema) (hr : r.Fits schema') :
    (l ++ r).Fits (schema ++ schema') := by
  rw [Row.Fits, List.length_append, List.length_append, hl, hr]

theorem Frame.Full.join {j : Join} (hf : f.Full) (ht : t.Full) (h : f.join j t = .ok g) :
    g.Full := by
  obtain ⟨-, rfl⟩ := Store.join_eq_ok.1 h
  intro row hrow
  obtain ⟨l, hl, hrow⟩ := List.mem_flatMap.1 (List.mem_of_mem_filter hrow)
  obtain ⟨r, hr, rfl⟩ := List.mem_map.1 hrow
  exact (hf l hl).append (ht.ofTable r hr)

theorem Select.mem_of_mem_window {α : Type} {offset limit : Option Nat} {items : List α} {a : α}
    (h : a ∈ window offset limit items) : a ∈ items := by
  cases limit with
  | none => exact List.mem_of_mem_drop h
  | some n => exact List.mem_of_mem_drop (List.mem_of_mem_take h)

namespace Store

variable {T : String} {joins : List Join} {c : Condition} {st : Statement}

theorem JoinSees.fits (hs : s.Full) (h : s.JoinSees f joins schema row) (hf : f.Full) :
    row.Fits schema := by
  induction h with
  | row hrow => exact hf _ hrow
  | pair ht hl hr => exact (hf _ hl).append ((hs.table ht).ofTable _ hr)
  | later ht hg _ ih => exact ih (hf.join (hs.table ht) hg)

theorem FrameSees.fits (hs : s.Full) (h : s.FrameSees T joins schema row) : row.Fits schema := by
  obtain ⟨t, ht, hsee⟩ := h
  exact hsee.fits hs (hs.table ht).ofTable

theorem TestSees.fits (hs : s.Full) (h : s.TestSees schema row c schema' row')
    (hrow : row.Fits schema) : row'.Fits schema' := by
  -- a condition on the rows of other tables starts anew, from a full frame
  induction h with
  | row => exact hrow
  | all _ _ ih => exact ih hrow
  | any _ _ ih => exact ih hrow
  | not _ ih => exact ih hrow
  | joined h => exact h.fits hs
  | within hf hr _ ih => exact ih ((FrameSees.of_frame hf hr).fits hs)

/-- The rows that a selection keeps are rows of its frame. -/
theorem exists_frame_of_selectRows {q : Select} (h : s.selectRows q = .ok g) :
    ∃ f, s.frame q.table q.joins = .ok f ∧ g.schema = f.schema ∧ ∀ row ∈ g.rows, row ∈ f.rows := by
  obtain ⟨f, keyed, hf, -, hkeyed, rfl⟩ := selectRows_eq_ok.1 h
  refine ⟨f, hf, rfl, fun row hrow => ?_⟩
  obtain ⟨x, hx, rfl⟩ := List.mem_map.1 (Select.mem_of_mem_window hrow)
  obtain ⟨r, hr, hkey⟩ :=
    exists_of_forall₂_right (mapM_eq_ok.1 hkeyed) (Select.mem_stableSort.1 hx)
  rw [Select.keyed_eq_ok hkey]
  exact List.mem_of_mem_filter hr

/-- In full tables, all rows that come up in a statement fit their columns. -/
theorem Sees.fits (hs : s.Full) (h : s.Sees st schema row) : row.Fits schema := by
  cases h with
  | joined _ h => exact h.fits hs
  | tested _ hf hr _ h => exact h.fits hs ((FrameSees.of_frame hf hr).fits hs)
  | projected _ hf hrow =>
    obtain ⟨f, hframe, hschema, hrows⟩ := exists_frame_of_selectRows hf
    rw [hschema]
    exact (FrameSees.of_frame hframe (hrows _ hrow)).fits hs

/-- The places at which an update sets data are there: the rows that it marks are those of its
table, in order, and each datum is set within the row, as this is by then. -/
def SetsWithin (s : Store) (u : Update) : Prop :=
  ∀ t, s.table u.table = .ok t →
    (∀ marks, s.marked u.table u.filters = .ok marks → marks.map (·.2) = t.rows) ∧
    ∀ cells, targets t u.assignments = .ok cells → ∀ row ∈ t.rows, ∀ before cell after,
      cells = before ++ cell :: after → cell.1 < (setCells row before).length

theorem length_setCells (row : Row) (cells : List (Nat × Datum)) :
    (setCells row cells).length = row.length := by
  unfold setCells
  induction cells generalizing row with
  | nil => rfl
  | cons cell cells ih => rw [List.foldl_cons, ih, List.length_set]

theorem map_marked {filters : List Condition} {marks : List (Bool × Row)} (ht : s.table T = .ok t)
    (h : s.marked T filters = .ok marks) : marks.map (·.2) = t.rows := by
  obtain ⟨u, hu, -, rfl⟩ := marked_eq_ok.1 h
  obtain rfl := Except.ok.inj (ht.symm.trans hu)
  rw [List.map_map]
  exact List.map_id _

theorem Full.setsWithin (hs : s.Full) (u : Update) : s.SetsWithin u := by
  refine fun t ht => ⟨fun marks hmarks => map_marked ht hmarks, ?_⟩
  rintro cells hcells row hrow before cell after rfl
  obtain ⟨a, -, hplace, -⟩ :=
    exists_of_forall₂_right (targets_eq_ok.1 hcells) (List.mem_append_right _ List.mem_cons_self)
  rw [length_setCells, hs.table ht row hrow]
  exact Table.lt_of_place? hplace

/-- After any calls, of which some may have been refused, every row of a table has a datum for each
column of its schema. In every statement all rows that come up where tables are joined, where rows
are tested, below conditions on the rows of other tables as well, and where they are projected have
a datum for each of the columns for which they are read. So no row is read beyond its end, and in no
update is a datum set beyond it. -/
theorem rows_fit (calls : List Call) (st : Statement) :
    (∀ t ∈ (empty.callAll calls).tables, ∀ row ∈ t.rows, row.length = t.schema.length) ∧
    (∀ schema row, (empty.callAll calls).Sees st schema row → row.length = schema.length) ∧
    InRange ((empty.callAll calls).verdict st) ∧ ∀ u, (empty.callAll calls).SetsWithin u := by
  have hfull := full_empty.callAll calls
  have hsees : ∀ schema row, (empty.callAll calls).Sees st schema row → row.Fits schema :=
    fun _ _ h => h.fits hfull
  exact ⟨hfull, hsees, inRange_verdict hsees, hfull.setsWithin⟩

section Books

/-- A table of books is created with a book, and again with other columns and another book. Of two
further books the second is refused. -/
def bookCalls : List Call :=
  [.createWith "books" bookColumns [[.text "Studyology"]],
    .createWith "books" [⟨"title", .text, .null⟩, ⟨"pages", .serial, .null⟩] [[.text "Drama"]],
    .run untitledBook]

/-- The books that are there then. -/
def calledBooks : Table :=
  ⟨"books", bookColumns, [[.int 1, .text "Studyology"], [.int 2, .text "Drama"],
    [.int 3, .text "Untitled"]], 4⟩

/-- Each book with every book, since both columns of the join are those of the first, if there is a
book with its number. -/
def bookPairs : Select :=
  ⟨[.all], "books", [⟨"books", Column.of "books" "title", .eq, Column.named "title"⟩],
    [.existsRow "books" [] (Column.named "id") (Column.named "id") (.all [])],
    [⟨Column.named "id", .asc⟩], none, none⟩

/-- A book has two columns, also in the table that was to have others, and a pair of books four. -/
theorem rows_fit_books :
    (empty.callAll bookCalls).table "books" = .ok calledBooks ∧ calledBooks.Full ∧
    (∃ schema row, (empty.callAll bookCalls).Sees (.select bookPairs) schema row ∧
      schema.length = 4 ∧ row.length = 4) ∧
    (empty.callAll bookCalls).count bookPairs = .ok 9 ∧
    InRange ((empty.callAll bookCalls).verdict (.select bookPairs)) ∧
    (empty.callAll bookCalls).SetsWithin ⟨"books", [("title", .null)], []⟩ := by
  have htable : (empty.callAll bookCalls).table "books" = .ok calledBooks := rfl
  obtain ⟨hfull, hfits, hrange, hsets⟩ := rows_fit bookCalls (.select bookPairs)
  have hpair : (empty.callAll bookCalls).Sees (.select bookPairs)
      ((Frame.ofTable calledBooks).schema ++ calledBooks.columns)
      ([.int 1, .text "Studyology"] ++ [.int 2, .text "Drama"]) :=
    .joined rfl ⟨calledBooks, htable, .pair htable List.mem_cons_self
      (List.mem_cons_of_mem _ List.mem_cons_self)⟩
  exact ⟨htable, hfull _ (mem_of_table htable).1, ⟨_, _, hpair, rfl, hfits _ _ hpair⟩, rfl, hrange,
    hsets _⟩

end Books

end Store

end Rows

end EntityGraph
