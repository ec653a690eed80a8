import Mathlib.Data.List.Sort
import EntityGraph.Proofs.Store.Selection
import EntityGraph.Sample.Shelf

/-!
# Positions in produced rows

A selection of columns produces records, and a record is asked for the datum at a position. Records
keep their columns in the order of the names, so the positions are those of the requested columns
only where these are requested in that order.

* `Select.Settles` says in which order the requested columns settle in a record, and
  `Select.Settles.eq_iff` when it is the order of the request;
* `Record.Answers` says what a record answers at each position;
* `Store.select_columns` is the result.
-/

namespace EntityGraph

namespace Select

/-- The order in which requested columns settle in a record: the names ascend, and of several
columns with one name the last is kept. -/
structure Settles (columns settled : List Column) : Prop where
  ascending : settled.Pairwise (·.name < ·.name)
  mem_iff : ∀ c, c ∈ settled ↔ columns.reverse.find? (·.name == c.name) = some c

variable {cs settled : List Column} {schema : List Column} {row : Row} {record : Record}

/-- In ascending order each name comes once. -/
theorem mem_iff_of_ascending (h : cs.Pairwise (·.name < ·.name)) (c : Column) :
    c ∈ cs ↔ cs.reverse.find? (·.name == c.name) = some c := by
  constructor
  · intro hc
    have hnames : (cs.map (·.name)).Nodup := List.pairwise_map.2 (h.imp fun hlt => ne_of_lt hlt)
    have hsome : (cs.reverse.find? (·.name == c.name)).isSome = true :=
      List.find?_isSome.2 ⟨c, List.mem_reverse.2 hc, by simp⟩
    obtain ⟨c', hfind⟩ := Option.isSome_iff_exists.1 hsome
    have hname : c'.name = c.name := by simpa using List.find?_some hfind
    have hmem : c' ∈ cs := List.mem_reverse.1 (List.mem_of_find?_eq_some hfind)
    rw [hfind, List.inj_on_of_nodup_map hnames hmem hc hname]
  · exact fun h => List.mem_reverse.1 (List.mem_of_find?_eq_some h)

/-- Columns settle in the order of the request exactly if their names ascend in it. -/
theorem Settles.eq_iff (h : Settles cs settled) :
    settled = cs ↔ cs.Pairwise (·.name < ·.name) := by
  constructor
  · rintro rfl
    exact h.ascending
  · intro hcs
    have : Std.Irrefl fun c d : Column => c.name < d.name := ⟨fun c => lt_irrefl c.name⟩
    have : Std.Antisymm fun c d : Column => c.name < d.name :=
      ⟨fun _ _ hlt hgt => absurd hlt (lt_asymm hgt)⟩
    exact h.ascending.eq_of_mem_iff hcs fun c => (h.mem_iff c).trans (mem_iff_of_ascending hcs c).symm

/-- The requested columns by their names. -/
def byName (cs : List Column) : Dict Column :=
  Dict.ofList (cs.map fun c => (c.name, c))

theorem lookup_map_name (cs : List Column) (name : String) :
    (cs.map fun c => (c.name, c)).lookup name = cs.find? (·.name == name) := by
  induction cs with
  | nil => rfl
  | cons c cs ih =>
    rw [List.map_cons, Dict.lookup_cons_eq_ite, List.find?_cons, ih]
    by_cases h : name = c.name
    · simp [h]
    · rw [if_neg h, beq_false_of_ne (Ne.symm h)]

theorem mem_byName {name : String} {c : Column} :
    (name, c) ∈ (byName cs).entries ↔ cs.reverse.find? (·.name == name) = some c := by
  rw [byName, (Dict.sorted_ofList _).mem_entries, Dict.get?_ofList, ← List.map_reverse,
    lookup_map_name]

theorem name_eq_of_mem_byName {e : String × Column} (he : e ∈ (byName cs).entries) :
    e.1 = e.2.name := by
  have hname := List.find?_some (mem_byName.1 he)
  exact (beq_iff_eq.1 hname).symm

/-- Requested columns settle in the order of their names. -/
theorem settles_byName (cs : List Column) : Settles cs (byName cs).values where
  ascending := by
    refine List.pairwise_map.2 ((Dict.sorted_ofList _).imp_of_mem fun he he' hlt => ?_)
    rwa [← name_eq_of_mem_byName he, ← name_eq_of_mem_byName he']
  mem_iff c := by
    rw [← mem_byName, Dict.values, List.mem_map]
    constructor
    · rintro ⟨e, he, rfl⟩
      rw [← name_eq_of_mem_byName he]
      exact he
    · exact fun he => ⟨_, he, rfl⟩

/-- The record of requested columns is built from what the row holds there. -/
theorem recordOf_columns : recordOf (cs.map .column) schema row = .ok record ↔
    ∃ data, List.Forall₂ (fun c d => row.get schema c = .ok d) cs data ∧
      record = Dict.ofList ((cs.map (·.name)).zip data) := by
  have hfold : ∀ r : Record, (cs.map Projection.column).foldlM (project schema row) r = .ok record ↔
      ∃ data, List.Forall₂ (fun c d => row.get schema c = .ok d) cs data ∧
        record = ((cs.map (·.name)).zip data).foldl (fun r e => r.set e.1 e.2) r := by
    induction cs with
    | nil =>
      intro r
      rw [List.map_nil, List.foldlM_nil, pure_eq_ok]
      simp [eq_comm]
    | cons c cs ih =>
      intro r
      simp only [List.map_cons, List.foldlM_cons, bind_eq_ok, ih, project, pure_eq_ok,
        List.forall₂_cons_left_iff]
      constructor
      · rintro ⟨_, ⟨d, hd, rfl⟩, data, hdata, rfl⟩
        exact ⟨d :: data, ⟨d, data, hd, hdata, rfl⟩, rfl⟩
      · rintro ⟨_, ⟨d, data, hd, hdata, rfl⟩, rfl⟩
        exact ⟨_, ⟨d, hd, rfl⟩, data, hdata, rfl⟩
  exact hfold Dict.empty

/-- What a record of requested columns holds, in its order. -/
theorem forall₂_of_recordOf (h : recordOf (cs.map .column) schema row = .ok record) :
    List.Forall₂ (fun c d => row.get schema c = .ok d) (byName cs).values record.values := by
  obtain ⟨data, hdata, rfl⟩ := recordOf_columns.1 h
  have hentries : List.Forall₂ (fun e e' => e.1 = e'.1 ∧ row.get schema e.2 = .ok e'.2)
      (cs.map fun c => (c.name, c)) ((cs.map (·.name)).zip data) := by
    clear h
    induction hdata with
    | nil => exact .nil
    | cons hd _ ih => exact .cons ⟨rfl, hd⟩ ih
  exact (Dict.matches_ofList hentries).values

end Select

/-- A record answers at each position with what a row holds in the column at that position of a
list, and behind the end of the list with an error. -/
structure Record.Answers (record : Record) (schema : List Column) (row : Row) (cs : List Column) :
    Prop where
  within : ∀ i c, cs[i]? = some c → ∃ d, row.get schema c = .ok d ∧ record.column i = .ok d
  behind : ∀ i, cs.length ≤ i → record.column i = .error (.noColumnAt i)

namespace Record

variable {record : Record} {schema cs : List Column} {row : Row}

theorem answers_of_forall₂
    (h : List.Forall₂ (fun c d => row.get schema c = .ok d) cs record.values) :
    record.Answers schema row cs := by
  obtain ⟨hlength, hget⟩ := List.forall₂_iff_get.1 h
  refine ⟨fun i c hc => ?_, fun i hi => ?_⟩
  · obtain ⟨hlt, rfl⟩ := List.getElem?_eq_some_iff.1 hc
    have hlt' : i < record.values.length := hlength ▸ hlt
    exact ⟨record.values[i], hget i hlt hlt', by rw [column, List.getElem?_eq_getElem hlt']⟩
  · rw [column, List.getElem?_eq_none (hlength ▸ hi)]

/-- A record answers with an error exactly behind its columns. -/
theorem Answers.column_eq_error (h : record.Answers schema row cs) (i : Nat) :
    (∃ failure, record.column i = .error failure) ↔ cs.length ≤ i := by
  refine ⟨?_, fun hi => ⟨_, h.behind i hi⟩⟩
  rintro ⟨failure, hfailure⟩
  by_contra hlt
  obtain ⟨d, -, hd⟩ := h.within i _ (List.getElem?_eq_getElem (not_le.1 hlt))
  rw [hd] at hfailure
  cases hfailure

end Record

namespace Store

/-- The records that a selection of columns produces. Each keeps the requested columns in the order
in which they settle, which is that of the names, and answers at a position with what its row holds
in the column that settles there. Where the names of the requested columns ascend, that is the
column requested at the position, and an error is answered exactly at the positions behind the last
requested one. -/
theorem select_columns {s : Store} {q : Select} {cs : List Column} {records : List Record}
    (hcolumns : q.columns = cs.map .column) (h : s.select q = .ok records) :
    ∃ f settled, s.selectRows q = .ok f ∧ Select.Settles cs settled ∧
      List.Forall₂ (fun row record => Record.Answers record f.schema row settled) f.rows records ∧
      (cs.Pairwise (·.name < ·.name) →
        List.Forall₂ (fun row record => Record.Answers record f.schema row cs) f.rows records ∧
        ∀ record ∈ records, ∀ i,
          (∃ failure, Record.column record i = .error failure) ↔ cs.length ≤ i) := by
  obtain ⟨f, hrows, hrecords⟩ := select_eq_ok.1 h
  have hsettles := Select.settles_byName cs
  have hanswers : List.Forall₂ (fun row record =>
      Record.Answers record f.schema row (Select.byName cs).values) f.rows records := by
    rw [hcolumns] at hrecords
    exact (mapM_eq_ok.1 hrecords).imp fun row record hrecord =>
      Record.answers_of_forall₂ (Select.forall₂_of_recordOf hrecord)
  refine ⟨f, _, hrows, hsettles, hanswers, fun hascending => ?_⟩
  rw [hsettles.eq_iff.2 hascending] at hanswers
  refine ⟨hanswers, fun record hrecord i => ?_⟩
  obtain ⟨row, -, hrow⟩ := exists_of_forall₂_right hanswers hrecord
  exact hrow.column_eq_error i

section Shelf

/-- Titles are requested before keys, of one book. -/
def titleAndKey : Select :=
  ⟨[.column (Column.of "books" "title"), .column (Column.of "books" "id")], "books", [], [], [],
    some 1, none⟩

/-- The key stands before the title all the same. -/
theorem select_titleAndKey : ∃ record, Sample.Shelf.store.select titleAndKey = .ok [record] ∧
    Record.column record 0 = .ok (.int 1) ∧ Record.column record 1 = .ok (.text "Studyology") :=
  ⟨_, rfl, rfl, rfl⟩

/-- What is requested of books and their authors, in the order of the names. -/
def bylineColumns : List Column :=
  [Column.of "books" "author_id", Column.of "authors" "name", Column.of "books" "title"]

/-- Books with the names of their authors, the last book first. -/
def bylines : Select :=
  ⟨bylineColumns.map .column, "books",
    [⟨"authors", Column.of "authors" "id", .eq, Column.of "books" "author_id"⟩], [],
    [⟨Column.of "books" "id", .desc⟩], none, none⟩

theorem select_columns_bylines : bylines.columns = bylineColumns.map .column ∧
    bylineColumns.Pairwise (·.name < ·.name) ∧
    ∃ first second, Sample.Shelf.store.select bylines = .ok [first, second] ∧
      ((∃ failure, Record.column first 3 = .error failure) ↔ 3 ≤ 3) ∧
      Record.column first 1 = .ok (.text "Abed") := by
  have hascending : bylineColumns.Pairwise (·.name < ·.name) := by decide
  refine ⟨rfl, hascending, _, _, rfl, ?_, rfl⟩
  have hcolumns : bylines.columns = bylineColumns.map .column := rfl
  obtain ⟨f, settled, -, -, -, h⟩ := select_columns (s := Sample.Shelf.store) hcolumns rfl
  exact (h hascending).2 _ List.mem_cons_self 3

end Shelf

end Store

end EntityGraph
