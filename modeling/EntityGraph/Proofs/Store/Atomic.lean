import EntityGraph.Proofs.Store.Serial

/-!
# What a refused statement leaves

A refused update or deletion changes nothing. An insertion takes its rows one by one, so a refused
one leaves those before the first row that is refused.

* `Table.appendAll_refused` parts the rows of a refused insertion at the refused row;
* `Store.verdict` is whether a statement is carried out;
* `Statement.Starts` says that an insertion has its first row taken, and `Statement.Uneven` what its
  rows look like when another is refused;
* `Store.refused_execute` is the result.
-/

namespace EntityGraph

namespace Table

variable {t t' : Table} {columns : List String} {rows : List (List Datum)} {f : StoreFailure}

/-- A refused insertion takes the rows before the refused one as if they were all. -/
theorem appendAll_refused (h : t.appendAll columns rows = (t', .error f)) :
    ∃ before values after keys, rows = before ++ values :: after ∧
      t.appendAll columns before = (t', .ok keys) ∧ t'.append columns values = .error f := by
  induction rows generalizing t with
  | nil => simp [appendAll] at h
  | cons values rest ih =>
    rw [appendAll] at h
    cases happend : t.append columns values with
    | error g =>
      simp only [happend, Prod.mk.injEq, Except.error.injEq] at h
      obtain ⟨rfl, rfl⟩ := h
      exact ⟨[], values, rest, [], rfl, rfl, happend⟩
    | ok p =>
      obtain ⟨t₁, key⟩ := p
      simp only [happend, Prod.mk.injEq] at h
      obtain ⟨ht', hf⟩ := h
      cases hrest : (t₁.appendAll columns rest).2 with
      | ok keys =>
        rw [hrest] at hf
        cases hf
      | error g =>
        rw [hrest] at hf
        obtain rfl : g = f := Except.error.inj hf
        obtain ⟨before, refused, after, keys, rfl, hbefore, hrefused⟩ := ih (Prod.ext ht' hrest)
        refine ⟨values :: before, refused, after, key.toList ++ keys, rfl, ?_, hrefused⟩
        rw [appendAll, happend]
        simp only [hbefore]
        rfl

theorem length_rows_of_appendAll {keys : List Int64}
    (h : t.appendAll columns rows = (t', .ok keys)) :
    t'.rows.length = t.rows.length + rows.length := by
  obtain ⟨added, next, rfl, -, hadded⟩ := appendAll_eq_ok h
  rw [List.length_append, hadded.length_eq]

end Table

/-- A statement gets under way before it can be refused: it inserts rows, and the first is taken. -/
def Statement.Starts (s : Store) : Statement → Prop
  | .insert i => ∃ t first rest p, s.table i.table = .ok t ∧ i.rows = first :: rest ∧
      t.append i.columns first = .ok p
  | _ => False

/-- A statement inserts rows of different widths in columns that the table has: the first row has a
datum for each of them, and another has not. -/
def Statement.Uneven (s : Store) : Statement → Prop
  | .insert i => ∃ t first rest, s.table i.table = .ok t ∧ i.rows = first :: rest ∧
      (∀ c ∈ i.columns, t.hasColumn c = true) ∧ i.columns.length = first.length ∧
      ∃ values ∈ rest, i.columns.length ≠ values.length
  | _ => False

namespace Store

/-- Whether a statement is carried out, and the failure that it answers if not. -/
def verdict (s : Store) : Statement → Except StoreFailure Unit
  | .select q => (s.select q).map fun _ => ()
  | .count q => (s.count q).map fun _ => ()
  | .insert i => (s.insert i).2.map fun _ => ()
  | .update u => (s.update u).map fun _ => ()
  | .delete d => (s.delete d).map fun _ => ()

variable {s : Store} {st : Statement} {i : Insertion} {t : Table} {f : StoreFailure}

theorem insert_eq (ht : s.table i.table = .ok t) :
    s.insert i = (s.replace (t.appendAll i.columns i.rows).1, (t.appendAll i.columns i.rows).2) := by
  rw [insert, ht]

theorem insert_eq_error {failure : StoreFailure} (ht : s.table i.table = .error failure) :
    s.insert i = (s, .error failure) := by
  rw [insert, ht]

/-- The rows of a refused insertion, parted at the refused one. -/
theorem insert_refused (ht : s.table i.table = .ok t) (h : (s.insert i).2 = .error f) :
    ∃ before values after keys, i.rows = before ++ values :: after ∧
      t.appendAll i.columns before = ((t.appendAll i.columns i.rows).1, .ok keys) ∧
      (t.appendAll i.columns i.rows).1.append i.columns values = .error f := by
  rw [(insert_of_table ht).2] at h
  exact Table.appendAll_refused (Prod.ext rfl h)

/-- An insertion gets under way exactly if rows come before the refused one. -/
theorem starts_iff {before after : List (List Datum)} {values : List Datum} {keys : List Int64}
    {t' : Table} (ht : s.table i.table = .ok t) (hrows : i.rows = before ++ values :: after)
    (hbefore : t.appendAll i.columns before = (t', .ok keys))
    (hrefused : t'.append i.columns values = .error f) :
    (Statement.insert i).Starts s ↔ before ≠ [] := by
  cases before with
  | nil =>
    obtain ⟨rfl, -⟩ := Prod.mk.inj hbefore
    simp only [ne_eq, not_true, iff_false]
    rintro ⟨u, first, rest, p, hu, hfirst, htaken⟩
    obtain rfl := Except.ok.inj (ht.symm.trans hu)
    obtain ⟨rfl, -⟩ := List.cons.inj (hrows.symm.trans hfirst)
    rw [hrefused] at htaken
    cases htaken
  | cons first rest =>
    simp only [ne_eq, reduceCtorEq, not_false_eq_true, iff_true]
    cases happend : t.append i.columns first with
    | ok p => exact ⟨t, first, rest ++ values :: after, p, ht, hrows, happend⟩
    | error g => simp [Table.appendAll, happend] at hbefore

/-- A table takes the first row of an insertion that is refused for another reason than a want of
keys exactly if the row has the right width and the columns exist, and then another has not. -/
theorem starts_iff_uneven (h : (s.insert i).2 = .error f) (hkeys : ∀ T, f ≠ .keysExhausted T) :
    (Statement.insert i).Starts s ↔ (Statement.insert i).Uneven s := by
  constructor
  · rintro ⟨t, first, rest, p, ht, hrows, htaken⟩
    have hlength := Table.length_eq_of_append htaken
    refine ⟨t, first, rest, ht, hrows, (Table.append_eq_ok htaken).1, hlength, ?_⟩
    by_contra heven
    push Not at heven
    have hall : ∀ values ∈ i.rows, i.columns.length = values.length := by
      rw [hrows]
      exact List.forall_mem_cons.2 ⟨hlength, heven⟩
    rw [(insert_of_table ht).2] at h
    rcases Table.appendAll_eq_error hall (Prod.ext rfl h) with ⟨-, c, hc, hmissing⟩ | hexhausted
    · rw [(Table.append_eq_ok htaken).1 c hc] at hmissing
      cases hmissing
    · exact hkeys _ hexhausted
  · rintro ⟨t, first, rest, ht, hrows, hcolumns, hlength, -⟩
    cases htaken : t.append i.columns first with
    | ok p => exact ⟨t, first, rest, p, ht, hrows, htaken⟩
    | error g =>
      rw [(insert_of_table ht).2, hrows, Table.appendAll, htaken] at h
      obtain rfl : g = f := Except.error.inj h
      rcases Table.append_eq_error hlength htaken with ⟨c, hc, hmissing⟩ | hexhausted
      · rw [hcolumns c hc] at hmissing
        cases hmissing
      · exact absurd hexhausted (hkeys _)

/-- A refused insertion leaves the tables alone exactly if its first row is the refused one. -/
theorem table_insert_eq_iff (h : (s.insert i).2 = .error f) :
    (s.insert i).1.table = s.table ↔ ¬ (Statement.insert i).Starts s := by
  cases ht : s.table i.table with
  | error failure =>
    rw [insert_eq_error ht]
    refine iff_of_true rfl ?_
    rintro ⟨t, first, rest, p, hu, -⟩
    rw [ht] at hu
    cases hu
  | ok t =>
    obtain ⟨before, values, after, keys, hrows, hbefore, hrefused⟩ := insert_refused ht h
    rw [starts_iff ht hrows hbefore hrefused, not_not, (insert_of_table ht).1,
      Function.update_eq_self_iff, ht, Except.ok.injEq]
    constructor
    · intro hsame
      have hlength := Table.length_rows_of_appendAll hbefore
      rw [hsame] at hlength
      exact List.length_eq_zero_iff.1 (by omega)
    · rintro rfl
      exact (Prod.mk.inj hbefore).1.symm

/-- What a refused statement leaves. Every table is as before, rows and counter of keys, unless the
statement is an insertion whose first row is taken; then the rows before the refused one are
inserted, as if they were all, and the refused one is refused by itself afterwards. If keys are
left, that is where the rows of an insertion have different widths: the first has a datum for each
listed column, the columns exist, and another row has not. -/
theorem refused_execute (h : s.verdict st = .error f) :
    ((s.execute st).table = s.table ↔ ¬ st.Starts s) ∧
    (∀ i, st = .insert i → st.Starts s → ∃ before values after keys, before ≠ [] ∧
      i.rows = before ++ values :: after ∧
      s.insert { i with rows := before } = (s.execute st, .ok keys) ∧
      ((s.execute st).insert { i with rows := [values] }).2 = .error f) ∧
    ((∀ T, f ≠ .keysExhausted T) → (st.Starts s ↔ st.Uneven s)) := by
  cases st with
  | select q => exact ⟨iff_of_true rfl id, by rintro _ ⟨⟩, fun _ => Iff.rfl⟩
  | count q => exact ⟨iff_of_true rfl id, by rintro _ ⟨⟩, fun _ => Iff.rfl⟩
  | update u =>
    rw [verdict, map_eq_error] at h
    have hsame : s.execute (.update u) = s := by rw [execute, h]
    exact ⟨iff_of_true (by rw [hsame]) id, by rintro _ ⟨⟩, fun _ => Iff.rfl⟩
  | delete d =>
    rw [verdict, map_eq_error] at h
    have hsame : s.execute (.delete d) = s := by rw [execute, h]
    exact ⟨iff_of_true (by rw [hsame]) id, by rintro _ ⟨⟩, fun _ => Iff.rfl⟩
  | insert i =>
    rw [verdict, map_eq_error] at h
    refine ⟨table_insert_eq_iff h, ?_, starts_iff_uneven h⟩
    rintro _ ⟨⟩ hstarts
    obtain ⟨t, -, -, -, ht, -⟩ := id hstarts
    -- the rows before the refused one go in as if they were all
    obtain ⟨before, values, after, keys, hrows, hbefore, hrefused⟩ := insert_refused ht h
    have hafter : (s.execute (.insert i)).table i.table = .ok (t.appendAll i.columns i.rows).1 := by
      rw [execute, (insert_of_table ht).1, Function.update_self]
    refine ⟨before, values, after, keys, (starts_iff ht hrows hbefore hrefused).1 hstarts, hrows,
      ?_, ?_⟩
    · rw [insert_eq (i := { i with rows := before }) ht, hbefore, execute, insert_eq ht]
    · rw [(insert_of_table (i := { i with rows := [values] }) hafter).2, Table.appendAll, hrefused]

section Books

/-- Two books are to be added, of which one has no title. -/
def untitledBook : Statement :=
  .insert ⟨"books", ["title"], [[.text "Untitled"], []]⟩

/-- The other book is added though the insertion is refused. -/
theorem untitledBook_refused : booksStore.verdict untitledBook = .error (.wrongWidth "books" 0 1) ∧
    (booksStore.execute untitledBook).table "books" ≠ booksStore.table "books" := by
  refine ⟨rfl, fun hsame => ?_⟩
  have hcount := congrArg (fun t => t.toOption.map (·.rows.length)) hsame
  exact absurd hcount (by decide)

/-- Books are to be added without titles and with one. -/
def titledLast : Statement :=
  .insert ⟨"books", ["title"], [[], [.text "Untitled"]]⟩

theorem refused_execute_books :
    booksStore.verdict untitledBook = .error (.wrongWidth "books" 0 1) ∧
    untitledBook.Uneven booksStore ∧ untitledBook.Starts booksStore ∧
    booksStore.verdict titledLast = .error (.wrongWidth "books" 0 1) ∧
    (booksStore.execute titledLast).table = booksStore.table := by
  have huneven : untitledBook.Uneven booksStore :=
    ⟨_, _, _, rfl, rfl, by decide, rfl, _, List.mem_singleton_self _, by decide⟩
  have hother : ∀ T, StoreFailure.wrongWidth "books" 0 1 ≠ .keysExhausted T := nofun
  have huntitled : booksStore.verdict untitledBook = .error (.wrongWidth "books" 0 1) := rfl
  have htitled : booksStore.verdict titledLast = .error (.wrongWidth "books" 0 1) := rfl
  obtain ⟨-, -, hstarts⟩ := refused_execute huntitled
  obtain ⟨hsame, -, hlast⟩ := refused_execute htitled
  refine ⟨huntitled, huneven, (hstarts hother).2 huneven, htitled, hsame.2 fun hstart => ?_⟩
  obtain ⟨t, first, rest, -, hrows, -, hlength, -⟩ := (hlast hother).1 hstart
  obtain ⟨rfl, -⟩ := List.cons.inj hrows
  exact absurd hlength (by decide)

end Books

end Store

end EntityGraph
