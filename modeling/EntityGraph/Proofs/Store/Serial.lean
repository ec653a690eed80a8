import Mathlib.Algebra.Order.Ring.Int
import Mathlib.Data.List.Nodup
import EntityGraph.Proofs.Store.Insert

/-!
# Keys of a serial column

A table with one serial column numbers its rows from a counter that only moves on. As long as
statements leave the numbering to the table, no key is given twice, whatever is deleted or refused
in between.

* `Store.execute` is the database after a statement, and `Store.answered` what keys it answers;
* `Table.Advances` says what a statement may do to the keys of a table, and
  `Store.advances_execute` that every statement does no more; `Store.advances_executeAll` is the
  same of a list of statements;
* `Store.keys_never_reused` is the result.
-/

namespace EntityGraph

namespace Table

/-- A table numbers its rows in the column at a place and in no other: every row holds an integer
there. -/
structure NumbersAt (t : Table) (i : Nat) (column : String) : Prop where
  one : t.schema.countP (·.type = .serial) = 1
  spec : ∃ c, t.schema[i]? = some c ∧ c.type = .serial ∧ c.name = column
  rows : ∀ row ∈ t.rows, ∃ k : Int64, row[i]? = some (.int k)

/-- The keys in the rows of a table, which stand at a place. -/
def keysAt (t : Table) (i : Nat) : List Int64 :=
  t.rows.filterMap fun row => row[i]?.bind Datum.int?

/-- A table after statements that added at most `n` rows under the keys `added`: some rows may be
gone, the keys of the others stay in order, and new ones count on from the counter. -/
structure Advances (i : Nat) (t t' : Table) (added : List Int64) (n : Nat) : Prop where
  schema : t'.schema = t.schema
  keys : (t'.keysAt i).Sublist (t.keysAt i ++ added)
  ascending : added.Pairwise (· < ·)
  fresh : ∀ k ∈ added, t.nextKey ≤ k ∧ k < t'.nextKey
  le : t.nextKey ≤ t'.nextKey
  counter : t'.nextKey.toInt ≤ t.nextKey.toInt + n

variable {t t' t'' : Table} {i : Nat} {column : String} {columns : List String}
  {values : List Datum} {rows : List (List Datum)} {added added' : List Int64} {n n' : Nat}

namespace Advances

theorem refl (t : Table) (n : Nat) : t.Advances i t [] n where
  schema := rfl
  keys := by simp
  ascending := .nil
  fresh := by simp
  le := Int64.le_refl _
  counter := by omega

theorem trans (h : t.Advances i t' added n) (h' : t'.Advances i t'' added' n') :
    t.Advances i t'' (added ++ added') (n + n') where
  schema := h'.schema.trans h.schema
  keys := by
    rw [← List.append_assoc]
    exact h'.keys.trans (h.keys.append_right added')
  ascending := List.pairwise_append.2 ⟨h.ascending, h'.ascending, fun k hk k' hk' => by
    have hlt := (h.fresh k hk).2
    have hle := (h'.fresh k' hk').1
    rw [Int64.lt_iff_toInt_lt] at hlt ⊢
    rw [Int64.le_iff_toInt_le] at hle
    omega⟩
  fresh k hk := by
    have hle := h.le
    have hle' := h'.le
    rcases List.mem_append.1 hk with hk | hk
    · exact ⟨(h.fresh k hk).1, Int64.lt_of_lt_of_le (h.fresh k hk).2 hle'⟩
    · exact ⟨Int64.le_trans hle (h'.fresh k hk).1, (h'.fresh k hk).2⟩
  le := Int64.le_trans h.le h'.le
  counter := by
    have hcounter := h.counter
    have hcounter' := h'.counter
    push_cast
    omega

end Advances

namespace NumbersAt

theorem keysAt_eq (h : t.NumbersAt i column) :
    t.rows.map (·[i]?) = (t.keysAt i).map fun k => some (.int k) := by
  rw [keysAt, List.map_filterMap]
  refine (List.filterMap_eq_map_iff_forall_eq_some.2 fun row hrow => ?_).symm
  obtain ⟨k, hk⟩ := h.rows row hrow
  rw [hk]
  rfl

/-- The table has no other serial column. -/
theorem name_eq (h : t.NumbersAt i column) {c : ColumnSpec} (hc : c ∈ t.schema)
    (hserial : c.type = .serial) : c.name = column := by
  obtain ⟨spec, hspec, htype, hname⟩ := h.spec
  have hone := h.one
  rw [List.countP_eq_length_filter, List.length_eq_one_iff] at hone
  obtain ⟨only, honly⟩ := hone
  have hmem : ∀ c ∈ t.schema, c.type = .serial → c = only := fun c hc hserial =>
    List.mem_singleton.1 (honly ▸ List.mem_filter.2 ⟨hc, by simpa using hserial⟩)
  rw [hmem c hc hserial, ← hmem spec (List.mem_of_getElem? hspec) htype, hname]

section Append

variable (h : t.NumbersAt i column) (hcolumn : column ∉ columns)

include h hcolumn

theorem lookup_eq_none (values : List Datum) {c : ColumnSpec} (hc : c ∈ t.schema)
    (hserial : c.type = .serial) : (columns.zip values).lookup c.name = none := by
  rw [h.name_eq hc hserial, List.lookup_eq_none_iff]
  rintro ⟨name, d⟩ hmem
  simpa using ne_of_mem_of_not_mem (List.of_mem_zip hmem).1 hcolumn |>.symm

/-- A row that leaves its number to the table gets the key of the counter. -/
theorem append {key : Option Int64} (happend : t.append columns values = .ok (t', key)) :
    key = some t.nextKey ∧ t'.NumbersAt i column ∧ t.Advances i t' [t.nextKey] 1 := by
  obtain ⟨rfl, next, hnext, rfl⟩ := append_numbered h.one
    (fun c hc hserial => h.lookup_eq_none hcolumn values hc hserial) happend
  obtain ⟨spec, hspec, htype, hname⟩ := h.spec
  have hkey : (t.schema.map (t.newDatum fun c => (columns.zip values).lookup c))[i]?
      = some (.int t.nextKey) := by
    rw [List.getElem?_map, hspec, Option.map_some, newDatum, if_pos htype]
  refine ⟨rfl, ⟨h.one, h.spec, fun row hrow => ?_⟩,
    ⟨rfl, ?_, List.pairwise_singleton _ _, ?_, ?_, ?_⟩⟩
  · rcases List.mem_append.1 hrow with hold | hnew
    · exact h.rows row hold
    · exact ⟨_, List.mem_singleton.1 hnew ▸ hkey⟩
  · simp [keysAt, hkey, Datum.int?]
  · exact List.forall_mem_singleton.2 ⟨Int64.le_refl _, lt_of_keyAfter hnext⟩
  · exact Int64.le_of_lt (lt_of_keyAfter hnext)
  · simp [toInt_of_keyAfter hnext]

/-- Rows that are inserted one by one up to the first that is refused. -/
theorem appendAll (rows : List (List Datum)) : ∃ added,
    (t.appendAll columns rows).1.NumbersAt i column ∧
      t.Advances i (t.appendAll columns rows).1 added rows.length ∧
      ∀ keys, (t.appendAll columns rows).2 = .ok keys → keys = added := by
  induction rows generalizing t with
  | nil => exact ⟨[], h, .refl t _, fun keys hkeys => (Except.ok.inj hkeys).symm⟩
  | cons values rest ih =>
    rw [Table.appendAll]
    cases happend : t.append columns values with
    | error f => exact ⟨[], h, .refl t _, by simp⟩
    | ok p =>
      obtain ⟨t₁, key⟩ := p
      obtain ⟨rfl, hnumbers, hadvances⟩ := h.append hcolumn happend
      obtain ⟨added, hnumbers', hadvances', hkeys⟩ := ih hnumbers
      refine ⟨[t.nextKey] ++ added, hnumbers', ?_, fun keys hmap => ?_⟩
      · rw [List.length_cons, Nat.add_comm]
        exact hadvances.trans hadvances'
      · obtain ⟨rest, hrest, rfl⟩ := map_eq_ok.1 hmap
        rw [hkeys rest hrest]
        rfl

/-- No row is refused that gives data for existing columns, as long as there are keys. -/
theorem exists_appendAll (hexist : ∀ c ∈ columns, t.hasColumn c = true)
    (hlength : ∀ values ∈ rows, columns.length = values.length)
    (hleft : t.nextKey.toInt + rows.length < 2 ^ 63) :
    ∃ keys, (t.appendAll columns rows).2 = .ok keys ∧ keys.length = rows.length := by
  induction rows generalizing t with
  | nil => exact ⟨[], rfl, rfl⟩
  | cons values rest ih =>
    have hne : t.nextKey ≠ Int64.maxValue := by
      rintro hmax
      rw [hmax, List.length_cons] at hleft
      have hvalue : Int64.maxValue.toInt = 2 ^ 63 - 1 := rfl
      push_cast at hleft
      omega
    obtain ⟨t₁, key, happend⟩ : ∃ t₁ key, t.append columns values = .ok (t₁, key) := by
      rw [append_eq h.one (fun c hc hserial => h.lookup_eq_none hcolumn values hc hserial)
        (hlength values List.mem_cons_self) hexist, keyAfter, if_neg hne]
      exact ⟨_, _, rfl⟩
    obtain ⟨rfl, hnumbers, hadvances⟩ := h.append hcolumn happend
    have hcounter := hadvances.counter
    obtain ⟨-, row, next, rfl, -⟩ := append_eq_ok happend
    obtain ⟨keys, hkeys, hlen⟩ := ih hnumbers hexist
      (fun values hv => hlength values (List.mem_cons_of_mem _ hv)) (by
        rw [List.length_cons] at hleft
        push_cast at hleft
        omega)
    refine ⟨t.nextKey :: keys, ?_, by rw [List.length_cons, hlen, List.length_cons]⟩
    rw [Table.appendAll, happend]
    simp only [hkeys]
    rfl

end Append

/-- Data that are set in other columns leave the keys alone. -/
theorem rewritten (h : t.NumbersAt i column) {s : Store} {filters : List Condition}
    {assignments : List (String × Datum)} (hother : ∀ a ∈ assignments, a.1 ≠ column) :
    (s.rewritten t filters fun row => assignments.foldl
        (fun row a => t.setDatum a.1 a.2 row) row).NumbersAt i column ∧
      t.Advances i (s.rewritten t filters fun row => assignments.foldl
        (fun row a => t.setDatum a.1 a.2 row) row) [] 0 := by
  obtain ⟨spec, hspec, -, hname⟩ := h.spec
  have hplace : ∀ a ∈ assignments, t.place? a.1 ≠ some i := by
    intro a ha hplace
    obtain ⟨spec', hspec', hname'⟩ := exists_spec_of_place? hplace
    obtain rfl := Option.some.inj (hspec.symm.trans hspec')
    exact hother a ha (hname'.symm.trans hname)
  have hkept : ∀ row : Row, (if holds (s.testAll t.columns row filters) then
      assignments.foldl (fun row a => t.setDatum a.1 a.2 row) row else row)[i]? = row[i]? := by
    intro row
    split_ifs
    · exact getElem?_foldl_setDatum hplace
    · rfl
  refine ⟨⟨h.one, h.spec, List.forall_mem_map.2 fun row hrow => ?_⟩,
    ⟨rfl, ?_, .nil, by simp, Int64.le_refl _, by simp [Store.rewritten]⟩⟩
  · obtain ⟨k, hk⟩ := h.rows row hrow
    exact ⟨k, (hkept row).trans hk⟩
  · rw [keysAt, Store.rewritten, List.filterMap_map, List.append_nil]
    simp only [Function.comp_def, hkept]
    exact .refl _

/-- Rows that are deleted take their keys along. -/
theorem pruned (h : t.NumbersAt i column) (s : Store) (filters : List Condition) :
    (s.pruned t filters).NumbersAt i column ∧ t.Advances i (s.pruned t filters) [] 0 := by
  refine ⟨⟨h.one, h.spec, fun row hrow => h.rows row (List.mem_of_mem_filter hrow)⟩,
    ⟨rfl, ?_, .nil, by simp, Int64.le_refl _, by simp [Store.pruned]⟩⟩
  rw [List.append_nil]
  exact List.filter_sublist.filterMap _

end NumbersAt

end Table

/-- A statement leaves the numbers in a column of a table to the table: it neither gives them nor
sets them. -/
def Statement.Spares (T column : String) : Statement → Prop
  | .insert i => i.table = T → column ∉ i.columns
  | .update u => u.table = T → ∀ a ∈ u.assignments, a.1 ≠ column
  | _ => True

/-- The number of rows that a statement asks to insert into a table. -/
def Statement.rowsInto (T : String) : Statement → Nat
  | .insert i => if i.table = T then i.rows.length else 0
  | _ => 0

namespace Store

/-- The database after a statement. A refused insertion leaves the rows before the refused one; a
refused update or deletion changes nothing. -/
def execute (s : Store) : Statement → Store
  | .select _ => s
  | .count _ => s
  | .insert i => (s.insert i).1
  | .update u => match s.update u with
    | .ok (s', _) => s'
    | .error _ => s
  | .delete d => match s.delete d with
    | .ok (s', _) => s'
    | .error _ => s

/-- The keys that a statement answers for rows it inserts into a table. -/
def answered (s : Store) (T : String) : Statement → List Int64
  | .insert i => if i.table = T then (s.insert i).2.toOption.getD [] else []
  | _ => []

/-- The database after statements, one after the other. -/
def executeAll (s : Store) (statements : List Statement) : Store :=
  statements.foldl execute s

/-- The keys that statements answer for rows of a table, in order. -/
def answeredAll (s : Store) (T : String) : List Statement → List Int64
  | [] => []
  | st :: rest => s.answered T st ++ (s.execute st).answeredAll T rest

variable {s : Store} {T column : String} {t : Table} {i : Nat} {st : Statement}

theorem advances_update {assignments : List (String × Datum)} {filters : List Condition}
    {s' : Store} {n : Nat} (ht : s.table T = .ok t) (h : t.NumbersAt i column)
    (hother : ∀ a ∈ assignments, a.1 ≠ column)
    (hupdate : s.update ⟨T, assignments, filters⟩ = .ok (s', n)) :
    ∃ t', s'.table T = .ok t' ∧ t'.NumbersAt i column ∧ t.Advances i t' [] 0 := by
  by_cases hempty : assignments = []
  · subst hempty
    obtain ⟨rfl, -⟩ := Prod.mk.inj (Except.ok.inj hupdate)
    exact ⟨t, ht, h, .refl t 0⟩
  · obtain ⟨u, hu, -, -, rfl, -⟩ := (update_eq_ok hempty).1 hupdate
    obtain rfl := Except.ok.inj (hu.symm.trans ht)
    obtain rfl := (mem_of_table hu).2
    exact ⟨_, table_replace_self ht, h.rewritten hother⟩

theorem advances_delete {filters : List Condition} {s' : Store} {n : Nat}
    (ht : s.table T = .ok t) (h : t.NumbersAt i column)
    (hdelete : s.delete ⟨T, filters⟩ = .ok (s', n)) :
    ∃ t', s'.table T = .ok t' ∧ t'.NumbersAt i column ∧ t.Advances i t' [] 0 := by
  obtain ⟨u, hu, -, rfl, -⟩ := delete_eq_ok.1 hdelete
  obtain rfl := Except.ok.inj (hu.symm.trans ht)
  obtain rfl := (mem_of_table hu).2
  exact ⟨_, table_replace_self ht, h.pruned s filters⟩

/-- A statement that spares the numbers of a table makes them no more than advance, and what keys it
answers are new. -/
theorem advances_execute (ht : s.table T = .ok t) (h : t.NumbersAt i column)
    (hspares : st.Spares T column) : ∃ t' added, (s.execute st).table T = .ok t' ∧
      t'.NumbersAt i column ∧ t.Advances i t' added (st.rowsInto T) ∧
      (s.answered T st).Sublist added := by
  -- what leaves the table alone answers no key of it
  have hsame : ∀ {s' : Store}, s'.table T = s.table T → ∃ t' added, s'.table T = .ok t' ∧
      t'.NumbersAt i column ∧ t.Advances i t' added 0 ∧ ([] : List Int64).Sublist added :=
    fun hs' => ⟨t, [], hs'.trans ht, h, .refl t 0, .slnil⟩
  cases st with
  | select q => exact hsame rfl
  | count q => exact hsame rfl
  | insert ins =>
    simp only [execute, answered, Statement.rowsInto]
    split_ifs with hT
    · subst hT
      obtain ⟨added, hnumbers, hadvances, hkeys⟩ := h.appendAll (hspares rfl) ins.rows
      obtain ⟨htable, hresult⟩ := insert_of_table ht
      refine ⟨_, added, by rw [htable, Function.update_self], hnumbers, hadvances, ?_⟩
      rw [hresult]
      cases hok : (t.appendAll ins.columns ins.rows).2 with
      | error f => exact List.nil_sublist _
      | ok keys => exact hkeys keys hok ▸ .refl _
    · exact hsame (table_insert_of_ne (Ne.symm hT))
  | update u =>
    obtain ⟨U, assignments, filters⟩ := u
    simp only [execute, answered, Statement.rowsInto]
    cases hupdate : s.update ⟨U, assignments, filters⟩ with
    | error f => exact hsame rfl
    | ok p =>
      obtain ⟨s', n⟩ := p
      by_cases hT : U = T
      · subst hT
        obtain ⟨t', ht', hnumbers, hadvances⟩ := advances_update ht h (hspares rfl) hupdate
        exact ⟨t', [], ht', hnumbers, hadvances, .slnil⟩
      · exact hsame (table_update_of_ne (Ne.symm hT) hupdate)
  | delete d =>
    obtain ⟨U, filters⟩ := d
    simp only [execute, answered, Statement.rowsInto]
    cases hdelete : s.delete ⟨U, filters⟩ with
    | error f => exact hsame rfl
    | ok p =>
      obtain ⟨s', n⟩ := p
      by_cases hT : U = T
      · subst hT
        obtain ⟨t', ht', hnumbers, hadvances⟩ := advances_delete ht h hdelete
        exact ⟨t', [], ht', hnumbers, hadvances, .slnil⟩
      · exact hsame (table_delete_of_ne (Ne.symm hT) hdelete)

/-- Statements that spare the numbers of a table make them no more than advance. -/
theorem advances_executeAll {statements : List Statement} (ht : s.table T = .ok t)
    (h : t.NumbersAt i column) (hspares : ∀ st ∈ statements, st.Spares T column) :
    ∃ t' added, (s.executeAll statements).table T = .ok t' ∧ t'.NumbersAt i column ∧
      t.Advances i t' added (statements.map (·.rowsInto T)).sum ∧
      (s.answeredAll T statements).Sublist added := by
  induction statements generalizing s t with
  | nil => exact ⟨t, [], ht, h, .refl t 0, .slnil⟩
  | cons st rest ih =>
    obtain ⟨t₁, added, ht₁, hnumbers, hadvances, hanswered⟩ :=
      advances_execute ht h (hspares st List.mem_cons_self)
    obtain ⟨t', added', ht', hnumbers', hadvances', hanswered'⟩ :=
      ih ht₁ hnumbers fun st hst => hspares st (List.mem_cons_of_mem _ hst)
    exact ⟨t', added ++ added', ht', hnumbers', hadvances.trans hadvances',
      hanswered.append hanswered'⟩

/-- Some row of a table holds a key at a place. -/
def HoldsKey (s : Store) (T : String) (i : Nat) (key : Int64) : Prop :=
  ∃ t row, s.table T = .ok t ∧ row ∈ t.rows ∧ row[i]? = some (.int key)

theorem holdsKey_iff {key : Int64} (ht : s.table T = .ok t) :
    s.HoldsKey T i key ↔ key ∈ t.keysAt i := by
  simp only [HoldsKey, Table.keysAt, List.mem_filterMap, Option.bind_eq_some_iff,
    Datum.int?_eq_some, exists_eq_right]
  constructor
  · rintro ⟨u, row, hu, hrow, hkey⟩
    obtain rfl := Except.ok.inj (ht.symm.trans hu)
    exact ⟨row, hrow, hkey⟩
  · rintro ⟨row, hrow, hkey⟩
    exact ⟨t, row, ht, hrow, hkey⟩

theorem answeredAll_append (s : Store) (T : String) (before after : List Statement) :
    s.answeredAll T (before ++ after)
      = s.answeredAll T before ++ (s.executeAll before).answeredAll T after := by
  induction before generalizing s with
  | nil => rfl
  | cons st before ih =>
    rw [List.cons_append, answeredAll, ih, answeredAll, List.append_assoc]
    rfl

theorem table_create {schema : List ColumnSpec} (hfree : ∀ t ∈ s.tables, t.name ≠ T) :
    (s.create T schema).table T = .ok (.new T schema) := by
  have hany : s.tables.any (·.name == T) = false := by simpa using hfree
  have hfind : s.tables.find? (·.name == T) = none := by simpa using hfree
  rw [create, hany, if_neg Bool.false_ne_true, table, List.find?_append, hfind]
  simp [Table.new]

/-- The keys of a new table with one serial column. From the first statement on, all keys that are
answered ascend, no two rows hold one key, and an insertion of fewer rows than there are keys
answers one for each row. A key that was answered or held once is less than all that are answered
later, and when no row holds it any more none ever will, so what is left of a deleted row does not
come to refer to another. -/
theorem keys_never_reused {schema : List ColumnSpec} {c : ColumnSpec} {s₁ s₂ s₃ : Store}
    {past between future : List Statement} (hfree : ∀ t ∈ s.tables, t.name ≠ T)
    (hone : schema.countP (·.type = .serial) = 1) (hplace : schema[i]? = some c)
    (hserial : c.type = .serial) (hspares : ∀ st ∈ past ++ between ++ future, st.Spares T c.name)
    (h₁ : (s.create T schema).executeAll past = s₁) (h₂ : s₁.executeAll between = s₂)
    (h₃ : s₂.executeAll future = s₃) :
    (∃ (t : Table) (keys : List Int64), s₁.table T = .ok t ∧ keys.Nodup ∧
      t.rows.map (·[i]?) = keys.map fun k => some (.int k)) ∧
    ((s.create T schema).answeredAll T (past ++ between)).Pairwise (· < ·) ∧
    (∀ key, key ∈ (s.create T schema).answeredAll T past ∨ s₁.HoldsKey T i key →
      (∀ key' ∈ s₁.answeredAll T between, key < key') ∧
      (¬ s₂.HoldsKey T i key → ¬ s₃.HoldsKey T i key)) ∧
    (∀ columns rows, c.name ∉ columns → (∀ name ∈ columns, name ∈ schema.map (·.name)) →
      (∀ values ∈ rows, columns.length = values.length) →
      (past.map (·.rowsInto T)).sum + rows.length < 2 ^ 63 - 1 →
      ∃ keys, (s₁.insert ⟨T, columns, rows⟩).2 = .ok keys ∧ keys.length = rows.length) := by
  have hnew : (Table.new T schema).NumbersAt i c.name :=
    ⟨hone, ⟨c, hplace, hserial, rfl⟩, by simp [Table.new]⟩
  simp only [List.mem_append, or_imp, forall_and] at hspares
  obtain ⟨⟨hpast, hbetween⟩, hfuture⟩ := hspares
  obtain ⟨t₁, added₁, ht₁, hnumbers₁, hadvances₁, hanswered₁⟩ :=
    advances_executeAll (table_create hfree) hnew hpast
  rw [h₁] at ht₁
  obtain ⟨t₂, added₂, ht₂, hnumbers₂, hadvances₂, hanswered₂⟩ :=
    advances_executeAll ht₁ hnumbers₁ hbetween
  rw [h₂] at ht₂
  obtain ⟨t₃, added₃, ht₃, -, hadvances₃, -⟩ := advances_executeAll ht₂ hnumbers₂ hfuture
  rw [h₃] at ht₃
  have hkeys : (t₁.keysAt i).Sublist added₁ := hadvances₁.keys
  -- a key that was used once is below the counter ever after
  have hused : ∀ key, key ∈ (s.create T schema).answeredAll T past ∨ s₁.HoldsKey T i key →
      key < t₁.nextKey := by
    rintro key (hkey | hkey)
    · exact (hadvances₁.fresh key (hanswered₁.subset hkey)).2
    · exact (hadvances₁.fresh key (hkeys.subset ((holdsKey_iff ht₁).1 hkey))).2
  refine ⟨⟨t₁, t₁.keysAt i, ht₁, ?_, hnumbers₁.keysAt_eq⟩, ?_, fun key hkey => ⟨?_, ?_⟩, ?_⟩
  · exact (hadvances₁.ascending.imp fun h => Int64.ne_of_lt h).sublist hkeys
  · rw [answeredAll_append, h₁]
    exact (hadvances₁.trans hadvances₂).ascending.sublist (hanswered₁.append hanswered₂)
  · intro key' hkey'
    exact Int64.lt_of_lt_of_le (hused key hkey)
      (hadvances₂.fresh key' (hanswered₂.subset hkey')).1
  · rw [holdsKey_iff ht₂, holdsKey_iff ht₃]
    intro hgone hback
    -- a key that is held in the end was held before, or is new and not below the counter
    rcases List.mem_append.1 (hadvances₃.keys.subset hback) with hold | hnew
    · exact hgone hold
    · have hlt := Int64.lt_of_lt_of_le (hused key hkey) hadvances₂.le
      exact Int64.lt_irrefl (Int64.lt_of_lt_of_le hlt (hadvances₃.fresh key hnew).1)
  · intro columns rows hcolumn hexist hlength hleft
    have hschema : t₁.schema = schema := hadvances₁.schema
    have hcounter := hadvances₁.counter
    have hstart : (Table.new T schema).nextKey.toInt = 1 := rfl
    have hroom : t₁.nextKey.toInt + rows.length < 2 ^ 63 := by omega
    rw [(insert_of_table (i := ⟨T, columns, rows⟩) ht₁).2]
    refine hnumbers₁.exists_appendAll hcolumn (fun name hname => ?_) hlength hroom
    obtain ⟨spec, hspec, rfl⟩ := List.mem_map.1 (hexist name hname)
    exact List.any_eq_true.2 ⟨spec, hschema ▸ hspec, by simp⟩

section Books

/-- The columns of a table of books. -/
def bookColumns : List ColumnSpec := [⟨"id", .serial, .null⟩, ⟨"title", .text, .null⟩]

/-- Two books are added, and the second is deleted. -/
def firstBooks : List Statement :=
  [.insert ⟨"books", ["title"], [[.text "Studyology"], [.text "Learning!"]]⟩,
    .delete ⟨"books", [.compare (Column.named "id") .eq (.int 2)]⟩]

/-- An insertion is refused at its second row, and another adds a book. -/
def moreBooks : List Statement :=
  [.insert ⟨"books", ["title"], [[.text "Untitled"], []]⟩,
    .insert ⟨"books", ["title"], [[.text "Drama"]]⟩]

/-- All titles are removed. -/
def untitling : List Statement := [.update ⟨"books", [("title", .null)], []⟩]

/-- The table of books after the first statements. -/
def booksStore : Store := (empty.create "books" bookColumns).executeAll firstBooks

/-- The key of the deleted book is given to none of the later ones. -/
theorem keys_never_reused_books :
    2 ∈ (empty.create "books" bookColumns).answeredAll "books" firstBooks ∧
    (∀ key ∈ booksStore.answeredAll "books" moreBooks, 2 < key) ∧
    ¬ ((booksStore.executeAll moreBooks).executeAll untitling).HoldsKey "books" 0 2 ∧
    ∃ keys, (booksStore.insert ⟨"books", ["title"], [[.text "Film"]]⟩).2 = .ok keys ∧
      keys.length = 1 := by
  have hspares : ∀ st ∈ firstBooks ++ moreBooks ++ untitling, st.Spares "books" "id" := by
    simp [firstBooks, moreBooks, untitling, Statement.Spares]
  have hanswered : 2 ∈ (empty.create "books" bookColumns).answeredAll "books" firstBooks := by
    decide
  have hgone : ¬ (booksStore.executeAll moreBooks).HoldsKey "books" 0 2 := by
    rw [holdsKey_iff rfl]
    decide
  obtain ⟨-, -, hused, hroom⟩ := keys_never_reused (s := empty) (T := "books") (i := 0)
    (c := ⟨"id", .serial, .null⟩) (by simp [empty])
    (by decide : bookColumns.countP (·.type = .serial) = 1) rfl rfl hspares rfl rfl rfl
  obtain ⟨hlater, hstale⟩ := hused 2 (.inl hanswered)
  exact ⟨hanswered, hlater, hstale hgone, hroom ["title"] [[.text "Film"]] (by decide) (by decide)
    (by decide) (by decide)⟩

end Books

end Store

end EntityGraph
