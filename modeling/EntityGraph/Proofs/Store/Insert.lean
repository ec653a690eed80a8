import EntityGraph.Proofs.Store.Modify

/-!
# What an insertion adds to a table

* `Table.Fills` says what a new row may hold in a column;
* `Table.append_eq_ok` and `Table.appendAll_eq_ok` say which rows a successful insertion adds, and
  `Table.appendAll_eq_error` that a refused one adds none, unless the table runs out of keys;
* `Table.exists_appendAll` says when no row is refused.
-/

namespace EntityGraph

namespace Table

variable {t t' : Table} {columns : List String} {values : List Datum} {key : Option Int64}

/-- What a new row may hold in a column, of which a datum may be given: a serial column numbers the
row, by the given integer if there is one, and other columns hold the given datum or the default. -/
def Fills (given : String → Option Datum) (c : ColumnSpec) (d : Datum) : Prop :=
  if c.type = .serial then ∃ id, d = .int id ∧ ∀ k, given c.name = some (.int k) → id = k
  else d = (given c.name).getD c.default

theorem Fills.eq_int {given : String → Option Datum} {c : ColumnSpec} {d : Datum}
    (h : Fills given c d) {k : Int64} (hgiven : given c.name = some (.int k)) : d = .int k := by
  unfold Fills at h
  split_ifs at h with hserial
  · obtain ⟨id, rfl, hid⟩ := h
    rw [hid k hgiven]
  · rw [h, hgiven, Option.getD_some]

namespace Draft

variable {d d' : Draft} {name : String} {c : ColumnSpec} {given : String → Option Datum}

theorem add_of_ne_serial (hc : c.type ≠ .serial) (g : Option Datum) :
    d.add name c g = .ok { d with cells := d.cells ++ [g.getD c.default] } := by
  unfold add
  cases htype : c.type with
  | serial => exact absurd htype hc
  | _ => cases g <;> rfl

/-- A serial column takes the given integer, or else the next key. -/
theorem add_serial (d : Draft) (name : String) (hc : c.type = .serial) (g : Option Datum) : ∃ id,
    (∀ k, g = some (.int k) → id = k) ∧ (g = none → id = d.nextKey) ∧
      d.add name c g = (keyAfter d.nextKey id).elim (.error (.keysExhausted name))
        fun next => .ok ⟨d.cells ++ [.int id], next, some id⟩ := by
  unfold add
  rw [hc]
  have hnext : ∀ id next, ((keyAfter next id).elim (.error (.keysExhausted name)) .ok >>=
      fun next => (pure ⟨d.cells ++ [.int id], next, some id⟩ : Except StoreFailure Draft))
        = (keyAfter next id).elim (.error (.keysExhausted name))
          fun next => .ok ⟨d.cells ++ [.int id], next, some id⟩ := by
    intro id next
    cases keyAfter next id <;> rfl
  cases g with
  | none => exact ⟨d.nextKey, by simp, fun _ => rfl, hnext _ _⟩
  | some e =>
    cases e with
    | int id => exact ⟨id, by simp, by simp, hnext _ _⟩
    | _ => exact ⟨d.nextKey, by simp, by simp, hnext _ _⟩

theorem add_eq_ok (h : d.add name c (given c.name) = .ok d') :
    ∃ e, d'.cells = d.cells ++ [e] ∧ Fills given c e := by
  by_cases hc : c.type = .serial
  · obtain ⟨id, hgiven, -, hadd⟩ := add_serial d name hc (given c.name)
    rw [hadd] at h
    cases hnext : keyAfter d.nextKey id with
    | none => simp [hnext] at h
    | some next =>
      rw [hnext, Option.elim_some, Except.ok.injEq] at h
      exact ⟨.int id, by rw [← h], by rw [Fills, if_pos hc]; exact ⟨id, rfl, hgiven⟩⟩
  · rw [add_of_ne_serial hc, Except.ok.injEq] at h
    exact ⟨_, by rw [← h], by rw [Fills, if_neg hc]⟩

/-- A row can only fail for want of a key. -/
theorem add_eq_error {f : StoreFailure} (h : d.add name c (given c.name) = .error f) :
    f = .keysExhausted name := by
  by_cases hc : c.type = .serial
  · obtain ⟨id, -, -, hadd⟩ := add_serial d name hc (given c.name)
    rw [hadd] at h
    cases hnext : keyAfter d.nextKey id with
    | none => simpa [hnext] using h.symm
    | some next => simp [hnext] at h
  · rw [add_of_ne_serial hc] at h
    cases h

theorem foldlM_eq_ok (given : String → Option Datum) {specs : List ColumnSpec}
    (h : specs.foldlM (fun d c => d.add name c (given c.name)) d = .ok d') :
    ∃ cells, d'.cells = d.cells ++ cells ∧ List.Forall₂ (Fills given) specs cells := by
  induction specs generalizing d with
  | nil =>
    obtain rfl : d = d' := pure_eq_ok.1 h
    exact ⟨[], by simp, .nil⟩
  | cons c specs ih =>
    rw [List.foldlM_cons, bind_eq_ok] at h
    obtain ⟨d₁, hadd, hrest⟩ := h
    obtain ⟨e, he, hfills⟩ := add_eq_ok hadd
    obtain ⟨cells, hcells, hforall⟩ := ih hrest
    exact ⟨e :: cells, by rw [hcells, he, List.append_assoc]; rfl, .cons hfills hforall⟩

theorem foldlM_eq_error (given : String → Option Datum) {specs : List ColumnSpec} {f : StoreFailure}
    (h : specs.foldlM (fun d c => d.add name c (given c.name)) d = .error f) :
    f = .keysExhausted name := by
  induction specs generalizing d with
  | nil => cases h
  | cons c specs ih =>
    rw [List.foldlM_cons] at h
    cases hadd : d.add name c (given c.name) with
    | error g =>
      rw [hadd] at h
      obtain rfl : g = f := Except.error.inj h
      exact add_eq_error hadd
    | ok d₁ =>
      rw [hadd] at h
      exact ih h

/-- No row is refused whose serial columns are given keys after which others are left. -/
theorem exists_foldlM (given : String → Option Datum) {specs : List ColumnSpec} (d : Draft)
    (name : String) (hkeys : ∀ c ∈ specs, c.type = .serial →
      ∃ k, given c.name = some (.int k) ∧ k ≠ Int64.maxValue) :
    ∃ d', specs.foldlM (fun d c => d.add name c (given c.name)) d = .ok d' := by
  induction specs generalizing d with
  | nil => exact ⟨d, rfl⟩
  | cons c specs ih =>
    obtain ⟨d₁, hadd⟩ : ∃ d₁, d.add name c (given c.name) = .ok d₁ := by
      by_cases hc : c.type = .serial
      · obtain ⟨k, hk, hmax⟩ := hkeys c List.mem_cons_self hc
        obtain ⟨id, hid, -, hserial⟩ := add_serial d name hc (given c.name)
        obtain rfl := hid k hk
        rw [hserial, keyAfter, if_neg hmax]
        exact ⟨_, rfl⟩
      · exact ⟨_, add_of_ne_serial hc _⟩
    obtain ⟨d', hd'⟩ := ih d₁ fun c hc => hkeys c (List.mem_cons_of_mem _ hc)
    exact ⟨d', by rw [List.foldlM_cons, hadd]; exact hd'⟩

end Draft

/-- A successful insertion of a row: its columns exist, and it stands behind all others. -/
theorem append_eq_ok (h : t.append columns values = .ok (t', key)) :
    (∀ c ∈ columns, t.hasColumn c = true) ∧ ∃ row next,
      t' = { t with rows := t.rows ++ [row], nextKey := next } ∧
      List.Forall₂ (Fills fun c => (columns.zip values).lookup c) t.schema row := by
  unfold append at h
  split_ifs at h with hlen
  cases hfind : columns.find? fun c => !t.hasColumn c with
  | some c => simp [hfind] at h
  | none =>
    simp only [hfind, bind_eq_ok, pure_eq_ok, Prod.mk.injEq] at h
    obtain ⟨d, hd, rfl, rfl⟩ := h
    obtain ⟨cells, hcells, hfills⟩ := Draft.foldlM_eq_ok (fun c => (columns.zip values).lookup c) hd
    refine ⟨fun c hc => ?_, cells, d.nextKey, by rw [hcells]; rfl, hfills⟩
    simpa using List.find?_eq_none.1 hfind c hc

theorem length_eq_of_append (h : t.append columns values = .ok (t', key)) :
    columns.length = values.length := by
  by_contra hne
  simp [append, hne] at h

/-- The datum of a new row in a column of a table that numbers its rows in one column. -/
def newDatum (t : Table) (given : String → Option Datum) (c : ColumnSpec) : Datum :=
  if c.type = .serial then .int t.nextKey else (given c.name).getD c.default

theorem Draft.foldlM_unnumbered (given : String → Option Datum) {specs : List ColumnSpec}
    (d : Draft) (name : String) (hnone : ∀ c ∈ specs, c.type ≠ .serial) :
    specs.foldlM (fun d c => d.add name c (given c.name)) d
      = .ok { d with cells := d.cells ++ specs.map fun c => (given c.name).getD c.default } := by
  induction specs generalizing d with
  | nil => simp [pure, Except.pure]
  | cons c specs ih =>
    rw [List.foldlM_cons, add_of_ne_serial (hnone c List.mem_cons_self)]
    refine (ih _ fun c hc => hnone c (List.mem_cons_of_mem _ hc)).trans ?_
    simp

/-- A row with one serial column that is not given takes the next key, if there is one. -/
theorem Draft.foldlM_numbered (given : String → Option Datum) {specs : List ColumnSpec}
    (d : Draft) (name : String) (hone : specs.countP (·.type = .serial) = 1)
    (hgiven : ∀ c ∈ specs, c.type = .serial → given c.name = none) :
    specs.foldlM (fun d c => d.add name c (given c.name)) d
      = (keyAfter d.nextKey d.nextKey).elim (.error (.keysExhausted name)) fun next =>
        .ok ⟨d.cells ++ specs.map fun c =>
          if c.type = .serial then .int d.nextKey else (given c.name).getD c.default,
          next, some d.nextKey⟩ := by
  induction specs generalizing d with
  | nil => simp at hone
  | cons c specs ih =>
    rw [List.foldlM_cons]
    by_cases hc : c.type = .serial
    · -- the columns behind the serial one leave counter and key alone
      have hnone : ∀ c ∈ specs, c.type ≠ .serial := by
        rw [List.countP_cons_of_pos (by simpa using hc)] at hone
        simpa using List.countP_eq_zero.1 (Nat.succ.inj hone)
      have hrest : specs.map (fun c =>
          if c.type = .serial then .int d.nextKey else (given c.name).getD c.default)
          = specs.map fun c => (given c.name).getD c.default :=
        List.map_congr_left fun c hc => if_neg (hnone c hc)
      obtain ⟨id, -, hid, hserial⟩ := add_serial d name hc (given c.name)
      obtain rfl := hid (hgiven c List.mem_cons_self hc)
      rw [hserial]
      cases keyAfter d.nextKey d.nextKey with
      | none => rfl
      | some next =>
        refine (foldlM_unnumbered given _ name hnone).trans ?_
        simp [hc, hrest]
    · rw [List.countP_cons_of_neg (by simpa using hc)] at hone
      rw [add_of_ne_serial hc]
      refine (ih _ hone fun c hc => hgiven c (List.mem_cons_of_mem _ hc)).trans ?_
      simp [hc]

/-- The row that is appended to a table which numbers its rows in one column that is not given. -/
theorem append_eq (hone : t.schema.countP (·.type = .serial) = 1)
    (hgiven : ∀ c ∈ t.schema, c.type = .serial → (columns.zip values).lookup c.name = none)
    (hlen : columns.length = values.length) (hcolumns : ∀ c ∈ columns, t.hasColumn c = true) :
    t.append columns values = (keyAfter t.nextKey t.nextKey).elim
      (.error (.keysExhausted t.name)) fun next => .ok ({ t with
        rows := t.rows ++ [t.schema.map (t.newDatum fun c => (columns.zip values).lookup c)]
        nextKey := next }, some t.nextKey) := by
  have hfind : columns.find? (fun c => !t.hasColumn c) = none := by
    simpa [List.find?_eq_none] using hcolumns
  unfold append
  rw [if_neg (by simpa using hlen), hfind]
  simp only [Draft.foldlM_numbered (fun c => (columns.zip values).lookup c) _ t.name hone hgiven]
  cases keyAfter t.nextKey t.nextKey <;> rfl

/-- A row that is inserted into a table which numbers its rows in one column: its key is the next
one, and what is not given takes the default. -/
theorem append_numbered (hone : t.schema.countP (·.type = .serial) = 1)
    (hgiven : ∀ c ∈ t.schema, c.type = .serial → (columns.zip values).lookup c.name = none)
    (h : t.append columns values = .ok (t', key)) : key = some t.nextKey ∧ ∃ next,
      keyAfter t.nextKey t.nextKey = some next ∧ t' = { t with
        rows := t.rows ++ [t.schema.map (t.newDatum fun c => (columns.zip values).lookup c)]
        nextKey := next } := by
  obtain ⟨hcolumns, -⟩ := append_eq_ok h
  rw [append_eq hone hgiven (length_eq_of_append h) hcolumns] at h
  cases hnext : keyAfter t.nextKey t.nextKey with
  | none => simp [hnext] at h
  | some next =>
    rw [hnext, Option.elim_some, Except.ok.injEq, Prod.mk.injEq] at h
    exact ⟨h.2.symm, next, rfl, h.1.symm⟩

/-- The counter moves by one when its own key is used. -/
theorem toInt_of_keyAfter {n next : Int64} (h : keyAfter n n = some next) :
    next.toInt = n.toInt + 1 := by
  unfold keyAfter at h
  split_ifs at h with hmax
  have hupper := n.toInt_lt
  have hlower := n.le_toInt
  have hne : n.toInt ≠ 2 ^ 63 - 1 := fun heq => hmax (Int64.toInt_inj.1 (heq.trans rfl))
  have hsucc : (n + 1).toInt = n.toInt + 1 := by
    have hone : (1 : Int64).toInt = 1 := rfl
    rw [Int64.toInt_add, hone, Int.bmod_eq_of_le] <;> omega
  have hle : n ≤ n + 1 := by
    rw [Int64.le_iff_toInt_le]
    omega
  rw [show max n (n + 1) = n + 1 from if_pos hle, Option.some.injEq] at h
  rw [← h, hsucc]

theorem lt_of_keyAfter {n next : Int64} (h : keyAfter n n = some next) : n < next := by
  have hnext := toInt_of_keyAfter h
  rw [Int64.lt_iff_toInt_lt]
  omega

/-- A row of the right width that is refused names a missing column, or no key is left for it. -/
theorem append_eq_error {f : StoreFailure} (hlen : columns.length = values.length)
    (h : t.append columns values = .error f) :
    (∃ c ∈ columns, t.hasColumn c = false) ∨ f = .keysExhausted t.name := by
  unfold append at h
  rw [if_neg (by simp [hlen])] at h
  cases hfind : columns.find? fun c => !t.hasColumn c with
  | some c => exact .inl ⟨c, List.mem_of_find?_eq_some hfind, by simpa using List.find?_some hfind⟩
  | none =>
    simp only [hfind] at h
    cases hrow : t.schema.foldlM (fun d c => d.add t.name c ((columns.zip values).lookup c.name))
      (⟨[], t.nextKey, none⟩ : Draft) with
    | error g =>
      rw [hrow] at h
      obtain rfl : g = f := Except.error.inj h
      exact .inr (Draft.foldlM_eq_error (fun c => (columns.zip values).lookup c) hrow)
    | ok d =>
      rw [hrow] at h
      cases h

@[simp] theorem name_appendAll (t : Table) (columns : List String) (rows : List (List Datum)) :
    (t.appendAll columns rows).1.name = t.name := by
  induction rows generalizing t with
  | nil => rfl
  | cons values rest ih =>
    rw [appendAll]
    cases happend : t.append columns values with
    | error f => rfl
    | ok p =>
      obtain ⟨t₁, key⟩ := p
      obtain ⟨-, row, next, rfl, -⟩ := append_eq_ok happend
      exact ih _

/-- A successful insertion of rows puts them behind all others, in order. -/
theorem appendAll_eq_ok {rows : List (List Datum)} {keys : List Int64}
    (h : t.appendAll columns rows = (t', .ok keys)) : ∃ added next,
      t' = { t with rows := t.rows ++ added, nextKey := next } ∧
      (rows ≠ [] → ∀ c ∈ columns, t.hasColumn c = true) ∧
      List.Forall₂ (fun values row =>
        List.Forall₂ (Fills fun c => (columns.zip values).lookup c) t.schema row) rows added := by
  induction rows generalizing t keys with
  | nil =>
    obtain ⟨rfl, -⟩ := Prod.mk.inj h
    exact ⟨[], t.nextKey, by simp, by simp, .nil⟩
  | cons values rest ih =>
    rw [appendAll] at h
    cases happend : t.append columns values with
    | error f => simp [happend] at h
    | ok p =>
      obtain ⟨t₁, key⟩ := p
      obtain ⟨hcolumns, row, next, rfl, hfills⟩ := append_eq_ok happend
      simp only [happend, Prod.mk.injEq, map_eq_ok] at h
      obtain ⟨ht', keys', hkeys', -⟩ := h
      obtain ⟨added, next', hadded, -, hforall⟩ := ih (Prod.ext ht' hkeys')
      exact ⟨row :: added, next', by rw [hadded]; simp, fun _ => hcolumns, .cons hfills hforall⟩

/-- Rows of the right width are all inserted, unless a column is missing, and then none is, or no
key is left. -/
theorem appendAll_eq_error {rows : List (List Datum)} {f : StoreFailure}
    (hlen : ∀ values ∈ rows, columns.length = values.length)
    (h : t.appendAll columns rows = (t', .error f)) :
    (t' = t ∧ ∃ c ∈ columns, t.hasColumn c = false) ∨ f = .keysExhausted t.name := by
  induction rows generalizing t with
  | nil => simp [appendAll] at h
  | cons values rest ih =>
    rw [appendAll] at h
    cases happend : t.append columns values with
    | error g =>
      simp only [happend, Prod.mk.injEq, Except.error.injEq] at h
      obtain ⟨rfl, rfl⟩ := h
      exact (append_eq_error (hlen _ List.mem_cons_self) happend).imp_left fun hc => ⟨rfl, hc⟩
    | ok p =>
      obtain ⟨t₁, key⟩ := p
      obtain ⟨hcolumns, row, next, rfl, -⟩ := append_eq_ok happend
      simp only [happend, Prod.mk.injEq] at h
      obtain ⟨ht', hf⟩ := h
      -- the first row was taken, so no column is missing
      cases hkeys :
          (appendAll { t with rows := t.rows ++ [row], nextKey := next } columns rest).2 with
      | ok keys =>
        rw [hkeys] at hf
        cases hf
      | error g =>
        rw [hkeys] at hf
        obtain rfl : g = f := Except.error.inj hf
        rcases ih (fun v hv => hlen v (List.mem_cons_of_mem _ hv)) (Prod.ext ht' hkeys) with h | h
        · obtain ⟨-, c, hc, hmissing⟩ := h
          have hhas : t.hasColumn c = false := hmissing
          rw [hcolumns c hc] at hhas
          cases hhas
        · exact .inr h

/-- No row is refused in columns that the table has, if its serial columns are given keys after
which others are left. -/
theorem exists_appendAll {rows : List (List Datum)}
    (hlen : ∀ values ∈ rows, columns.length = values.length)
    (hcolumns : ∀ c ∈ columns, t.hasColumn c = true)
    (hkeys : ∀ values ∈ rows, ∀ c ∈ t.schema, c.type = .serial →
      ∃ k, (columns.zip values).lookup c.name = some (.int k) ∧ k ≠ Int64.maxValue) :
    ∃ t' keys, t.appendAll columns rows = (t', .ok keys) := by
  induction rows generalizing t with
  | nil => exact ⟨t, [], rfl⟩
  | cons values rest ih =>
    obtain ⟨d, hd⟩ := Draft.exists_foldlM (fun c => (columns.zip values).lookup c)
      (⟨[], t.nextKey, none⟩ : Draft) t.name (hkeys values List.mem_cons_self)
    have happend : t.append columns values
        = .ok ({ t with rows := t.rows ++ [d.cells], nextKey := d.nextKey }, d.key) := by
      have hfind : columns.find? (fun c => !t.hasColumn c) = none := by
        simpa [List.find?_eq_none] using hcolumns
      unfold append
      rw [if_neg (by simp [hlen values List.mem_cons_self]), hfind]
      simp only [hd]
      rfl
    obtain ⟨t', keys, hrest⟩ := ih
      (t := { t with rows := t.rows ++ [d.cells], nextKey := d.nextKey })
      (fun v hv => hlen v (List.mem_cons_of_mem _ hv)) hcolumns
      (fun v hv => hkeys v (List.mem_cons_of_mem _ hv))
    exact ⟨t', d.key.toList ++ keys, by rw [appendAll, happend]; simp only [hrest]; rfl⟩

end Table

/-- An insertion changes one table. -/
theorem Store.insert_of_table {s : Store} {t : Table} {i : Insertion}
    (ht : s.table i.table = .ok t) :
    (s.insert i).1.table = Function.update s.table i.table (.ok (t.appendAll i.columns i.rows).1) ∧
      (s.insert i).2 = (t.appendAll i.columns i.rows).2 := by
  obtain ⟨T, columns, rows⟩ := i
  obtain rfl : t.name = T := (Store.mem_of_table ht).2
  have hname := Table.name_appendAll t columns rows
  have htable := Store.table_replace (u := (t.appendAll columns rows).1) (by rw [hname]; exact ht)
  rw [hname] at htable
  unfold Store.insert
  rw [ht]
  exact ⟨htable, rfl⟩

/-- An insertion into one table leaves the others. -/
theorem Store.table_insert_of_ne {s : Store} {i : Insertion} {T : String} (h : T ≠ i.table) :
    (s.insert i).1.table T = s.table T := by
  cases ht : s.table i.table with
  | error f =>
    unfold Store.insert
    rw [ht]
  | ok t => rw [(insert_of_table ht).1, Function.update_of_ne h]

end EntityGraph
