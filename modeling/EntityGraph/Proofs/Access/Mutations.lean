import EntityGraph.Proofs.Access.Filtering
import EntityGraph.Proofs.Run.Effects

/-!
# Changes need permission

Every root field that changes something first finds the entity that it is about, then asks the
policy, and only then writes and announces.

* `Service.Finds` is what is stored under a key, and `Service.Needs` the question that a root field
  has to ask in a database;
* `Guarded` are the ways in which such a field can run, one theorem for each kind of field shows
  that it runs in one of them;
* `Service.mutations_authorized` is the result for a whole sequence of root fields.
-/

namespace EntityGraph

open World (Quiet Grows)

/-- Whether a row of a table has a key. -/
def Table.hasKey (t : Table) (id : Int64) (row : Row) : Bool :=
  match row.get t.columns (idColumn t.name) with
  | .ok d => d.compare? (.int id) == some .eq
  | .error _ => false

/-- The selection of the rows of a table that have a key. -/
def Persist.findQuery (table : String) (id : Int64) : Query :=
  (Query.all table).filter (.compare (idColumn table) .eq (.int id))

section Finding

variable {s : Store} {T : String} {t : Table} {id : Int64}

theorem test_hasKey (hname : t.name = T) {row : Row} {d : Datum}
    (hd : row.get t.columns (idColumn T) = .ok d) :
    s.testAll t.columns row [.compare (idColumn T) .eq (.int id)] = .ok (t.hasKey id row) := by
  have hkey : t.hasKey id row = d.equals (.int id) := by
    rw [Bool.eq_iff_iff, Datum.equals_iff]
    simp [Table.hasKey, hname, hd]
  rw [Store.testAll_singleton, Store.test, hd, hkey]
  exact Datum.satisfies_eq d (.int id)

/-- The selection by key gives the records of the rows that have it, if every row can have it. -/
theorem select_findQuery (ht : s.table T = .ok t)
    (hid : ∀ row ∈ t.rows, ∃ d, row.get t.columns (idColumn T) = .ok d) :
    s.select (Persist.findQuery T id).toSelect
      = .ok ((t.rows.filter (t.hasKey id)).map t.record) := by
  refine Store.select_of_tests ht fun row hrow => ?_
  obtain ⟨d, hd⟩ := hid row hrow
  exact test_hasKey (Store.mem_of_table ht).2 hd

theorem select_findQuery_eq_ok {records : List Record}
    (h : s.select (Persist.findQuery T id).toSelect = .ok records) :
    ∃ t, s.table T = .ok t ∧ ∀ row ∈ t.rows, ∃ d, row.get t.columns (idColumn T) = .ok d := by
  obtain ⟨t, ht, hok, -⟩ := Store.select_rows_eq_ok.1 h
  refine ⟨t, ht, fun row hrow => ?_⟩
  obtain ⟨b, hb⟩ := hok row hrow
  have hb' : s.testAll t.columns row [.compare (idColumn T) .eq (.int id)] = .ok b := hb
  rw [Store.testAll_singleton, Store.test] at hb'
  obtain ⟨d, hd, -⟩ := bind_eq_ok.1 hb'
  exact ⟨d, hd⟩

end Finding

/-- What is stored under a key of a model: the first row of its table that has the key. -/
def Service.Finds (sv : Service) (s : Store) (m : ModelId) (id : Int64) (found : Option Entity) :
    Prop :=
  ∃ T t, sv.catalog.table m = .ok T ∧ s.table T = .ok t ∧
    (∀ row ∈ t.rows, ∃ d, row.get t.columns (idColumn T) = .ok d) ∧
    found = (t.rows.find? (t.hasKey id)).map fun row => Entity.of m (t.record row)

namespace Service

variable {sv : Service} {s : Store} {m : ModelId} {id : Int64} {w : World}

theorem Finds.unique {found found' : Option Entity} (h : sv.Finds s m id found)
    (h' : sv.Finds s m id found') : found = found' := by
  obtain ⟨T, t, hT, ht, -, rfl⟩ := h
  obtain ⟨U, u, hU, hu, -, rfl⟩ := h'
  obtain rfl : T = U := Except.ok.inj (hT.symm.trans hU)
  obtain rfl : t = u := Except.ok.inj (ht.symm.trans hu)
  rfl

theorem runIn_find (T : String) : (Persist.find m T id).runIn w =
    ((Action.stored (w.store.select (Persist.findQuery T id).toSelect)).map fun records =>
      (Entity.ofRecords m records).head?,
      w.note (.statement (.select (Persist.findQuery T id).toSelect))) := by
  have hfind : Persist.find m T id = Action.query (Persist.findQuery T id) >>= fun records =>
      pure (Entity.ofRecords m records).head? := rfl
  rw [hfind, Action.runIn_bind, Action.runIn_query]
  cases w.store.select (Persist.findQuery T id).toSelect <;> rfl

/-- Looking an entity up succeeds with what is stored under its key. -/
theorem runIn_find_eq_ok {T : String} (hT : sv.catalog.table m = .ok T) {found : Option Entity} :
    (Persist.find m T id).runIn w =
        (.ok found, w.note (.statement (.select (Persist.findQuery T id).toSelect))) ↔
      sv.Finds w.store m id found := by
  rw [runIn_find, Prod.mk.injEq, map_eq_ok]
  simp only [Action.stored_eq_ok, and_true]
  have hhead : ∀ t : Table, (Entity.ofRecords m ((t.rows.filter (t.hasKey id)).map t.record)).head?
      = (t.rows.find? (t.hasKey id)).map fun row => Entity.of m (t.record row) := by
    intro t
    simp [Entity.ofRecords, List.head?_map, List.head?_filter, Function.comp_def]
  constructor
  · rintro ⟨records, hselect, rfl⟩
    obtain ⟨t, ht, hid⟩ := select_findQuery_eq_ok hselect
    rw [select_findQuery ht hid, Except.ok.injEq] at hselect
    exact ⟨T, t, hT, ht, hid, by rw [← hselect, hhead]⟩
  · rintro ⟨U, t, hU, ht, hid, rfl⟩
    obtain rfl : T = U := Except.ok.inj (hT.symm.trans hU)
    exact ⟨_, select_findQuery ht hid, hhead t⟩

end Service

/-- The ways in which a field can run that asks one question before it changes anything. The
question depends on the database at the start. -/
inductive Guarded {α : Type} (g : Guard) (caller : Caller) (needs : Check → Prop) (w : World) :
    Except Error α × World → Prop where
  /-- There is nothing to ask about, and nothing changes. -/
  | unasked {r w'} : (∀ c, ¬ needs c) → Quiet w w' → Guarded g caller needs w (r, w')
  /-- The policy denies, and nothing changes. -/
  | denied {c w'} : needs c → g.policy.allows caller c = false → Quiet w w' →
    Guarded g caller needs w
      (.error (.denied (g.vocabulary.denied c.ability c.property)), w'.note (.check caller c false))
  /-- The policy allows what follows. -/
  | allowed {c r w' w''} : needs c → g.policy.allows caller c = true → Quiet w w' →
    Grows (w'.note (.check caller c true)) w'' → Guarded g caller needs w (r, w'')

namespace Guarded

variable {α β : Type} {g : Guard} {caller : Caller} {needs : Check → Prop} {w w' w₀ : World}
  {r : Except Error α}

/-- A field that asks right away. -/
theorem require {c : Check} {a : Action α} (hc : needs c) (hw : Quiet w₀ w)
    (ha : Keeps Grows a.run) :
    Guarded g caller needs w₀ ((g.require caller c >>= fun _ => a).runIn w) := by
  rw [Action.runIn_bind, Guard.runIn_require]
  cases h : g.policy.allows caller c with
  | false => exact .denied hc h hw
  | true => exact .allowed hc h hw (ha _)

/-- A field that first needs something else: without it there is nothing to ask about. -/
theorem ofExcept_bind {x : Except Error β} {a : β → Action α} (hw : Quiet w₀ w)
    (herror : ∀ e, x = .error e → ∀ c, ¬ needs c)
    (hok : ∀ b, x = .ok b → Guarded g caller needs w₀ ((a b).runIn w)) :
    Guarded g caller needs w₀ ((Action.ofExcept x >>= a).runIn w) := by
  rw [Action.runIn_bind, Action.runIn_ofExcept]
  cases x with
  | error e => exact .unasked (herror e rfl) hw
  | ok b => exact hok b rfl

/-- What follows without changing anything does not matter. -/
theorem then_pure {a : Action α} (h : Guarded g caller needs w₀ (a.runIn w)) (f : α → β) :
    Guarded g caller needs w₀ ((a >>= fun x => pure (f x)).runIn w) := by
  rw [Action.runIn_bind]
  rcases hrun : a.runIn w with ⟨r, w'⟩
  rw [hrun] at h
  cases r with
  | error e =>
    cases h with
    | unasked hnone hquiet => exact .unasked hnone hquiet
    | denied hc hdenied hquiet => exact .denied hc hdenied hquiet
    | allowed hc hallowed hquiet hgrows => exact .allowed hc hallowed hquiet hgrows
  | ok x =>
    cases h with
    | unasked hnone hquiet => exact .unasked hnone hquiet
    | allowed hc hallowed hquiet hgrows => exact .allowed hc hallowed hquiet hgrows

/-- The log continues, and each effect in it stands behind the question, answered with yes. -/
theorem effects (h : Guarded g caller needs w (r, w')) :
    ∃ entries, w'.log = w.log ++ entries ∧ ∀ before e after, entries = before ++ e :: after →
      e.IsEffect → ∃ c, needs c ∧ g.policy.allows caller c = true ∧
        .check caller c true ∈ before := by
  have hnone : ∀ {entries : List LogEntry} {P : List LogEntry → Prop},
      (∀ e ∈ entries, ¬ e.IsEffect) →
        ∀ before e after, entries = before ++ e :: after → e.IsEffect → P before := by
    rintro entries P hquiet before e after rfl he
    exact absurd he (hquiet e (by simp))
  cases h with
  | unasked _ hquiet =>
    obtain ⟨-, entries, hlog, hquiet⟩ := hquiet
    exact ⟨entries, hlog, hnone hquiet⟩
  | @denied c w' _ _ hquiet =>
    obtain ⟨-, entries, hlog, hquiet⟩ := hquiet
    refine ⟨entries ++ [.check caller c false], by simp [hlog], hnone fun e he => ?_⟩
    rcases List.mem_append.1 he with he | he
    · exact hquiet e he
    · rw [List.mem_singleton.1 he]
      exact id
  | @allowed c _ w₁ _ hc hallowed hquiet hgrows =>
    obtain ⟨-, entries, hlog, hquiet⟩ := hquiet
    obtain ⟨more, hmore⟩ := hgrows
    refine ⟨entries ++ .check caller c true :: more, by simp [hmore, hlog], ?_⟩
    intro before e after hsplit he
    refine ⟨c, hc, hallowed, ?_⟩
    -- before the answer nothing has an effect, so the effect stands behind it
    rcases append_eq_append_cons hsplit with ⟨tail, rfl⟩ | ⟨middle, rfl, hmiddle⟩
    · exact absurd he (hquiet e (by simp))
    · cases middle with
      | nil =>
        obtain ⟨rfl, -⟩ := List.cons.inj hmiddle
        exact absurd he id
      | cons x middle =>
        obtain ⟨rfl, -⟩ := List.cons.inj hmiddle
        simp

/-- Without permission the database stays as it is. -/
theorem store_eq (h : Guarded g caller needs w (r, w')) :
    w'.store = w.store ∨ ∃ c, needs c ∧ g.policy.allows caller c = true := by
  cases h with
  | unasked _ hquiet => exact .inl hquiet.1
  | denied _ _ hquiet => exact .inl hquiet.1
  | allowed hc hallowed _ _ => exact .inr ⟨_, hc, hallowed⟩

/-- A denial is the outcome, and nothing has changed. -/
theorem of_denied (h : Guarded g caller needs w (r, w'))
    (hunique : ∀ c c', needs c → needs c' → c = c') {c : Check} (hc : needs c)
    (hdenied : g.policy.allows caller c = false) :
    (∃ message, r = .error (.denied message)) ∧ Quiet w w' := by
  cases h with
  | unasked hnone _ => exact absurd hc (hnone c)
  | denied _ _ hquiet =>
    exact ⟨⟨_, rfl⟩, hquiet.trans (Quiet.note _ (by simp [LogEntry.IsEffect]))⟩
  | allowed hc' hallowed _ _ =>
    rw [hunique _ _ hc' hc, hdenied] at hallowed
    cases hallowed

end Guarded

/-- A request for a root field on behalf of a caller; `input` names the argument of an input. -/
structure RootCall where
  caller : Caller
  field : RootField
  input : String
  selection : Selection

namespace Service

open Guard

variable {sv : Service} {w w' : World}

/-- The question that a root field has to ask in a database: whether the caller may create from the
raw input, or change or delete what is stored under the key. -/
def Needs (sv : Service) (call : RootCall) (s : Store) (c : Check) : Prop :=
  match call.field with
  | .create m => ∃ l, inputArg call.selection.args call.input = .ok l ∧
    c = { plain .create m with input := some l }
  | .update m => ∃ id l e, idArg call.selection.args = .ok id ∧
    inputArg call.selection.args call.input = .ok l ∧ sv.Finds s m id (some e) ∧
    c = { plain .update m with entity := some e, input := some l }
  | .delete m => ∃ id e, idArg call.selection.args = .ok id ∧ sv.Finds s m id (some e) ∧
    c = { plain .delete m with entity := some e }
  | _ => False

/-- A root field has one question to ask. -/
theorem Needs.unique {call : RootCall} {s : Store} {c c' : Check} (h : sv.Needs call s c)
    (h' : sv.Needs call s c') : c = c' := by
  obtain ⟨caller, field, input, selection⟩ := call
  cases field with
  | all m options => exact h.elim
  | view m => exact h.elim
  | create m =>
    obtain ⟨l, hl, rfl⟩ := h
    obtain ⟨l', hl', rfl⟩ := h'
    rw [Except.ok.inj (hl.symm.trans hl')]
  | update m =>
    obtain ⟨id, l, e, hid, hl, he, rfl⟩ := h
    obtain ⟨id', l', e', hid', hl', he', rfl⟩ := h'
    obtain rfl := Except.ok.inj (hid.symm.trans hid')
    rw [Except.ok.inj (hl.symm.trans hl'), Option.some.inj (he.unique he')]
  | delete m =>
    obtain ⟨id, e, hid, he, rfl⟩ := h
    obtain ⟨id', e', hid', he', rfl⟩ := h'
    obtain rfl := Except.ok.inj (hid.symm.trans hid')
    rw [Option.some.inj (he.unique he')]

theorem Finds.model_eq {s : Store} {m : ModelId} {id : Int64} {e : Entity}
    (h : sv.Finds s m id (some e)) : e.model = m := by
  obtain ⟨T, t, -, -, -, hfound⟩ := h
  obtain ⟨row, -, rfl⟩ := Option.map_eq_some_iff.1 hfound.symm
  rfl

/-- A creation asks before anything else. -/
theorem create_guarded {caller : Caller} {m : ModelId} {input : Literal} {selection : Selection}
    {needs : Check → Prop} (hneeds : needs { plain .create m with input := some input }) :
    Guarded sv.guard caller needs w ((sv.create caller m input selection).runIn w) := by
  refine Guarded.require hneeds (Quiet.refl w) ?_
  have hgrows := AcrossWrites.grows
  exact hgrows.bind (hgrows.ofExcept _) fun changes => hgrows.bind (hgrows.ofExcept _) fun table =>
    hgrows.bind (hgrows.store (fun _ _ => trivial) m) fun e =>
      hgrows.withRelations sv m e selection

/-- A field that looks an entity up: it asks about what is found, and what it does without anything
changes nothing. -/
theorem find_guarded {α : Type} {caller : Caller} {m : ModelId} {id : Int64} {T : String}
    {needs : Check → Prop} {a : Option Entity → Action α} (hT : sv.catalog.table m = .ok T)
    (hneeds : ∀ c, needs c → ∃ e, sv.Finds w.store m id (some e))
    (hnone : ∀ w', Quiet w w' → Quiet w ((a none).runIn w').2)
    (hsome : ∀ e w', sv.Finds w.store m id (some e) → Quiet w w' →
      Guarded sv.guard caller needs w ((a (some e)).runIn w')) :
    Guarded sv.guard caller needs w ((Persist.find m T id >>= a).runIn w) := by
  have hquiet : Quiet w (w.note (.statement (.select (Persist.findQuery T id).toSelect))) :=
    Quiet.note w (by simp [LogEntry.IsEffect])
  rw [Action.runIn_bind]
  rcases hrun : (Persist.find m T id).runIn w with ⟨r, w'⟩
  obtain rfl : w' = w.note (.statement (.select (Persist.findQuery T id).toSelect)) := by
    rw [runIn_find] at hrun
    exact (Prod.mk.inj hrun).2.symm
  cases r with
  | error e =>
    refine .unasked (fun c hc => ?_) hquiet
    obtain ⟨entity, hfinds⟩ := hneeds c hc
    rw [(runIn_find_eq_ok hT).2 hfinds] at hrun
    cases hrun
  | ok found =>
    have hfinds := (runIn_find_eq_ok hT).1 hrun
    cases found with
    | none =>
      refine .unasked (fun c hc => ?_) (hnone _ hquiet)
      obtain ⟨entity, hfinds'⟩ := hneeds c hc
      cases hfinds.unique hfinds'
    | some e => exact hsome e _ hfinds hquiet

theorem update_guarded {caller : Caller} {m : ModelId} {id : Int64} {input : Literal}
    {needs : Check → Prop} (hneeds : ∀ c, needs c ↔ ∃ e, sv.Finds w.store m id (some e) ∧
      c = { plain .update m with entity := some e, input := some input }) :
    Guarded sv.guard caller needs w ((sv.update caller m id input).runIn w) := by
  unfold update
  refine Guarded.ofExcept_bind (Quiet.refl w) (fun e he c hc => ?_) fun T hT => ?_
  · obtain ⟨entity, ⟨T, t, hT, -⟩, -⟩ := (hneeds c).1 hc
    rw [hT] at he
    cases he
  refine find_guarded hT (fun c hc => ?_) (fun w' hw' => hw') fun e w' hfinds hw' => ?_
  · obtain ⟨e, hfinds, -⟩ := (hneeds c).1 hc
    exact ⟨e, hfinds⟩
  refine Guarded.require ?_ hw' ?_
  · exact (hneeds _).2 ⟨e, hfinds, by rw [hfinds.model_eq]⟩
  have hgrows := AcrossWrites.grows
  exact hgrows.bind (hgrows.ofExcept _) fun changes =>
    hgrows.changeRow (fun _ _ => trivial) m id e

theorem delete_guarded {caller : Caller} {m : ModelId} {id : Int64}
    {needs : Check → Prop} (hneeds : ∀ c, needs c ↔ ∃ e, sv.Finds w.store m id (some e) ∧
      c = { plain .delete m with entity := some e }) :
    Guarded sv.guard caller needs w ((sv.delete caller m id).runIn w) := by
  unfold delete
  refine Guarded.ofExcept_bind (Quiet.refl w) (fun e he c hc => ?_) fun T hT => ?_
  · obtain ⟨entity, ⟨T, t, hT, -⟩, -⟩ := (hneeds c).1 hc
    rw [hT] at he
    cases he
  refine find_guarded hT (fun c hc => ?_) (fun w' hw' => hw') fun e w' hfinds hw' => ?_
  · obtain ⟨e, hfinds, -⟩ := (hneeds c).1 hc
    exact ⟨e, hfinds⟩
  refine Guarded.require ?_ hw' ?_
  · exact (hneeds _).2 ⟨e, hfinds, by rw [hfinds.model_eq]⟩
  exact AcrossWrites.grows.deleteRow T id e

/-- Run a root field. -/
def call (sv : Service) (c : RootCall) : Action (Option FieldValue) :=
  sv.resolveRoot c.caller c.field c.input c.selection

/-- Every root field asks what it needs to ask before it changes anything. -/
theorem call_guarded (sv : Service) (c : RootCall) (w : World) :
    Guarded sv.guard c.caller (sv.Needs c w.store) w ((sv.call c).runIn w) := by
  obtain ⟨caller, field, input, selection⟩ := c
  cases field with
  | all m options =>
    have hkeeps : Keeps Quiet (sv.call ⟨caller, .all m options, input, selection⟩).run := by
      unfold call resolveRoot
      dsimp only
      split_ifs
      · exact AcrossReads.quiet.listPaged sv caller m selection
      · exact AcrossReads.quiet.list sv caller m selection
    exact .unasked (fun c hc => hc) (hkeeps w)
  | view m => exact .unasked (fun c hc => hc) (AcrossReads.quiet.view sv caller m selection w)
  | create m =>
    refine Guarded.ofExcept_bind (Quiet.refl w) (fun e he c hc => ?_) fun l hl => ?_
    · obtain ⟨l, hl, -⟩ := hc
      cases he.symm.trans hl
    · exact create_guarded ⟨l, hl, rfl⟩
  | update m =>
    refine Guarded.ofExcept_bind (Quiet.refl w) (fun e he c hc => ?_) fun id hid => ?_
    · obtain ⟨id, l, entity, hid, -⟩ := hc
      cases he.symm.trans hid
    refine Guarded.ofExcept_bind (Quiet.refl w) (fun e he c hc => ?_) fun l hl => ?_
    · obtain ⟨id, l, entity, -, hl, -⟩ := hc
      cases he.symm.trans hl
    refine Guarded.then_pure (update_guarded fun c => ?_) _
    simp [Needs, hid, hl]
  | delete m =>
    refine Guarded.ofExcept_bind (Quiet.refl w) (fun e he c hc => ?_) fun id hid => ?_
    · obtain ⟨id, entity, hid, -⟩ := hc
      cases he.symm.trans hid
    refine Guarded.then_pure (delete_guarded fun c => ?_) _
    simp [Needs, hid]

/-- The world after a sequence of root fields, each run to its end or to its failure. -/
def callAll (sv : Service) (calls : List RootCall) (w : World) : World :=
  calls.foldl (fun w c => ((sv.call c).runIn w).2) w

/-- An effect in the log of a sequence has what it needs: it belongs to a root field which, before
the effect, put its question in the database of that moment, and was answered with yes. -/
def Authorized (sv : Service) (calls : List RootCall) (w : World) (before : List LogEntry)
    (e : LogEntry) : Prop :=
  ∃ earlier c later asked rest check, calls = earlier ++ c :: later ∧
    w.log ++ before = (sv.callAll earlier w).log ++ asked ∧
    (sv.callAll (earlier ++ [c]) w).log = (sv.callAll earlier w).log ++ asked ++ e :: rest ∧
    sv.Needs c (sv.callAll earlier w).store check ∧
    sv.guard.policy.allows c.caller check = true ∧ .check c.caller check true ∈ asked

/-- Every effect in the log of a sequence is authorized. -/
theorem effects_callAll (sv : Service) (calls : List RootCall) (w : World) :
    ∃ entries, (sv.callAll calls w).log = w.log ++ entries ∧
      ∀ before e after, entries = before ++ e :: after → e.IsEffect →
        sv.Authorized calls w before e := by
  induction calls generalizing w with
  | nil => exact ⟨[], by simp [callAll], by simp⟩
  | cons c rest ih =>
    rcases hrun : (sv.call c).runIn w with ⟨r, w₁⟩
    have hguarded := call_guarded sv c w
    rw [hrun] at hguarded
    obtain ⟨first, hfirst, heffects⟩ := hguarded.effects
    obtain ⟨more, hmore, hrest⟩ := ih w₁
    have hstep : ∀ calls, sv.callAll (c :: calls) w = sv.callAll calls w₁ := fun calls => by
      simp [callAll, hrun]
    refine ⟨first ++ more, by rw [hstep, hmore, hfirst, List.append_assoc], ?_⟩
    intro before e after hsplit he
    -- the effect belongs to the first root field or to a later one
    rcases append_eq_append_cons hsplit with ⟨tail, hhere⟩ | ⟨middle, rfl, hlater⟩
    · obtain ⟨check, hneeds, hallows, hmem⟩ := heffects before e tail hhere he
      refine ⟨[], c, rest, before, tail, check, rfl, rfl, ?_, hneeds, hallows, hmem⟩
      rw [List.nil_append, hstep, List.append_assoc, ← hhere]
      exact hfirst
    · obtain ⟨earlier, d, later, asked, tail, check, rfl, hlog, hbelongs, hneeds, hallows, hmem⟩ :=
        hrest middle e after hlater he
      refine ⟨c :: earlier, d, later, asked, tail, check, rfl, ?_, ?_, ?_, hallows, hmem⟩
      · rw [hstep, ← hlog, hfirst, List.append_assoc]
      · rw [List.cons_append, hstep, hstep]
        exact hbelongs
      · rw [hstep]
        exact hneeds

/-- A root field that is denied fails with the code of a denial and has changed nothing. -/
theorem call_of_denied {c : RootCall} {check : Check} (hneeds : sv.Needs c w.store check)
    (hdenied : sv.guard.policy.allows c.caller check = false) :
    ∃ message entries, (sv.call c).runIn w
        = (.error (.denied message), ⟨w.store, w.log ++ entries⟩) ∧
      (Error.denied message).code = "UNAUTHORIZED" ∧ ∀ e ∈ entries, ¬ e.IsEffect := by
  rcases hrun : (sv.call c).runIn w with ⟨r, w'⟩
  have hguarded := call_guarded sv c w
  rw [hrun] at hguarded
  obtain ⟨⟨message, rfl⟩, hstore, entries, hlog, hquiet⟩ :=
    hguarded.of_denied (fun _ _ => Needs.unique) hneeds hdenied
  refine ⟨message, entries, ?_, rfl, hquiet⟩
  rw [← hstore, ← hlog]

theorem exists_find_none {m : ModelId} {id : Int64} (h : sv.Finds w.store m id none) :
    ∃ T q, sv.catalog.table m = .ok T ∧
      (Persist.find m T id).runIn w = (.ok none, w.note (.statement (.select q))) := by
  obtain ⟨T, t, hT, ht⟩ := h
  exact ⟨T, _, hT, (runIn_find_eq_ok hT).2 ⟨T, t, hT, ht⟩⟩

section Missing

variable {caller : Caller} {m : ModelId} {id : Int64} (h : sv.Finds w.store m id none)

include h

theorem update_of_none (input : Literal) : ∃ q, (sv.update caller m id input).runIn w
    = (.ok false, w.note (.statement (.select q))) := by
  obtain ⟨T, q, hT, hfind⟩ := exists_find_none h
  refine ⟨q, ?_⟩
  unfold update
  rw [hT, Action.runIn_bind_ok (Action.runIn_ofExcept _), Action.runIn_bind_ok hfind]
  rfl

theorem delete_of_none : ∃ q, (sv.delete caller m id).runIn w
    = (.ok false, w.note (.statement (.select q))) := by
  obtain ⟨T, q, hT, hfind⟩ := exists_find_none h
  refine ⟨q, ?_⟩
  unfold delete
  rw [hT, Action.runIn_bind_ok (Action.runIn_ofExcept _), Action.runIn_bind_ok hfind]
  rfl

theorem view_of_none {selection : Selection} (hid : idArg selection.args = .ok id) :
    ∃ q, (sv.view caller m selection).runIn w = (.ok none, w.note (.statement (.select q))) := by
  obtain ⟨T, q, hT, hfind⟩ := exists_find_none h
  refine ⟨q, ?_⟩
  unfold view
  rw [hid, Action.runIn_bind_ok (Action.runIn_ofExcept _), hT,
    Action.runIn_bind_ok (Action.runIn_ofExcept _), Action.runIn_bind_ok hfind]
  rfl

end Missing

/-- Nothing is written and nothing announced without permission: in the log of every sequence of
root fields, each effect belongs to a field that asked before, about the raw input or about what was
then stored under the key, and was allowed; a field changes the database only with permission; a
denied one fails as such and changes nothing; and a key without a row leads to no question and no
change, but to the answers false, false and null. -/
theorem mutations_authorized (sv : Service) :
    (∀ calls w, ∃ entries, (sv.callAll calls w).log = w.log ++ entries ∧
      ∀ before e after, entries = before ++ e :: after → e.IsEffect →
        sv.Authorized calls w before e) ∧
    (∀ c w, ((sv.call c).runIn w).2.store = w.store ∨
      ∃ check, sv.Needs c w.store check ∧ sv.guard.policy.allows c.caller check = true) ∧
    (∀ c w check, sv.Needs c w.store check → sv.guard.policy.allows c.caller check = false →
      ∃ message entries, (sv.call c).runIn w
          = (.error (.denied message), ⟨w.store, w.log ++ entries⟩) ∧
        (Error.denied message).code = "UNAUTHORIZED" ∧ ∀ e ∈ entries, ¬ e.IsEffect) ∧
    (∀ caller m input selection id w, idArg selection.args = .ok id → sv.Finds w.store m id none →
      ((∃ l, inputArg selection.args input = .ok l) →
        ∃ q, (sv.call ⟨caller, .update m, input, selection⟩).runIn w
          = (.ok (some (.literal (.bool false))), w.note (.statement (.select q)))) ∧
      (∃ q, (sv.call ⟨caller, .delete m, input, selection⟩).runIn w
        = (.ok (some (.literal (.bool false))), w.note (.statement (.select q)))) ∧
      ∃ q, (sv.call ⟨caller, .view m, input, selection⟩).runIn w
        = (.ok none, w.note (.statement (.select q)))) := by
  refine ⟨effects_callAll sv, fun c w => ?_, fun c w check => call_of_denied, ?_⟩
  · rcases hrun : (sv.call c).runIn w with ⟨r, w'⟩
    have hguarded := call_guarded sv c w
    rw [hrun] at hguarded
    exact hguarded.store_eq
  · intro caller m input selection id w hid hnone
    refine ⟨fun ⟨l, hl⟩ => ?_, ?_, view_of_none hnone hid⟩
    · obtain ⟨q, hq⟩ : ∃ q, (sv.update caller m id l).runIn w
          = (.ok false, w.note (.statement (.select q))) := update_of_none hnone l
      refine ⟨q, ?_⟩
      unfold call resolveRoot
      rw [hid, Action.runIn_bind_ok (Action.runIn_ofExcept _), hl,
        Action.runIn_bind_ok (Action.runIn_ofExcept _)]
      exact Action.runIn_bind_ok hq
    · obtain ⟨q, hq⟩ : ∃ q, (sv.delete caller m id).runIn w
          = (.ok false, w.note (.statement (.select q))) := delete_of_none hnone
      refine ⟨q, ?_⟩
      unfold call resolveRoot
      rw [hid, Action.runIn_bind_ok (Action.runIn_ofExcept _)]
      exact Action.runIn_bind_ok hq

/-- A shelf that nobody may change. -/
def shelf : Service :=
  ⟨Sample.Shelf.catalog, TypeGraph.empty,
    ⟨Policy.denying [⟨.delete, none, none, none, none⟩], .english⟩, 3,
    3⟩

/-- The deletion of the first author, Annie. -/
def deleteAnnie : RootCall :=
  ⟨none, .delete Sample.Shelf.author, "", ⟨"deleteAuthor", "deleteAuthor", [("id", .int 1)], []⟩⟩

theorem mutations_authorized_shelf :
    ∃ message entries, (shelf.call deleteAnnie).runIn ⟨Sample.Shelf.store, []⟩
        = (.error (.denied message), ⟨Sample.Shelf.store, [] ++ entries⟩) ∧
      (Error.denied message).code = "UNAUTHORIZED" ∧ ∀ e ∈ entries, ¬ e.IsEffect := by
  have hfinds : shelf.Finds Sample.Shelf.store Sample.Shelf.author 1 (some (Entity.of
      Sample.Shelf.author (Sample.Shelf.authors.record [.int 1, .text "Annie"]))) := by
    refine ⟨"authors", Sample.Shelf.authors, rfl, rfl, ?_, rfl⟩
    intro row hrow
    obtain rfl | rfl : row = [.int 1, .text "Annie"] ∨ row = [.int 2, .text "Abed"] := by
      simpa [Sample.Shelf.authors] using hrow
    · exact ⟨.int 1, rfl⟩
    · exact ⟨.int 2, rfl⟩
  exact (mutations_authorized shelf).2.2.1 deleteAnnie ⟨Sample.Shelf.store, []⟩ _
    ⟨1, _, rfl, hfinds, rfl⟩ rfl

end Service

end EntityGraph
