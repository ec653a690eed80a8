import EntityGraph.Run.Action

/-!
# Runs of actions

What an action leaves behind, by the steps it is made of.

* `Action.runIn_bind` and its kin give the outcome and the world after each kind of step;
* `Action.FailsBySql` are the actions that only the database can stop;
* `Keeps R` says that a step relates every world to the one after it, for a relation `R` that is
  reflexive and transitive; it is enough to look at the single steps of an action.
-/

namespace EntityGraph

/-- The world with a further entry in its log. -/
def World.note (w : World) (e : LogEntry) : World :=
  { w with log := w.log ++ [e] }

@[simp] theorem World.note_store (w : World) (e : LogEntry) : (w.note e).store = w.store := rfl

@[simp] theorem World.note_log (w : World) (e : LogEntry) : (w.note e).log = w.log ++ [e] := rfl

/-- A computation after another begins where that one ended. -/
theorem World.bind_apply {α β : Type} (a : StateM World α) (f : α → StateM World β) (w : World) :
    (a >>= f) w = f (a w).1 (a w).2 := rfl

/-- Whether an error tells of the database. -/
def Error.isSql : Error → Bool
  | .sql _ => true
  | _ => false

namespace Action

variable {α β : Type} {w w' : World}

@[simp] theorem runIn_pure (a : α) : (pure a : Action α).runIn w = (.ok a, w) := rfl

@[simp] theorem runIn_throw (e : Error) : (throw e : Action α).runIn w = (.error e, w) := rfl

theorem runIn_bind (a : Action α) (f : α → Action β) :
    (a >>= f).runIn w = match a.runIn w with
      | (.ok x, w) => (f x).runIn w
      | (.error e, w) => (.error e, w) := by
  have hrun : (a >>= f).runIn w = StateT.bind a.run (ExceptT.bindCont fun x => f x) w := rfl
  have hstep : a.runIn w = a.run w := rfl
  rw [hrun, hstep, StateT.bind]
  simp only [bind]
  rcases a.run w with ⟨r, w₁⟩
  cases r with
  | error e => rfl
  | ok x => rfl

theorem runIn_bind_ok {a : Action α} {f : α → Action β} {x : α} (h : a.runIn w = (.ok x, w')) :
    (a >>= f).runIn w = (f x).runIn w' := by
  rw [runIn_bind, h]

theorem runIn_bind_error {a : Action α} {f : α → Action β} {e : Error}
    (h : a.runIn w = (.error e, w')) : (a >>= f).runIn w = (.error e, w') := by
  rw [runIn_bind, h]

/-- A sequence of two steps succeeds where both do. -/
theorem runIn_bind_eq_ok {a : Action α} {f : α → Action β} {b : β} :
    (a >>= f).runIn w = (.ok b, w') ↔
      ∃ x w₁, a.runIn w = (.ok x, w₁) ∧ (f x).runIn w₁ = (.ok b, w') := by
  rw [runIn_bind]
  obtain ⟨r, w₁⟩ := a.runIn w
  cases r with
  | error e => simp
  | ok x =>
    constructor
    · intro h
      exact ⟨x, w₁, rfl, h⟩
    · rintro ⟨x', w', heq, h⟩
      cases heq
      exact h

@[simp] theorem runIn_record (e : LogEntry) : (record e).runIn w = (.ok (), w.note e) := rfl

@[simp] theorem runIn_ofExcept (x : Except Error α) : (ofExcept x).runIn w = (x, w) := by
  cases x <;> rfl

/-- The answer of the database, with its refusal as an error. -/
def stored (x : Except StoreFailure α) : Except Error α :=
  match x with
  | .ok a => .ok a
  | .error failure => .error (Error.ofStore failure)

@[simp] theorem runIn_ofStore (x : Except StoreFailure α) :
    (ofStore x).runIn w = (stored x, w) := by
  cases x <;> rfl

theorem stored_eq_ok {x : Except StoreFailure α} {a : α} : stored x = .ok a ↔ x = .ok a := by
  cases x <;> simp [stored]

@[simp] theorem runIn_select (q : Select) :
    (select q).runIn w = (stored (w.store.select q), w.note (.statement (.select q))) := by
  cases h : w.store.select q with
  | error failure =>
    change (ofStore (w.store.select q)).runIn (w.note (.statement (.select q))) = _
    rw [h]
    rfl
  | ok records =>
    change (ofStore (w.store.select q)).runIn (w.note (.statement (.select q))) = _
    rw [h]
    rfl

@[simp] theorem runIn_query (q : Query) : (query q).runIn w
    = (stored (w.store.select q.toSelect), w.note (.statement (.select q.toSelect))) :=
  runIn_select q.toSelect

theorem runIn_ofExcept_bind_eq_ok {x : Except Error α} {f : α → Action β} {b : β} :
    (ofExcept x >>= f).runIn w = (.ok b, w') ↔ ∃ a, x = .ok a ∧ (f a).runIn w = (.ok b, w') := by
  rw [runIn_bind, runIn_ofExcept]
  cases x with
  | error e => simp
  | ok a => simp

theorem runIn_query_bind_eq_ok {q : Query} {f : List Record → Action β} {b : β} :
    (query q >>= f).runIn w = (.ok b, w') ↔ ∃ records, w.store.select q.toSelect = .ok records ∧
      (f records).runIn (w.note (.statement (.select q.toSelect))) = (.ok b, w') := by
  rw [runIn_bind, runIn_query]
  cases w.store.select q.toSelect with
  | error failure => simp [stored]
  | ok records => simp [stored]

/-- A sequence of two steps fails where the first does, or the second after the first. -/
theorem runIn_bind_eq_error {a : Action α} {f : α → Action β} {e : Error} :
    (a >>= f).runIn w = (.error e, w') ↔ a.runIn w = (.error e, w') ∨
      ∃ x w₁, a.runIn w = (.ok x, w₁) ∧ (f x).runIn w₁ = (.error e, w') := by
  rw [runIn_bind]
  obtain ⟨r, w₁⟩ := a.runIn w
  cases r with
  | error e' => simp
  | ok x =>
    constructor
    · intro h
      exact .inr ⟨x, w₁, rfl, h⟩
    · rintro (h | ⟨x', w', heq, h⟩)
      · cases h
      · cases heq
        exact h

/-- A run whose result is a value succeeds with it. -/
theorem runIn_eq_ok_of_toOption {a : Action α} {x : α} (h : (a.runIn w).1.toOption = some x) :
    a.runIn w = (.ok x, (a.runIn w).2) := by
  generalize a.runIn w = run at h
  obtain ⟨r, w'⟩ := run
  cases r with
  | error e => cases h
  | ok y => rw [Option.some.inj h]

/-- Whether a run fails with an error of some kind. -/
def failsWith (a : Action α) (w : World) (kind : Error → Bool) : Bool :=
  match (a.runIn w).1 with
  | .ok _ => false
  | .error e => kind e

theorem exists_of_failsWith {a : Action α} {kind : Error → Bool} (h : a.failsWith w kind = true) :
    ∃ e, kind e = true ∧ a.runIn w = (.error e, (a.runIn w).2) := by
  unfold failsWith at h
  generalize a.runIn w = run at h
  obtain ⟨r, w'⟩ := run
  cases r with
  | ok x => cases h
  | error e => exact ⟨e, h, rfl⟩

theorem runIn_pure_eq_ok {a b : α} :
    (pure a : Action α).runIn w = (.ok b, w') ↔ a = b ∧ w = w' := by
  simp

theorem runIn_insert (i : Insertion) : (insert i).runIn w = (stored (w.store.insert i).2,
    ⟨(w.store.insert i).1, w.log ++ [.statement (.insert i)]⟩) := by
  have h : (insert i).runIn w = (ofStore (w.store.insert i).2).runIn
      ⟨(w.store.insert i).1, w.log ++ [.statement (.insert i)]⟩ := rfl
  rw [h, runIn_ofStore]

theorem runIn_update (u : Update) : (update u).runIn w = match w.store.update u with
    | .ok (s, n) => (.ok n, ⟨s, w.log ++ [.statement (.update u)]⟩)
    | .error failure => (.error (Error.ofStore failure), w.note (.statement (.update u))) := by
  have h : (update u).runIn w = (ofStore (w.store.update u) >>= fun p => do
      set { w.note (.statement (.update u)) with store := p.1 }
      return p.2).runIn (w.note (.statement (.update u))) := rfl
  rw [h, runIn_bind, runIn_ofStore]
  rcases w.store.update u with failure | ⟨s, n⟩ <;> rfl

theorem runIn_delete (d : Deletion) : (delete d).runIn w = match w.store.delete d with
    | .ok (s, n) => (.ok n, ⟨s, w.log ++ [.statement (.delete d)]⟩)
    | .error failure => (.error (Error.ofStore failure), w.note (.statement (.delete d))) := by
  have h : (delete d).runIn w = (ofStore (w.store.delete d) >>= fun p => do
      set { w.note (.statement (.delete d)) with store := p.1 }
      return p.2).runIn (w.note (.statement (.delete d))) := rfl
  rw [h, runIn_bind, runIn_ofStore]
  rcases w.store.delete d with failure | ⟨s, n⟩ <;> rfl

theorem runIn_update_eq_ok {u : Update} {n : Nat} : (update u).runIn w = (.ok n, w') ↔
    ∃ s, w.store.update u = .ok (s, n) ∧ w' = ⟨s, w.log ++ [.statement (.update u)]⟩ := by
  rw [runIn_update]
  rcases w.store.update u with failure | ⟨s, m⟩
  · simp
  · constructor
    · intro h
      cases h
      exact ⟨s, rfl, rfl⟩
    · rintro ⟨s', hs, rfl⟩
      cases hs
      rfl

/-- An update that is refused changes nothing. -/
theorem runIn_update_eq_error {u : Update} {e : Error} (h : (update u).runIn w = (.error e, w')) :
    ∃ f, w.store.update u = .error f ∧ e = Error.ofStore f ∧ w'.store = w.store := by
  rw [runIn_update] at h
  rcases hs : w.store.update u with failure | ⟨s, m⟩
  · rw [hs] at h
    cases h
    exact ⟨failure, rfl, rfl, rfl⟩
  · rw [hs] at h
    cases h

theorem runIn_delete_eq_ok {d : Deletion} {n : Nat} : (delete d).runIn w = (.ok n, w') ↔
    ∃ s, w.store.delete d = .ok (s, n) ∧ w' = ⟨s, w.log ++ [.statement (.delete d)]⟩ := by
  rw [runIn_delete]
  rcases w.store.delete d with failure | ⟨s, m⟩
  · simp
  · constructor
    · intro h
      cases h
      exact ⟨s, rfl, rfl⟩
    · rintro ⟨s', hs, rfl⟩
      cases hs
      rfl

/-- A deletion that is refused changes nothing. -/
theorem runIn_delete_eq_error {d : Deletion} {e : Error}
    (h : (delete d).runIn w = (.error e, w')) :
    ∃ f, w.store.delete d = .error f ∧ e = Error.ofStore f ∧ w'.store = w.store := by
  rw [runIn_delete] at h
  rcases hs : w.store.delete d with failure | ⟨s, m⟩
  · rw [hs] at h
    cases h
    exact ⟨failure, rfl, rfl, rfl⟩
  · rw [hs] at h
    cases h

end Action

/-- A step relates every world to the one that it leaves. -/
def Keeps {α : Type} (R : World → World → Prop) (a : StateM World α) : Prop :=
  ∀ w, R w (a w).2

namespace Keeps

variable {α β : Type} {R : World → World → Prop}

theorem pure (hrefl : ∀ w, R w w) (x : α) : Keeps R (Pure.pure x : StateM World α) :=
  fun w => hrefl w

theorem bind (htrans : ∀ u v w, R u v → R v w → R u w) {a : StateM World α} {f : α → StateM World β}
    (ha : Keeps R a) (hf : ∀ x, Keeps R (f x)) : Keeps R (a >>= f) :=
  fun w => htrans _ _ _ (ha w) (hf (a w).1 (a w).2)

end Keeps

namespace Action

variable {α β : Type} {R : World → World → Prop}

theorem keeps_of_runIn {a : Action α} {w w' : World} {x : Except Error α} (h : Keeps R a.run)
    (hrun : a.runIn w = (x, w')) : R w w' := by
  have hw : R w (a.runIn w).2 := h w
  rwa [hrun] at hw

theorem keeps_pure (hrefl : ∀ w, R w w) (x : α) : Keeps R (pure x : Action α).run :=
  fun w => hrefl w

theorem keeps_throw (hrefl : ∀ w, R w w) (e : Error) : Keeps R (throw e : Action α).run :=
  fun w => hrefl w

theorem keeps_ofExcept (hrefl : ∀ w, R w w) (x : Except Error α) : Keeps R (ofExcept x).run := by
  intro w
  cases x <;> exact hrefl w

theorem keeps_bind (htrans : ∀ u v w, R u v → R v w → R u w) {a : Action α}
    {f : α → Action β} (ha : Keeps R a.run) (hf : ∀ x, Keeps R (f x).run) :
    Keeps R (a >>= f).run := by
  intro w
  change R w ((a >>= f).runIn w).2
  have hstep : R w (a.runIn w).2 := ha w
  rw [runIn_bind]
  rcases hrun : a.runIn w with ⟨r, w₁⟩
  rw [hrun] at hstep
  cases r with
  | error e => exact hstep
  | ok x => exact htrans _ _ _ hstep (hf x w₁)

theorem keeps_forM (hrefl : ∀ w, R w w) (htrans : ∀ u v w, R u v → R v w → R u w) {l : List α}
    {f : α → Action Unit} (hf : ∀ x ∈ l, Keeps R (f x).run) : Keeps R (l.forM f).run := by
  induction l with
  | nil => exact keeps_pure hrefl ()
  | cons x l ih =>
    exact keeps_bind htrans (hf x List.mem_cons_self) fun _ =>
      ih fun y hy => hf y (List.mem_cons_of_mem x hy)

variable {w w' : World}

/-- Nothing but the database makes an action fail. -/
def FailsBySql (a : Action α) : Prop :=
  ∀ w e w', a.runIn w = (.error e, w') → e.isSql = true

namespace FailsBySql

theorem pure (x : α) : FailsBySql (Pure.pure x : Action α) := by
  intro w e w' h
  cases h

theorem record (e : LogEntry) : FailsBySql (Action.record e) := by
  intro w e' w' h
  cases h

theorem bind {a : Action α} {f : α → Action β} (ha : FailsBySql a) (hf : ∀ x, FailsBySql (f x)) :
    FailsBySql (a >>= f) := by
  intro w e w' h
  rcases Action.runIn_bind_eq_error.1 h with h | ⟨x, w₁, -, h⟩
  · exact ha w e w' h
  · exact hf x w₁ e w' h

theorem query (q : Query) : FailsBySql (Action.query q) := by
  intro w e w' h
  rw [Action.runIn_query] at h
  cases hs : w.store.select q.toSelect with
  | ok records => simp [hs, stored] at h
  | error f =>
    rw [hs] at h
    cases h
    rfl

theorem insert (i : Insertion) : FailsBySql (Action.insert i) := by
  intro w e w' h
  rw [Action.runIn_insert] at h
  cases hs : (w.store.insert i).2 with
  | ok keys => simp [hs, stored] at h
  | error f =>
    rw [hs] at h
    cases h
    rfl

theorem update (u : Update) : FailsBySql (Action.update u) := by
  intro w e w' h
  obtain ⟨f, -, rfl, -⟩ := Action.runIn_update_eq_error h
  rfl

theorem delete (d : Deletion) : FailsBySql (Action.delete d) := by
  intro w e w' h
  obtain ⟨f, -, rfl, -⟩ := Action.runIn_delete_eq_error h
  rfl

theorem forM {l : List α} {f : α → Action Unit} (hf : ∀ x ∈ l, FailsBySql (f x)) :
    FailsBySql (l.forM f) := by
  induction l with
  | nil => exact pure ()
  | cons x l ih =>
    refine bind (hf x List.mem_cons_self) fun _ => ih fun y hy => ?_
    exact hf y (List.mem_cons_of_mem x hy)

end FailsBySql

end Action

end EntityGraph
