import EntityGraph.Proofs.Run.Effects
import EntityGraph.Resolve.Execute

/-!
# Traces of requests

What a computation leaves in the log, entry by entry: each selection has to keep a law in view of
what the request has logged before it. The law is a relation between these entries and the
selection.

* `Lawful` are entries that keep the law, and `Logs` the computations that append only such entries,
  with what holds of their result in view of the whole trace;
* `Action.Logs`, `Execution.Logs` and `Completion.Logs` are the same for computations which may fail
  or gather errors: nothing is said of the result of one that fails.
-/

namespace EntityGraph

/-- The selection that an entry tells of, run to list its rows or to count them. -/
def LogEntry.selection? : LogEntry → Option Select
  | .statement (.select s) => some s
  | .statement (.count s) => some s
  | _ => none

/-- Each selection among some entries keeps a law in view of all entries before it. -/
def Lawful (law : List LogEntry → Select → Prop) (seen entries : List LogEntry) : Prop :=
  ∀ before e after s, entries = before ++ e :: after → e.selection? = some s →
    law (seen ++ before) s

namespace Lawful

variable {law : List LogEntry → Select → Prop} {seen entries more : List LogEntry}

theorem nil : Lawful law seen [] := by
  intro before e after s h
  simp at h

theorem append (h : Lawful law seen entries) (h' : Lawful law (seen ++ entries) more) :
    Lawful law seen (entries ++ more) := by
  intro before e after s hsplit hs
  rcases append_eq_append_cons hsplit with ⟨tail, hhere⟩ | ⟨middle, rfl, hlater⟩
  · exact h before e tail s hhere hs
  · rw [← List.append_assoc]
    exact h' middle e after s hlater hs

theorem singleton {e : LogEntry} (h : ∀ s, e.selection? = some s → law seen s) :
    Lawful law seen [e] := by
  intro before e' after s hsplit hs
  cases before with
  | nil =>
    obtain ⟨rfl, -⟩ := List.cons.inj hsplit
    rw [List.append_nil]
    exact h s hs
  | cons x before => simp at hsplit

end Lawful

/-- A computation that runs where a request has logged some entries appends entries which keep the
law, and a postcondition holds of its result in view of all of them. -/
def Logs {α : Type} (law : List LogEntry → Select → Prop) (seen : List LogEntry)
    (a : StateM World α) (P : List LogEntry → α → Prop) : Prop :=
  -- what was logged before the request began, `start`, permits nothing to it
  ∀ start s, ∃ x s' more, a ⟨s, start ++ seen⟩ = (x, ⟨s', start ++ (seen ++ more)⟩) ∧
    Lawful law seen more ∧ P (seen ++ more) x

namespace Logs

variable {α β : Type} {law : List LogEntry → Select → Prop} {seen : List LogEntry}
  {P P' : List LogEntry → α → Prop} {Q : List LogEntry → β → Prop}

theorem pure {x : α} (h : P seen x) : Logs law seen (Pure.pure x) P := by
  intro start s
  exact ⟨x, s, [], by rw [List.append_nil]; rfl, Lawful.nil, by rwa [List.append_nil]⟩

theorem bind {a : StateM World α} {f : α → StateM World β} (ha : Logs law seen a P)
    (hf : ∀ more x, P (seen ++ more) x → Logs law (seen ++ more) (f x) Q) :
    Logs law seen (a >>= f) Q := by
  intro start s
  obtain ⟨x, s₁, more, hrun, hlawful, hP⟩ := ha start s
  obtain ⟨y, s₂, more', hrun', hlawful', hQ⟩ := hf more x hP start s₁
  refine ⟨y, s₂, more ++ more', ?_, hlawful.append hlawful', ?_⟩
  · have hbind : (a >>= f) ⟨s, start ++ seen⟩
        = f (a ⟨s, start ++ seen⟩).1 (a ⟨s, start ++ seen⟩).2 := rfl
    rw [hbind, hrun, hrun', List.append_assoc]
  · rwa [← List.append_assoc]

theorem mono {a : StateM World α} (h : Logs law seen a P) (himp : ∀ seen x, P seen x → P' seen x) :
    Logs law seen a P' := by
  intro start s
  obtain ⟨x, s', more, hrun, hlawful, hP⟩ := h start s
  exact ⟨x, s', more, hrun, hlawful, himp _ _ hP⟩

/-- What holds of every longer trace holds after a computation as well. -/
theorem frame {a : StateM World α} {C : List LogEntry → Prop} (h : Logs law seen a P)
    (hC : ∀ more, C (seen ++ more)) : Logs law seen a fun seen x => C seen ∧ P seen x := by
  intro start s
  obtain ⟨x, s', more, hrun, hlawful, hP⟩ := h start s
  exact ⟨x, s', more, hrun, hlawful, hC more, hP⟩

/-- A step that appends one entry. -/
theorem of_entry {a : StateM World α} {e : LogEntry}
    (he : ∀ q, e.selection? = some q → law seen q)
    (ha : ∀ w, ∃ x s', a w = (x, ⟨s', w.log ++ [e]⟩) ∧ ∀ seen, P (seen ++ [e]) x) :
    Logs law seen a P := by
  intro start s
  obtain ⟨x, s', hrun, hP⟩ := ha ⟨s, start ++ seen⟩
  exact ⟨x, s', [e], by rw [hrun, List.append_assoc], Lawful.singleton he, hP seen⟩

end Logs

namespace Action

variable {α β : Type} {law : List LogEntry → Select → Prop} {seen : List LogEntry}
  {P P' : List LogEntry → α → Prop} {Q : List LogEntry → β → Prop}

/-- An action that appends entries which keep the law; if it succeeds, a postcondition holds of its
result. -/
def Logs (law : List LogEntry → Select → Prop) (seen : List LogEntry) (a : Action α)
    (P : List LogEntry → α → Prop) : Prop :=
  EntityGraph.Logs law seen a.run fun seen r => ∀ x, r = .ok x → P seen x

namespace Logs

theorem pure {x : α} (h : P seen x) : Logs law seen (Pure.pure x) P := by
  refine EntityGraph.Logs.pure fun y hy => ?_
  cases hy
  exact h

theorem throw (e : Error) : Logs law seen (MonadExcept.throw e : Action α) P := by
  refine EntityGraph.Logs.pure fun y hy => ?_
  cases hy

theorem bind {a : Action α} {f : α → Action β} (ha : Logs law seen a P)
    (hf : ∀ more x, P (seen ++ more) x → Logs law (seen ++ more) (f x) Q) :
    Logs law seen (a >>= f) Q := by
  show EntityGraph.Logs law seen (a.run >>= ExceptT.bindCont f) _
  refine EntityGraph.Logs.bind ha fun more r hr => ?_
  cases r with
  | error e => exact EntityGraph.Logs.pure fun y hy => by cases hy
  | ok x => exact hf more x (hr x rfl)

theorem mono {a : Action α} (h : Logs law seen a P) (himp : ∀ seen x, P seen x → P' seen x) :
    Logs law seen a P' :=
  EntityGraph.Logs.mono h fun seen _ hr x hx => himp seen x (hr x hx)

theorem frame {a : Action α} {C : List LogEntry → Prop} (h : Logs law seen a P)
    (hC : ∀ more, C (seen ++ more)) : Logs law seen a fun seen x => C seen ∧ P seen x :=
  EntityGraph.Logs.mono (EntityGraph.Logs.frame h hC) fun _ _ hr x hx => ⟨hr.1, hr.2 x hx⟩

/-- What cannot touch the world logs nothing. -/
theorem ofExcept_bind {x : Except Error α} {f : α → Action β}
    (hf : ∀ y, x = .ok y → Logs law seen (f y) Q) : Logs law seen (ofExcept x >>= f) Q := by
  cases x with
  | error e => exact throw e
  | ok y => exact hf y rfl

theorem of_ofExcept {x : Except Error α} (h : ∀ y, x = .ok y → P seen y) :
    Logs law seen (ofExcept x) P := by
  cases x with
  | error e => exact throw e
  | ok y => exact pure (h y rfl)

theorem record {e : LogEntry} (he : e.selection? = none) :
    Logs law seen (Action.record e) fun seen _ => e ∈ seen := by
  refine EntityGraph.Logs.of_entry (fun q hq => ?_) fun w => ⟨.ok (), w.store, rfl, fun _ _ _ => ?_⟩
  · rw [he] at hq
    cases hq
  · simp

theorem select {q : Select} (h : law seen q) : Logs law seen (Action.select q) fun _ _ => True := by
  refine EntityGraph.Logs.of_entry (fun q' hq => ?_) fun w =>
    ⟨_, w.store, Action.runIn_select q, fun _ _ _ => trivial⟩
  cases hq
  exact h

theorem count {q : Query} (h : law seen q.toSelect) :
    Logs law seen (Action.count q) fun _ _ => True := by
  refine EntityGraph.Logs.of_entry (fun q' hq => ?_) fun w =>
    ⟨_, w.store, Action.runIn_ofStore (w.store.count q.toSelect), fun _ _ _ => trivial⟩
  cases hq
  exact h

theorem insert (i : Insertion) : Logs law seen (Action.insert i) fun _ _ => True := by
  refine EntityGraph.Logs.of_entry (fun q hq => ?_) fun w =>
    ⟨_, _, Action.runIn_insert i, fun _ _ _ => trivial⟩
  cases hq

theorem update (u : Update) : Logs law seen (Action.update u) fun _ _ => True := by
  refine EntityGraph.Logs.of_entry (e := .statement (.update u)) (fun q hq => ?_) fun w => ?_
  · cases hq
  · have hrun : (Action.update u).run w = _ := Action.runIn_update u
    rw [hrun]
    cases w.store.update u with
    | error f => exact ⟨_, w.store, rfl, fun _ _ _ => trivial⟩
    | ok p => exact ⟨_, p.1, rfl, fun _ _ _ => trivial⟩

theorem delete (d : Deletion) : Logs law seen (Action.delete d) fun _ _ => True := by
  refine EntityGraph.Logs.of_entry (e := .statement (.delete d)) (fun q hq => ?_) fun w => ?_
  · cases hq
  · have hrun : (Action.delete d).run w = _ := Action.runIn_delete d
    rw [hrun]
    cases w.store.delete d with
    | error f => exact ⟨_, w.store, rfl, fun _ _ _ => trivial⟩
    | ok p => exact ⟨_, p.1, rfl, fun _ _ _ => trivial⟩

/-- A computation that cannot fail. -/
theorem lift {a : StateM World α} (h : EntityGraph.Logs law seen a P) :
    Logs law seen (liftM a : Action α) P := by
  refine EntityGraph.Logs.bind h fun more x hx => EntityGraph.Logs.pure fun y hy => ?_
  cases hy
  exact hx

/-- What holds after one step of a sequence, and ever after, holds after the sequence. -/
theorem forM {l : List α} {f : α → Action Unit} {R : α → List LogEntry → Prop}
    (hmono : ∀ x seen more, R x seen → R x (seen ++ more))
    (hf : ∀ more, ∀ x ∈ l, Logs law (seen ++ more) (f x) fun seen _ => R x seen) :
    Logs law seen (l.forM f) fun seen _ => ∀ x ∈ l, R x seen := by
  induction l generalizing seen with
  | nil => exact pure (by simp)
  | cons x l ih =>
    refine bind (by simpa using hf [] x List.mem_cons_self) fun more _ hx => ?_
    -- the rest starts from a longer trace, where the first step's entries still stand
    have hrest : Logs law (seen ++ more) (l.forM f) fun seen _ => ∀ y ∈ l, R y seen := by
      refine ih fun more' y hy => ?_
      rw [List.append_assoc]
      exact hf (more ++ more') y (List.mem_cons_of_mem x hy)
    exact (hrest.frame fun more' => hmono x _ more' hx).mono fun _ _ h => List.forall_mem_cons.2 h

theorem filterM {p : α → Action Bool} (l : List α)
    (hp : ∀ more x, Logs law (seen ++ more) (p x) fun _ _ => True) :
    Logs law seen (l.filterM p) fun _ _ => True := by
  -- `filterM` keeps its items in an accumulator
  have haux : ∀ (l kept : List α) (more : List LogEntry),
      Logs law (seen ++ more) (List.filterAuxM p l kept) fun _ _ => True := by
    intro l
    induction l with
    | nil => exact fun kept more => pure trivial
    | cons x l ih =>
      intro kept more
      refine bind (hp more x) fun more' keep _ => ?_
      rw [List.append_assoc]
      cases keep <;> exact ih _ _
  refine bind (P := fun _ _ => True) ?_ fun _ _ _ => pure trivial
  simpa using haux l [] []

/-- A question that is answered with yes is in the log, with its answer. -/
theorem require (g : Guard) (caller : Caller) (c : Check) :
    Logs law seen (g.require caller c) fun seen _ => .check caller c true ∈ seen := by
  have hask : Logs law seen (g.ask caller c) fun seen allowed => .check caller c allowed ∈ seen :=
    bind (record rfl) fun _ _ hmem => pure hmem
  refine bind hask fun more allowed hmem => ?_
  cases allowed with
  | false => exact throw _
  | true => exact pure hmem

theorem viewable (g : Guard) (caller : Caller) (entities : List Entity) :
    Logs law seen (g.viewable caller entities) fun _ _ => True :=
  filterM entities fun _ _ => bind (record rfl) fun _ _ _ => pure trivial

end Logs

end Action

namespace Execution

variable {α β : Type} {law : List LogEntry → Select → Prop} {seen : List LogEntry}
  {P : List LogEntry → α → Prop} {Q : List LogEntry → β → Prop}

/-- A step of an execution that appends entries which keep the law. -/
def Logs (law : List LogEntry → Select → Prop) (seen : List LogEntry) (a : Execution α)
    (P : List LogEntry → α → Prop) : Prop :=
  ∀ errors, EntityGraph.Logs law seen (a.run errors) fun seen r => P seen r.1

namespace Logs

theorem pure {x : α} (h : P seen x) : Logs law seen (Pure.pure x) P :=
  fun _ => EntityGraph.Logs.pure h

theorem bind {a : Execution α} {f : α → Execution β} (ha : Logs law seen a P)
    (hf : ∀ more x, P (seen ++ more) x → Logs law (seen ++ more) (f x) Q) :
    Logs law seen (a >>= f) Q :=
  fun errors => EntityGraph.Logs.bind (ha errors) fun more r hr => hf more r.1 hr r.2

theorem note (e : FieldError) : Logs law seen (Execution.note e) fun _ _ => True :=
  fun _ => EntityGraph.Logs.pure trivial

end Logs

end Execution

namespace Completion

variable {α β : Type} {law : List LogEntry → Select → Prop} {seen : List LogEntry}
  {P : List LogEntry → α → Prop} {Q : List LogEntry → β → Prop}

/-- A step that may fail its field and appends entries which keep the law. -/
def Logs (law : List LogEntry → Select → Prop) (seen : List LogEntry) (a : Completion α)
    (P : List LogEntry → α → Prop) : Prop :=
  Execution.Logs law seen a.run fun seen r => ∀ x, r = .ok x → P seen x

namespace Logs

theorem pure {x : α} (h : P seen x) : Logs law seen (Pure.pure x) P := by
  refine Execution.Logs.pure fun y hy => ?_
  cases hy
  exact h

theorem throw (e : FieldError) : Logs law seen (MonadExcept.throw e : Completion α) P := by
  refine Execution.Logs.pure fun y hy => ?_
  cases hy

theorem bind {a : Completion α} {f : α → Completion β} (ha : Logs law seen a P)
    (hf : ∀ more x, P (seen ++ more) x → Logs law (seen ++ more) (f x) Q) :
    Logs law seen (a >>= f) Q := by
  show Execution.Logs law seen (a.run >>= ExceptT.bindCont f) _
  refine Execution.Logs.bind ha fun more r hr => ?_
  cases r with
  | error e => exact Execution.Logs.pure fun y hy => by cases hy
  | ok x => exact hf more x (hr x rfl)

theorem lift {a : Execution α} (h : Execution.Logs law seen a P) :
    Logs law seen (liftM a : Completion α) P := by
  refine Execution.Logs.bind h fun more x hx => Execution.Logs.pure fun y hy => ?_
  cases hy
  exact hx

/-- An action within an execution. -/
theorem perform {a : Action α} (h : Action.Logs law seen a P) :
    Logs law seen (Execution.perform a) P := by
  have hlift : Execution.Logs law seen (StateT.lift a.run)
      fun seen r => ∀ x, r = .ok x → P seen x := fun errors =>
    EntityGraph.Logs.bind h fun more r hr => EntityGraph.Logs.pure hr
  refine bind (lift hlift) fun more r hr => ?_
  cases r with
  | error e => exact throw _
  | ok x => exact pure (hr x rfl)

theorem mapM {l : List α} {f : α → Completion β}
    (hf : ∀ more, ∀ x ∈ l, Logs law (seen ++ more) (f x) fun _ _ => True) :
    Logs law seen (l.mapM f) fun _ _ => True := by
  induction l generalizing seen with
  | nil => exact pure trivial
  | cons x l ih =>
    rw [List.mapM_cons]
    refine bind (by simpa using hf [] x List.mem_cons_self) fun more _ _ => ?_
    refine bind (ih fun more' y hy => ?_) fun _ _ _ => pure trivial
    rw [List.append_assoc]
    exact hf (more ++ more') y (List.mem_cons_of_mem x hy)

end Logs

end Completion

end EntityGraph
