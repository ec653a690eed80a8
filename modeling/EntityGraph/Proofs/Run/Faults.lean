import EntityGraph.Proofs.Run.Action
import EntityGraph.Resolve.Execute

/-!
# Faults of models and internal errors

An error may find fault with the declarations of a model, or stand in a branch that is there for
what should not happen. Requests should not see such errors, and those that they can see are known
beforehand.

* `Error.isFault` and `Error.isInternal` tell these errors from ordinary ones;
* `Ends known` says of an outcome that it is a value which meets a condition, or an error which is
  ordinary or known;
* `Action.Ends`, `Execution.Ends` and `Completion.Ends` say the same of computations in every world,
  and of the errors that they gather.
-/

namespace EntityGraph

/-- Whether an error finds fault with the declarations of a model. -/
def Error.isFault : Error → Bool
  | metadata .. => true
  | unsupportedType .. => true
  | unknownModel _ => true
  | _ => false

theorem Error.isFault_iff {e : Error} : e.isFault = true ↔
    e.code ∈ ["METADATA_PARSE", "UNSUPPORTED_TYPE", "UNKNOWN_MODEL"] := by
  cases e <;> simp [isFault, code]

/-- Whether an error stands in a branch for what should not happen: for restricting entities that
are at hand already, and for ordering by a relation to many. The latter is also what reading such an
order answers. -/
def Error.isInternal : Error → Bool
  | filteringUnsupported => true
  | orderingUnsupported => true
  | badInput (.orderByMany _) => true
  | _ => false

/-- Whether an error is neither a fault of a model nor an internal one. -/
def Error.isOrdinary (e : Error) : Bool :=
  !e.isFault && !e.isInternal

namespace Error

theorem isOrdinary_of_isFault {e : Error} (h : e.isFault = true) : e.isOrdinary = false := by
  rw [isOrdinary, h]
  rfl

theorem isFault_of_isInternal {e : Error} (h : e.isInternal = true) : e.isFault = false := by
  cases e <;> first | rfl | cases h

end Error

/-- All internal errors are among some. -/
def Tolerant (known : Error → Prop) : Prop :=
  ∀ e : Error, e.isInternal = true → known e

variable {α β : Type} {known known' : Error → Prop} {P P' : α → Prop} {Q : β → Prop}

/-- An outcome is a value that meets a condition, or an error which is ordinary or known. -/
def Ends (known : Error → Prop) (x : Except Error α) (P : α → Prop) : Prop :=
  match x with
  | .ok v => P v
  | .error e => e.isOrdinary = false → known e

namespace Ends

theorem pure {v : α} (h : P v) : Ends known (Pure.pure v) P := h

theorem ordinary {e : Error} (h : e.isOrdinary = true) :
    Ends known (.error e : Except Error α) P := by
  intro hordinary
  rw [h] at hordinary
  cases hordinary

theorem fail {e : Error} (h : known e) : Ends known (.error e : Except Error α) P :=
  fun _ => h

theorem bind {x : Except Error α} {f : α → Except Error β} (hx : Ends known x P)
    (hf : ∀ v, x = .ok v → P v → Ends known (f v) Q) : Ends known (x >>= f) Q := by
  cases x with
  | error e => exact hx
  | ok v => exact hf v rfl hx

theorem mono {x : Except Error α} (hx : Ends known x P) (h : ∀ v, x = .ok v → P v → P' v) :
    Ends known x P' := by
  cases x with
  | error e => exact hx
  | ok v => exact h v rfl hx

theorem map {x : Except Error α} {f : α → β} (hx : Ends known x P) :
    Ends known (x.map f) fun _ => True := by
  cases x with
  | error e => exact hx
  | ok v => exact trivial

theorem of_ok {x : Except Error α} (hx : Ends known x P) {v : α} (h : x = .ok v) : P v := by
  subst h
  exact hx

theorem of_error {x : Except Error α} (hx : Ends known x P) {e : Error} (h : x = .error e) :
    e.isOrdinary = false → known e := by
  subst h
  exact hx

/-- Errors that are let through are known if they are known of the outcome itself. -/
theorem sharpen {x : Except Error α} {lets : Error → Prop}
    (hx : Ends (fun e => lets e ∨ known e) x P) (h : ∀ e, x = .error e → lets e → known e) :
    Ends known x P := by
  cases x with
  | error e => exact fun hordinary => (hx hordinary).elim (h e rfl) id
  | ok v => exact hx

/-- What is missing is an error of its own. -/
theorem elim {o : Option α} {e : Error} (he : e.isOrdinary = true) (ho : ∀ v, o = some v → P v) :
    Ends known (o.elim (.error e) .ok) P := by
  cases o with
  | none => exact ordinary he
  | some v => exact ho v rfl

theorem mapM {f : α → Except Error β} {l : List α}
    (hf : ∀ x ∈ l, Ends known (f x) fun _ => True) : Ends known (l.mapM f) fun _ => True := by
  induction l with
  | nil => exact pure trivial
  | cons x l ih =>
    rw [List.mapM_cons]
    exact (hf x List.mem_cons_self).bind fun _ _ _ =>
      (ih fun y hy => hf y (List.mem_cons_of_mem x hy)).bind fun _ _ _ => pure trivial

/-- What every step keeps holds at the end. -/
theorem foldlM {f : β → α → Except Error β} {l : List α} {I : β → Prop}
    (hf : ∀ b, I b → ∀ x ∈ l, Ends known (f b x) I) {b : β} (hb : I b) :
    Ends known (l.foldlM f b) I := by
  induction l generalizing b with
  | nil => exact pure hb
  | cons x l ih =>
    rw [List.foldlM_cons]
    exact (hf b hb x List.mem_cons_self).bind fun b' _ hb' =>
      ih (fun b hb y hy => hf b hb y (List.mem_cons_of_mem x hy)) hb'

end Ends

/-- A computation returns something that meets a condition, in every world. -/
def Returns (a : StateM World α) (P : α → Prop) : Prop :=
  ∀ w, P (a w).1

namespace Returns

theorem pure {x : α} (h : P x) : Returns (Pure.pure x) P :=
  fun _ => h

theorem bind {a : StateM World α} {f : α → StateM World β} (ha : Returns a P)
    (hf : ∀ x, P x → Returns (f x) Q) : Returns (a >>= f) Q :=
  fun w => hf (a w).1 (ha w) (a w).2

end Returns

namespace Action

/-- An action ends with a value that meets a condition, or with an error which is ordinary
or known. -/
def Ends (known : Error → Prop) (a : Action α) (P : α → Prop) : Prop :=
  Returns a.run fun r => EntityGraph.Ends known r P

namespace Ends

theorem of_runIn {a : Action α} (h : ∀ w, EntityGraph.Ends known (a.runIn w).1 P) :
    Ends known a P := h

theorem pure {x : α} (h : P x) : Ends known (Pure.pure x) P :=
  Returns.pure h

theorem throw {e : Error} (h : e.isOrdinary = true) :
    Ends known (MonadExcept.throw e : Action α) P :=
  Returns.pure (.ordinary h)

theorem bind {a : Action α} {f : α → Action β} (ha : Ends known a P)
    (hf : ∀ x, P x → Ends known (f x) Q) : Ends known (a >>= f) Q := by
  show Returns (a.run >>= ExceptT.bindCont f) _
  refine Returns.bind ha fun r hr => ?_
  cases r with
  | error e => exact Returns.pure hr
  | ok x => exact hf x hr

theorem mono {a : Action α} (ha : Ends known a P) (h : ∀ x, P x → P' x) : Ends known a P' :=
  fun w => EntityGraph.Ends.mono (ha w) fun x _ => h x

theorem ofExcept {x : Except Error α} (h : EntityGraph.Ends known x P) :
    Ends known (Action.ofExcept x) P := by
  cases x with
  | error e => exact Returns.pure h
  | ok v => exact pure h

/-- What comes after the outcome of a step that cannot touch the world. -/
theorem ofExcept_bind {x : Except Error α} {f : α → Action β} (h : EntityGraph.Ends known x P)
    (hf : ∀ v, x = .ok v → P v → Ends known (f v) Q) :
    Ends known (Action.ofExcept x >>= f) Q := by
  cases x with
  | error e => exact Returns.pure h
  | ok v => exact hf v rfl h

/-- A computation that cannot fail. -/
theorem lift {a : StateM World α} (h : Returns a P) : Ends known (liftM a : Action α) P :=
  Returns.bind h fun _ hx => Returns.pure hx

theorem stored (x : Except StoreFailure α) :
    EntityGraph.Ends known (Action.stored x) fun _ => True := by
  cases x with
  | error failure => exact .ordinary rfl
  | ok v => exact .pure trivial

theorem record (e : LogEntry) : Ends known (Action.record e) fun _ => True :=
  of_runIn fun _ => trivial

theorem query (q : Query) : Ends known (Action.query q) fun _ => True :=
  of_runIn fun w => by rw [runIn_query]; exact stored _

theorem count (q : Query) : Ends known (Action.count q) fun _ => True :=
  of_runIn fun w => by
    have hrun : (Action.count q).runIn w = (Action.stored (w.store.count q.toSelect),
        w.note (.statement (.count q.toSelect))) :=
      runIn_ofStore (w.store.count q.toSelect)
    rw [hrun]
    exact stored _

theorem insert (i : Insertion) : Ends known (Action.insert i) fun _ => True :=
  of_runIn fun w => by rw [runIn_insert]; exact stored _

theorem update (u : Update) : Ends known (Action.update u) fun _ => True :=
  of_runIn fun w => by
    rw [runIn_update]
    cases w.store.update u with
    | error failure => exact .ordinary rfl
    | ok _ => exact .pure trivial

theorem delete (d : Deletion) : Ends known (Action.delete d) fun _ => True :=
  of_runIn fun w => by
    rw [runIn_delete]
    cases w.store.delete d with
    | error failure => exact .ordinary rfl
    | ok _ => exact .pure trivial

theorem ask (g : Guard) (caller : Caller) (c : Check) :
    Ends known (g.ask caller c) fun _ => True :=
  bind (record _) fun _ _ => pure trivial

/-- A denial is ordinary. -/
theorem require (g : Guard) (caller : Caller) (c : Check) :
    Ends known (g.require caller c) fun _ => True := by
  refine bind (ask g caller c) fun allowed _ => ?_
  cases allowed with
  | false => exact throw rfl
  | true => exact pure trivial

theorem forM {l : List α} {f : α → Action Unit} (hf : ∀ x ∈ l, Ends known (f x) fun _ => True) :
    Ends known (l.forM f) fun _ => True := by
  induction l with
  | nil => exact pure trivial
  | cons x l ih =>
    exact bind (hf x List.mem_cons_self) fun _ _ => ih fun y hy => hf y (List.mem_cons_of_mem x hy)

/-- The items that pass a test are among all of them. -/
theorem filterM {p : α → Action Bool} {l : List α} (hp : ∀ x, Ends known (p x) fun _ => True) :
    Ends known (l.filterM p) fun kept => ∀ x ∈ kept, x ∈ l := by
  -- `filterM` keeps its items in an accumulator
  have haux : ∀ rest kept : List α, (∀ x ∈ rest ++ kept, x ∈ l) →
      Ends known (List.filterAuxM p rest kept) fun kept => ∀ x ∈ kept, x ∈ l := by
    intro rest
    induction rest with
    | nil => exact fun kept hkept => pure hkept
    | cons x rest ih =>
      intro kept hkept
      refine bind (hp x) fun keep _ => ?_
      obtain ⟨hx, hrest⟩ := List.forall_mem_cons.1 hkept
      cases keep with
      | false => exact ih kept hrest
      | true => exact ih (x :: kept) (by simpa [or_imp, forall_and, hx] using hrest)
  exact bind (haux l [] (by simp)) fun kept hkept => pure (by simpa using hkept)

theorem viewable (g : Guard) (caller : Caller) (entities : List Entity) :
    Ends known (g.viewable caller entities) fun shown => ∀ e ∈ shown, e ∈ entities :=
  filterM fun _ => ask g caller _

end Ends

end Action

/-- A field is left out for its type, or for an error which is ordinary or known. -/
def FieldError.Known (known : Error → Prop) : FieldError → Prop
  | .resolver e => e.isOrdinary = false → known e
  | .misfit => True

namespace Execution

/-- A step of an execution gathers only errors which are ordinary or known, and a condition holds of
its result. -/
def Ends (known : Error → Prop) (a : Execution α) (P : α → Prop) : Prop :=
  ∀ errors : List FieldError, (∀ e ∈ errors, e.Known known) →
    Returns (a.run errors) fun r => P r.1 ∧ ∀ e ∈ r.2, e.Known known

namespace Ends

theorem pure {x : α} (h : P x) : Ends known (Pure.pure x) P :=
  fun _ herrors => Returns.pure ⟨h, herrors⟩

theorem bind {a : Execution α} {f : α → Execution β} (ha : Ends known a P)
    (hf : ∀ x, P x → Ends known (f x) Q) : Ends known (a >>= f) Q :=
  fun errors herrors => Returns.bind (ha errors herrors) fun r hr => hf r.1 hr.1 r.2 hr.2

theorem note {e : FieldError} (h : e.Known known) : Ends known (Execution.note e) fun _ => True :=
  fun _ herrors => Returns.pure
    ⟨trivial, List.forall_mem_append.2 ⟨herrors, List.forall_mem_singleton.2 h⟩⟩

end Ends

end Execution

namespace Completion

/-- A step that may fail its field, for its type or for an error which is ordinary or known. -/
def Ends (known : Error → Prop) (a : Completion α) (P : α → Prop) : Prop :=
  Execution.Ends known a.run fun r => match r with
    | .ok x => P x
    | .error e => e.Known known

namespace Ends

theorem pure {x : α} (h : P x) : Ends known (Pure.pure x) P :=
  Execution.Ends.pure h

theorem throw {e : FieldError} (h : e.Known known) :
    Ends known (MonadExcept.throw e : Completion α) P :=
  Execution.Ends.pure h

theorem bind {a : Completion α} {f : α → Completion β} (ha : Ends known a P)
    (hf : ∀ x, P x → Ends known (f x) Q) : Ends known (a >>= f) Q := by
  show Execution.Ends known (a.run >>= ExceptT.bindCont f) _
  refine Execution.Ends.bind ha fun r hr => ?_
  cases r with
  | error e => exact Execution.Ends.pure hr
  | ok x => exact hf x hr

theorem lift {a : Execution α} (h : Execution.Ends known a P) :
    Ends known (liftM a : Completion α) P :=
  Execution.Ends.bind h fun _ hx => Execution.Ends.pure hx

/-- An action within an execution. -/
theorem perform {a : Action α} (h : Action.Ends known a P) :
    Ends known (Execution.perform a) P := by
  have hlift : Execution.Ends known (StateT.lift a.run : Execution (Except Error α))
      fun r => EntityGraph.Ends known r P := fun _ herrors =>
    Returns.bind h fun _ hr => Returns.pure ⟨hr, herrors⟩
  refine bind (lift hlift) fun r hr => ?_
  cases r with
  | error e => exact throw hr
  | ok x => exact pure hr

theorem mapM {l : List α} {f : α → Completion β} (hf : ∀ x ∈ l, Ends known (f x) fun _ => True) :
    Ends known (l.mapM f) fun _ => True := by
  induction l with
  | nil => exact pure trivial
  | cons x l ih =>
    rw [List.mapM_cons]
    exact bind (hf x List.mem_cons_self) fun _ _ =>
      bind (ih fun y hy => hf y (List.mem_cons_of_mem x hy)) fun _ _ => pure trivial

end Ends

end Completion

end EntityGraph
