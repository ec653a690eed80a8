import EntityGraph.Proofs.Access.Mutations
import EntityGraph.Proofs.Resolve.Changes

/-!
# Rejected changes

A change is rejected if it fails for another reason than the database: without permission, or
because of something in its input or below its field.

* `Action.Atomic` are the actions that change nothing if they are rejected, such as those that only
  the database can stop;
* `Service.rejected_mutations` is the result: updates and deletions are atomic, creations are so up
  to the relations that are loaded for the answer.
-/

namespace EntityGraph

namespace Action

variable {α β : Type} {w w' : World}

/-- An action that is not stopped by the database, but fails, has changed nothing. -/
def Atomic (a : Action α) : Prop :=
  ∀ w e w', a.runIn w = (.error e, w') → e.isSql = false → w'.store = w.store

namespace Atomic

theorem of_failsBySql {a : Action α} (ha : FailsBySql a) : Atomic a := by
  intro w e w' h hsql
  rw [ha w e w' h] at hsql
  cases hsql

/-- What changes nothing may come before an atomic action. -/
theorem quiet_bind {a : Action α} {f : α → Action β} (ha : Keeps World.Quiet a.run)
    (hf : ∀ x, Atomic (f x)) : Atomic (a >>= f) := by
  intro w e w' h hsql
  rcases Action.runIn_bind_eq_error.1 h with h | ⟨x, w₁, hx, h⟩
  · exact (Action.keeps_of_runIn ha h).1
  · rw [hf x w₁ e w' h hsql]
    exact (Action.keeps_of_runIn ha hx).1

theorem then_pure {a : Action α} (ha : Atomic a) (f : α → β) :
    Atomic (a >>= fun x => Pure.pure (f x)) := by
  intro w e w' h hsql
  rcases Action.runIn_bind_eq_error.1 h with h | ⟨x, w₁, -, h⟩
  · exact ha w e w' h hsql
  · cases h

theorem ofExcept_bind {x : Except Error α} {f : α → Action β}
    (hf : ∀ y, x = .ok y → Atomic (f y)) : Atomic (Action.ofExcept x >>= f) := by
  cases x with
  | error e =>
    intro w e' w' h _
    cases h
    rfl
  | ok y => exact hf y rfl

end Atomic

end Action

namespace Persist

open EntityGraph.Action (FailsBySql)

theorem find_failsBySql (m : ModelId) (T : String) (id : Int64) : FailsBySql (find m T id) :=
  FailsBySql.bind (FailsBySql.query _) fun _ => FailsBySql.pure _

theorem insert_failsBySql (T : String) (attributes : Record) :
    FailsBySql (insert T attributes) := by
  refine FailsBySql.bind (FailsBySql.insert _) fun keys => ?_
  cases keys with
  | nil =>
    intro w e w' h
    cases h
    rfl
  | cons key keys => exact FailsBySql.pure key

theorem update_failsBySql (T : String) (id : Int64) (attributes : Record) :
    FailsBySql (update T id attributes) := by
  unfold update
  split_ifs
  · exact FailsBySql.pure 0
  · exact FailsBySql.update _

theorem syncHolders_failsBySql (T key : String) (owner : Int64) (targets : List Int64) :
    FailsBySql (syncHolders T key owner targets) := by
  refine FailsBySql.bind (FailsBySql.update _) fun _ => ?_
  split_ifs
  · exact FailsBySql.pure ()
  · exact FailsBySql.bind (FailsBySql.update _) fun _ => FailsBySql.pure ()

theorem syncPairs_failsBySql (pivot ownerKey relatedKey : String) (owner : Int64)
    (targets : List Int64) : FailsBySql (syncPairs pivot ownerKey relatedKey owner targets) := by
  refine FailsBySql.bind (FailsBySql.query _) fun _ =>
    FailsBySql.bind (FailsBySql.delete _) fun _ => ?_
  dsimp only
  split_ifs
  · exact FailsBySql.pure ()
  · exact FailsBySql.bind (FailsBySql.insert _) fun _ => FailsBySql.pure ()

/-- Only the database stops a sync of a relation that is not stored on the side of its owner. -/
theorem sync_failsBySql {r : Relation} (h : ∀ key, r.link ≠ .belongsTo key) (owner : Int64)
    (targets : List Int64) : FailsBySql (sync r owner targets) := by
  unfold sync
  cases hlink : r.link with
  | belongsTo key => exact absurd hlink (h key)
  | hasOne key => exact syncHolders_failsBySql _ key owner targets
  | hasMany key => exact syncHolders_failsBySql _ key owner targets
  | belongsToMany pivot ownerKey relatedKey =>
    exact syncPairs_failsBySql pivot ownerKey relatedKey owner targets

end Persist

namespace Service

open EntityGraph.Action (FailsBySql Atomic)

variable {sv : Service} {caller : Caller} {m : ModelId} {changes : Changes} {w w' : World}

/-- Only the database stops the syncs of the relations that an input names. -/
theorem syncAll_failsBySql {skipNulls : Bool} {input : Literal}
    (h : Changes.parse sv.catalog m skipNulls input = .ok changes) (id : Int64) :
    FailsBySql (syncAll id changes.relations) := by
  refine FailsBySql.forM fun link hlink => ?_
  obtain ⟨entry, -, p, target, -, -, -, -, helsewhere⟩ := Changes.parse_links h link hlink
  exact Persist.sync_failsBySql helsewhere id link.2

/-- Only the database stops the storing of an entity. -/
theorem store_failsBySql {skipNulls : Bool} {input : Literal}
    (h : Changes.parse sv.catalog m skipNulls input = .ok changes) (T : String) :
    FailsBySql (store m T changes) := by
  refine FailsBySql.bind (FailsBySql.record _) fun _ =>
    FailsBySql.bind (Persist.insert_failsBySql T _) fun id =>
    FailsBySql.bind (syncAll_failsBySql h id) fun _ =>
    FailsBySql.bind (Persist.find_failsBySql m T id) fun found => ?_
  cases found with
  | none =>
    intro w e w' h
    cases h
    rfl
  | some e => exact FailsBySql.bind (FailsBySql.record _) fun _ => FailsBySql.pure e

theorem update_atomic (sv : Service) (caller : Caller) (m : ModelId) (id : Int64)
    (input : Literal) : Atomic (sv.update caller m id input) := by
  refine Atomic.ofExcept_bind fun T _ =>
    Atomic.quiet_bind (AcrossReads.quiet.find m T id) fun found => ?_
  cases found with
  | none => exact Atomic.of_failsBySql (FailsBySql.pure false)
  | some e =>
    refine Atomic.quiet_bind (AcrossReads.quiet.require sv.guard caller _) fun _ =>
      Atomic.ofExcept_bind fun changes hparse => Atomic.of_failsBySql ?_
    refine FailsBySql.bind (FailsBySql.record _) fun _ =>
      FailsBySql.bind (Persist.update_failsBySql T id _) fun _ =>
      FailsBySql.bind (syncAll_failsBySql hparse id) fun _ =>
      FailsBySql.bind (Persist.find_failsBySql m T id) fun found => ?_
    cases found with
    | none => exact FailsBySql.pure true
    | some updated => exact FailsBySql.bind (FailsBySql.record _) fun _ => FailsBySql.pure true

theorem delete_atomic (sv : Service) (caller : Caller) (m : ModelId) (id : Int64) :
    Atomic (sv.delete caller m id) := by
  refine Atomic.ofExcept_bind fun T _ =>
    Atomic.quiet_bind (AcrossReads.quiet.find m T id) fun found => ?_
  cases found with
  | none => exact Atomic.of_failsBySql (FailsBySql.pure false)
  | some e =>
    refine Atomic.quiet_bind (AcrossReads.quiet.require sv.guard caller _) fun _ =>
      Atomic.of_failsBySql ?_
    exact FailsBySql.bind (FailsBySql.record _) fun _ => FailsBySql.bind (FailsBySql.delete _)
      fun _ => FailsBySql.bind (FailsBySql.record _) fun _ => FailsBySql.pure _

/-- Nothing is loaded ahead for the answer of a root field. -/
def LoadsNothing (sv : Service) (m : ModelId) (selection : Selection) : Prop :=
  ∃ root, sv.graph.object m = .ok root ∧
    LoadPlan.ofSelections sv.catalog sv.graph root [selection.upTo sv.selectionDepth] = .ok []

/-- A creation that stored its entity, and then failed to load what its answer asks for. -/
def StoredUnloaded (sv : Service) (m : ModelId) (input : Literal) (selection : Selection)
    (e : Error) (w w' : World) : Prop :=
  ∃ changes T entity w₁ w₂, Changes.parse sv.catalog m true input = .ok changes ∧
    sv.catalog.table m = .ok T ∧ w₁.store = w.store ∧
    (store m T changes).runIn w₁ = (.ok entity, w₂) ∧
    (sv.withRelations m entity selection).runIn w₂ = (.error e, w') ∧ w'.store = w₂.store

theorem not_loadsNothing {entity : Entity} {selection : Selection} {e : Error}
    (h : (sv.withRelations m entity selection).runIn w = (.error e, w')) :
    ¬ sv.LoadsNothing m selection := by
  rintro ⟨root, hroot, hplan⟩
  have hload : (sv.eagerLoad m [entity] [selection.upTo sv.selectionDepth]).runIn w
      = (.ok [entity], w) := by
    unfold eagerLoad
    rw [hroot, Action.runIn_bind_ok (Action.runIn_ofExcept _), hplan,
      Action.runIn_bind_ok (Action.runIn_ofExcept _)]
    rfl
  unfold withRelations at h
  rw [Action.runIn_bind_ok hload] at h
  cases h

/-- A creation that is rejected has changed nothing, unless the relations of its answer failed. -/
theorem create_rejected {input : Literal} {selection : Selection} {e : Error}
    (h : (sv.create caller m input selection).runIn w = (.error e, w')) (hsql : e.isSql = false) :
    w'.store = w.store ∨
      ¬ sv.LoadsNothing m selection ∧ sv.StoredUnloaded m input selection e w w' := by
  unfold create at h
  rcases Action.runIn_bind_eq_error.1 h with h | ⟨_, w₁, hrequire, h⟩
  · exact .inl (Action.keeps_of_runIn (AcrossReads.quiet.require sv.guard caller _) h).1
  obtain ⟨-, rfl⟩ := Guard.runIn_require_eq_ok.1 hrequire
  cases hparse : Changes.parse sv.catalog m true input with
  | error e' =>
    rw [hparse, Action.runIn_bind_error (Action.runIn_ofExcept _)] at h
    cases h
    exact .inl rfl
  | ok changes =>
    rw [hparse, Action.runIn_bind_ok (Action.runIn_ofExcept _)] at h
    cases hT : sv.catalog.table m with
    | error e' =>
      rw [hT, Action.runIn_bind_error (Action.runIn_ofExcept _)] at h
      cases h
      exact .inl rfl
    | ok T =>
      rw [hT, Action.runIn_bind_ok (Action.runIn_ofExcept _)] at h
      rcases Action.runIn_bind_eq_error.1 h with h | ⟨entity, w₂, hstore, h⟩
      -- what is left to do to store the entity was checked when the input was read
      · have hfails := store_failsBySql hparse T _ e w' h
        rw [hfails] at hsql
        cases hsql
      -- the entity is stored, and the arguments below its field are read only now
      · have hquiet := Action.keeps_of_runIn
          (AcrossReads.quiet.withRelations sv m entity selection) h
        refine .inr ⟨not_loadsNothing h,
          changes, T, entity, _, w₂, hparse, hT, ?_, hstore, h, hquiet.1⟩
        rfl

/-- A root field that is rejected has changed nothing, unless it is a creation that stored its
entity and then failed at the relations that its answer asks for: these are loaded after the entity
is stored, and their arguments are only looked at then. -/
theorem rejected_mutations (sv : Service) (c : RootCall) {e : Error} {w w' : World}
    (h : (sv.call c).runIn w = (.error e, w')) (hsql : e.isSql = false) :
    w'.store = w.store ∨ ∃ m input, c.field = .create m ∧
      inputArg c.selection.args c.input = .ok input ∧ ¬ sv.LoadsNothing m c.selection ∧
      sv.StoredUnloaded m input c.selection e w w' := by
  obtain ⟨caller, field, input, selection⟩ := c
  cases field with
  | all m options =>
    left
    unfold call resolveRoot at h
    dsimp only at h
    split_ifs at h
    · exact (Action.keeps_of_runIn (AcrossReads.quiet.listPaged sv caller m selection) h).1
    · exact (Action.keeps_of_runIn (AcrossReads.quiet.list sv caller m selection) h).1
  | view m => exact .inl (Action.keeps_of_runIn (AcrossReads.quiet.view sv caller m selection) h).1
  | create m =>
    unfold call resolveRoot at h
    cases hinput : inputArg selection.args input with
    | error e' =>
      rw [hinput, Action.runIn_bind_error (Action.runIn_ofExcept _)] at h
      cases h
      exact .inl rfl
    | ok l =>
      rw [hinput, Action.runIn_bind_ok (Action.runIn_ofExcept _)] at h
      rcases create_rejected h hsql with hstore | ⟨hloads, hstored⟩
      · exact .inl hstore
      · exact .inr ⟨m, l, rfl, rfl, hloads, hstored⟩
  | update m =>
    have hatomic : Atomic (sv.call ⟨caller, .update m, input, selection⟩) :=
      Atomic.ofExcept_bind fun id _ => Atomic.ofExcept_bind fun l _ =>
        Atomic.then_pure (update_atomic sv caller m id l) _
    exact .inl (hatomic w e w' h hsql)
  | delete m =>
    have hatomic : Atomic (sv.call ⟨caller, .delete m, input, selection⟩) :=
      Atomic.ofExcept_bind fun id _ => Atomic.then_pure (delete_atomic sv caller m id) _
    exact .inl (hatomic w e w' h hsql)

/-- A service that may change everything about authors and filter their books. -/
def authorship : Service :=
  Sample.Shelf.service Sample.Shelf.filterableCatalog Sample.Shelf.author Policy.allowAll

/-- An update of something that authors do not have. -/
def ageAnnie : RootCall :=
  ⟨none, .update Sample.Shelf.author, "author",
    ⟨"updateAuthor", "updateAuthor", [("id", .int 1), ("author", .object [("age", .int 36)])], []⟩⟩

theorem rejected_ageAnnie : ∃ e w', e.isSql = false ∧
    (authorship.call ageAnnie).runIn ⟨Sample.Shelf.store, []⟩ = (.error e, w') ∧
    w'.store = Sample.Shelf.store := by
  have hfails : (authorship.call ageAnnie).failsWith ⟨Sample.Shelf.store, []⟩
      (!·.isSql) = true := by decide +kernel
  obtain ⟨e, hsql, hrun⟩ := Action.exists_of_failsWith hfails
  rw [Bool.not_eq_true'] at hsql
  rcases rejected_mutations authorship ageAnnie hrun hsql with hstore | ⟨m, input, hfield, -⟩
  · exact ⟨e, _, hsql, hrun, hstore⟩
  · cases hfield

/-- The creation of an author whose books are asked for by a filter without an operator. -/
def createTroy : RootCall :=
  ⟨none, .create Sample.Shelf.author, "author",
    ⟨"createAuthor", "createAuthor", [("author", .object [("name", .string "Troy")])],
      [⟨"books", "books", [("filter", .object [("title", .object [])])],
        [⟨"title", "title", [], []⟩]⟩]⟩⟩

/-- The creation is rejected for its filter, but the author is stored. -/
theorem createTroy_rejected_and_stored : ∃ e w', e.code = "INVALID_FILTER" ∧
    (authorship.call createTroy).runIn ⟨Sample.Shelf.store, []⟩ = (.error e, w') ∧
    ((Sample.Shelf.store.table "authors").toOption.map (·.rows.length)) = some 2 ∧
    (w'.store.table "authors").toOption.map (·.rows.length) = some 3 := by
  have hfails : (authorship.call createTroy).failsWith ⟨Sample.Shelf.store, []⟩
      (·.code = "INVALID_FILTER") = true := by decide +kernel
  obtain ⟨e, hcode, hrun⟩ := Action.exists_of_failsWith hfails
  exact ⟨e, _, decide_eq_true_iff.1 hcode, hrun, by decide, by decide +kernel⟩

end Service

end EntityGraph
