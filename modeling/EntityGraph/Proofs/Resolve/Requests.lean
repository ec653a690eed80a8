import EntityGraph.Proofs.Access.Selections

/-!
# Filters of whole requests

The law of selections holds along every request: whatever it asks for, and whatever the policy
answers, each selection is restricted by at most one filter, which was allowed before or belongs to
a relation that is loaded ahead.

* `Service.tells_resolveField` and `Service.tells_resolveRoot` are the steps, one case for each kind
  of field;
* `Interface.tells_resolve` is the run, by induction on what is selected;
* `Interface.requests_vetted` is the result.
-/

namespace EntityGraph

namespace Service

variable {sv : Service} {caller : Caller} {top : List Selection} {seen : List LogEntry}
  {m : ModelId} {t : Selection}

section Fields

variable {f : FieldNode} {target : ModelId} {e : Entity}

theorem tells_loadOne (e : Entity) (property : String) (target : ModelId) :
    sv.Tells caller top seen (sv.loadOne e property target) fun _ _ => True := by
  refine Action.Logs.ofExcept_bind fun r hr => ?_
  cases hq : r.query e with
  | none => exact Action.Logs.pure trivial
  | some q =>
    have hselects : sv.Selects sv.Base (sv.Vetted caller seen) q.toSelect :=
      selects_of_base (.related hr hq)
    exact Action.Logs.bind (tells_query (.inl (hselects.congr rfl rfl))) fun _ _ _ =>
      Action.Logs.pure trivial

theorem tells_loadMany {args : ListArgs} (property : String) (hargs : ∀ r,
    sv.catalog.relation e.model property = .ok r → sv.MayLoad caller top seen args r.target) :
    sv.Tells caller top seen (sv.loadMany e property args) fun _ _ => True := by
  refine Action.Logs.bind (tells_load _ hargs) fun _ _ _ => ?_
  split <;> exact Action.Logs.pure trivial

theorem tells_resolveScalar :
    sv.Tells caller top seen (sv.resolveScalar caller f e) (sv.Yields caller) :=
  Action.Logs.bind (Action.Logs.require _ _ _) fun _ _ _ =>
    Action.Logs.ofExcept_bind fun _ _ => Action.Logs.pure (yields_some (.literal _))

/-- A target that was found is shown if the caller may view it. -/
theorem tells_showOne (related : Option Entity) : sv.Tells caller top seen (do
    match related with
    | none => return none
    | some related =>
      sv.guard.requireView caller related
      return some (.entity related)) (sv.Yields caller) := by
  cases related with
  | none => exact Action.Logs.pure yields_none
  | some related =>
    exact Action.Logs.bind (Action.Logs.require _ _ _) fun _ _ _ =>
      Action.Logs.pure (yields_some (.entity related))

theorem tells_resolveToOne :
    sv.Tells caller top seen (sv.resolveToOne caller f target e) (sv.Yields caller) := by
  refine Action.Logs.bind (Action.Logs.require _ _ _) fun more _ _ => ?_
  split
  · exact Action.Logs.bind (P := fun _ _ => True) (Action.Logs.pure trivial) fun _ related _ =>
      tells_showOne related
  · exact Action.Logs.bind (tells_loadOne e f.name target) fun _ related _ =>
      tells_showOne related

theorem tells_showMany (related : List Entity) : sv.Tells caller top seen (do
    return some (.entities (← sv.guard.viewable caller related))) (sv.Yields caller) :=
  Action.Logs.bind (Action.Logs.viewable _ _ related) fun _ es _ =>
    Action.Logs.pure (yields_some (FieldValue.of_entities es))

/-- Whether the targets were loaded ahead or not, no selection is left that may not be run. -/
theorem tells_findMany {listArgs : ListArgs} (property : String) (hargs : ∀ r,
      sv.catalog.relation e.model property = .ok r →
        sv.MayLoad caller top seen listArgs r.target) :
    sv.Tells caller top seen (do
      let related ← match e.relationWith property listArgs with
        | some (.many loaded) => pure loaded
        | _ => sv.loadMany e property listArgs
      return some (.entities (← sv.guard.viewable caller related))) (sv.Yields caller) := by
  split
  · exact Action.Logs.bind (P := fun _ _ => True) (Action.Logs.pure trivial) fun _ related _ =>
      tells_showMany related
  · exact Action.Logs.bind (tells_loadMany property hargs) fun _ related _ =>
      tells_showMany related

/-- A list of targets is loaded for its own field only after its filter was allowed. -/
theorem tells_resolveToMany (hf : f.shape = .toMany target) (args : List (String × Literal)) :
    sv.Tells caller top seen (sv.resolveToMany caller f target e args) (sv.Yields caller) := by
  refine Action.Logs.bind (Action.Logs.require _ _ _) fun more _ _ =>
    Action.Logs.ofExcept_bind fun listArgs hargs => ?_
  cases hfilter : listArgs.filter with
  | none =>
    refine tells_findMany f.name fun r _ => .inl fun g hg => ?_
    rw [hfilter] at hg
    cases hg
  | some g =>
    obtain ⟨l, hparse⟩ := ListArgs.exists_parse_filter hargs hfilter
    refine Action.Logs.bind (tells_requireFilter hparse) fun more' _ hvetted => ?_
    refine tells_findMany f.name fun r hr => .inl fun g' hg' => ?_
    obtain rfl : g = g' := Option.some.inj (hfilter.symm.trans hg')
    exact hvetted r.target (.inr ⟨f, e.model, r, hf, hr, rfl⟩)

theorem tells_resolveConnection (args : List (String × Literal)) :
    sv.Tells caller top seen (sv.resolveConnection caller f target e args)
      (sv.Yields caller) := by
  refine Action.Logs.bind (Action.Logs.require _ _ _) fun more _ _ =>
    Action.Logs.ofExcept_bind fun listArgs hargs => Action.Logs.ofExcept_bind fun r hr => ?_
  refine Action.Logs.bind (tells_paginate (fun q hq => ?_) hargs) fun more p hp => ?_
  · cases hrelated : r.query e with
    | none =>
      rw [hrelated] at hq
      cases hq
    | some q' =>
      rw [hrelated] at hq
      cases hq
      exact .related hr hrelated
  · split
    · exact Action.Logs.pure (yields_some (.paginator fun q hq => hp q hq))
    · exact Action.Logs.pure (yields_some (.paginator hp))

section Below

variable {p : Paginator} (hp : sv.Ready caller seen p)

include hp

theorem tells_resolveTotalCount :
    sv.Tells caller top seen (sv.resolveTotalCount caller p) (sv.Yields caller) :=
  Action.Logs.bind (Action.Logs.require _ _ _) fun _ _ _ =>
    Action.Logs.bind (tells_count hp.append) fun _ _ _ =>
      Action.Logs.pure (yields_some (.literal _))

theorem tells_resolveEdges (ht : Selection.Inside top t) :
    sv.Tells caller top seen (sv.resolveEdges caller target p t) (sv.Yields caller) := by
  refine Action.Logs.bind (Action.Logs.require _ _ _) fun more _ _ =>
    Action.Logs.bind (tells_get hp.append) fun more' entries _ => ?_
  split_ifs
  · exact Action.Logs.pure (yields_some (FieldValue.of_entities entries))
  · exact Action.Logs.bind (tells_eagerLoad target entries ht (.inr rfl)) fun _ es _ =>
      Action.Logs.pure (yields_some (FieldValue.of_entities es))

end Below

/-- Every generated field keeps the law, whatever its parent is. -/
theorem tells_resolveField (f : FieldNode) {parent : FieldValue}
    (hparent : parent.Of (sv.Ready caller seen)) (ht : Selection.Inside top t) :
    sv.Tells caller top seen (sv.resolveField caller f parent t) (sv.Yields caller) := by
  have hpaginator : ∀ p, paginatorParent f.name parent = .ok p → sv.Ready caller seen p := by
    intro p h
    cases hparent with
    | paginator hp =>
      cases h
      exact hp
    | _ => cases h
  unfold resolveField
  cases hf : f.shape with
  | scalar kind => exact Action.Logs.ofExcept_bind fun e _ => tells_resolveScalar
  | toOne target => exact Action.Logs.ofExcept_bind fun e _ => tells_resolveToOne
  | toMany target => exact Action.Logs.ofExcept_bind fun e _ => tells_resolveToMany hf t.args
  | connection target =>
    exact Action.Logs.ofExcept_bind fun e _ => tells_resolveConnection t.args
  | totalCount =>
    exact Action.Logs.ofExcept_bind fun p h => tells_resolveTotalCount (hpaginator p h)
  | edges target =>
    exact Action.Logs.ofExcept_bind fun p h => tells_resolveEdges (hpaginator p h) ht
  | node target =>
    exact Action.Logs.ofExcept_bind fun e _ => Action.Logs.pure (yields_some (.entity e))
  | input => exact Action.Logs.throw _

end Fields

section Roots

theorem tells_listPaged (m : ModelId) (t : Selection) :
    sv.Tells caller top seen (sv.listPaged caller m t) (sv.Yields caller) := by
  refine Action.Logs.bind (Action.Logs.require _ _ _) fun more _ _ =>
    Action.Logs.ofExcept_bind fun args hargs => Action.Logs.ofExcept_bind fun q hq => ?_
  obtain ⟨T, hT, hq⟩ := bind_eq_ok.1 hq
  obtain rfl := pure_eq_ok.1 hq
  refine Action.Logs.bind (tells_paginate (fun q hq => ?_) hargs) fun _ p hp =>
    Action.Logs.pure (yields_some (.paginator hp))
  cases hq
  exact .table hT

theorem tells_list (m : ModelId) (ht : Selection.Inside top t) :
    sv.Tells caller top seen (sv.list caller m t) (sv.Yields caller) := by
  refine Action.Logs.ofExcept_bind fun args hargs => Action.Logs.ofExcept_bind fun q hq => ?_
  obtain ⟨T, hT, hq⟩ := bind_eq_ok.1 hq
  obtain rfl := pure_eq_ok.1 hq
  refine Action.Logs.bind (tells_paginate (fun q hq => ?_) hargs) fun more p hp => ?_
  · cases hq
    exact .table hT
  refine Action.Logs.bind (tells_get hp) fun _ entities _ =>
    Action.Logs.bind (tells_eagerLoad m entities ht (.inl rfl)) fun _ entities _ => ?_
  exact Action.Logs.bind (Action.Logs.viewable _ _ entities) fun _ es _ =>
    Action.Logs.pure (yields_some (FieldValue.of_entities es))

theorem tells_view (m : ModelId) (ht : Selection.Inside top t) :
    sv.Tells caller top seen (sv.view caller m t) (sv.Yields caller) := by
  refine Action.Logs.ofExcept_bind fun id _ => Action.Logs.ofExcept_bind fun T hT =>
    Action.Logs.bind (tells_find hT id) fun more found _ => ?_
  cases found with
  | none => exact Action.Logs.pure yields_none
  | some e =>
    exact Action.Logs.bind (Action.Logs.require _ _ _) fun _ _ _ =>
      (tells_withRelations m e ht).mono fun _ _ => yields_of_entity

section Changes

variable {changes : Changes} {input : Literal} {skipNulls : Bool}

theorem tells_syncHolders (T key : String) (owner : Int64) (targets : List Int64) :
    sv.Tells caller top seen (Persist.syncHolders T key owner targets) fun _ _ => True := by
  refine Action.Logs.bind (Action.Logs.update _) fun _ _ _ => ?_
  split_ifs
  · exact Action.Logs.pure trivial
  · exact Action.Logs.bind (Action.Logs.update _) fun _ _ _ => Action.Logs.pure trivial

theorem tells_sync {property : String} {r : Relation}
    (hr : sv.catalog.relation m property = .ok r) (owner : Int64) (targets : List Int64) :
    sv.Tells caller top seen (Persist.sync r owner targets) fun _ _ => True := by
  unfold Persist.sync
  cases hlink : r.link with
  | belongsTo key => exact Action.Logs.throw _
  | hasOne key => exact tells_syncHolders _ key owner targets
  | hasMany key => exact tells_syncHolders _ key owner targets
  | belongsToMany pivot ownerKey relatedKey =>
    have hkey : Column.of pivot ownerKey ∈ r.keyColumns := by
      simp [Relation.keyColumns, hlink]
    have hpairs : sv.Tells caller top seen (Action.query (Store.pairsQuery pivot ownerKey owner))
        fun _ _ => True := tells_query (.inl (selects_of_base (.paired owner hr hkey)))
    refine Action.Logs.bind hpairs fun _ _ _ => Action.Logs.bind (Action.Logs.delete _)
      fun _ _ _ => ?_
    dsimp only
    split_ifs
    · exact Action.Logs.pure trivial
    · exact Action.Logs.bind (Action.Logs.insert _) fun _ _ _ => Action.Logs.pure trivial

theorem tells_syncAll (h : Changes.parse sv.catalog m skipNulls input = .ok changes) (id : Int64) :
    sv.Tells caller top seen (syncAll id changes.relations) fun _ _ => True := by
  refine (Action.Logs.forM (R := fun _ _ => True) (fun _ _ _ _ => trivial)
    fun more link hlink => ?_).mono fun _ _ _ => trivial
  obtain ⟨entry, -, p, target, -, -, hr, -⟩ := Changes.parse_links h link hlink
  exact tells_sync hr id link.2

theorem tells_store {T : String} (hT : sv.catalog.table m = .ok T)
    (h : Changes.parse sv.catalog m skipNulls input = .ok changes) :
    sv.Tells caller top seen (store m T changes) fun _ _ => True := by
  refine Action.Logs.bind (Action.Logs.record rfl) fun _ _ _ => ?_
  have hinsert : ∀ seen, sv.Tells caller top seen (Persist.insert T changes.attributes)
      fun _ _ => True := by
    intro seen
    refine Action.Logs.bind (Action.Logs.insert _) fun _ keys _ => ?_
    cases keys with
    | nil => exact Action.Logs.throw _
    | cons key keys => exact Action.Logs.pure trivial
  refine Action.Logs.bind (hinsert _) fun _ id _ => Action.Logs.bind (tells_syncAll h id)
    fun _ _ _ => Action.Logs.bind (tells_find hT id) fun _ found _ => ?_
  cases found with
  | none => exact Action.Logs.throw _
  | some e => exact Action.Logs.bind (Action.Logs.record rfl) fun _ _ _ => Action.Logs.pure trivial

theorem tells_create (m : ModelId) (input : Literal) (ht : Selection.Inside top t) :
    sv.Tells caller top seen (sv.create caller m input t) (sv.Yields caller) :=
  Action.Logs.bind (Action.Logs.require _ _ _) fun _ _ _ =>
    Action.Logs.ofExcept_bind fun _ hparse => Action.Logs.ofExcept_bind fun _ hT =>
      Action.Logs.bind (tells_store hT hparse) fun _ e _ =>
        (tells_withRelations m e ht).mono fun _ _ => yields_of_entity

theorem tells_update (m : ModelId) (id : Int64) (input : Literal) :
    sv.Tells caller top seen (sv.update caller m id input) fun _ _ => True := by
  refine Action.Logs.ofExcept_bind fun T hT =>
    Action.Logs.bind (tells_find hT id) fun _ found _ => ?_
  cases found with
  | none => exact Action.Logs.pure trivial
  | some e =>
    have hwrite : ∀ seen changes, sv.Tells caller top seen (Persist.update T id changes)
        fun _ _ => True := by
      intro seen changes
      unfold Persist.update
      split_ifs
      · exact Action.Logs.pure trivial
      · exact Action.Logs.update _
    refine Action.Logs.bind (Action.Logs.require _ _ _) fun _ _ _ =>
      Action.Logs.ofExcept_bind fun changes hparse =>
      Action.Logs.bind (Action.Logs.record rfl) fun _ _ _ =>
      Action.Logs.bind (hwrite _ changes.attributes) fun _ _ _ =>
      Action.Logs.bind (tells_syncAll hparse id) fun _ _ _ =>
      Action.Logs.bind (tells_find hT id) fun _ found _ => ?_
    cases found with
    | none => exact Action.Logs.pure trivial
    | some updated =>
      exact Action.Logs.bind (Action.Logs.record rfl) fun _ _ _ => Action.Logs.pure trivial

theorem tells_delete (m : ModelId) (id : Int64) :
    sv.Tells caller top seen (sv.delete caller m id) fun _ _ => True := by
  refine Action.Logs.ofExcept_bind fun T hT =>
    Action.Logs.bind (tells_find hT id) fun _ found _ => ?_
  cases found with
  | none => exact Action.Logs.pure trivial
  | some e =>
    exact Action.Logs.bind (Action.Logs.require _ _ _) fun _ _ _ =>
      Action.Logs.bind (Action.Logs.record rfl) fun _ _ _ =>
      Action.Logs.bind (Action.Logs.delete _) fun _ _ _ =>
      Action.Logs.bind (Action.Logs.record rfl) fun _ _ _ => Action.Logs.pure trivial

end Changes

/-- Every root field keeps the law. -/
theorem tells_resolveRoot (f : RootField) (input : String) (ht : Selection.Inside top t) :
    sv.Tells caller top seen (sv.resolveRoot caller f input t) (sv.Yields caller) := by
  cases f with
  | all m options =>
    unfold resolveRoot
    dsimp only
    split_ifs
    · exact tells_listPaged m t
    · exact tells_list m ht
  | view m => exact tells_view m ht
  | create m => exact Action.Logs.ofExcept_bind fun l _ => tells_create m l ht
  | update m =>
    exact Action.Logs.ofExcept_bind fun id _ => Action.Logs.ofExcept_bind fun l _ =>
      Action.Logs.bind (tells_update m id l) fun _ _ _ =>
        Action.Logs.pure (yields_some (.literal _))
  | delete m =>
    exact Action.Logs.ofExcept_bind fun id _ => Action.Logs.bind (tells_delete m id) fun _ _ _ =>
      Action.Logs.pure (yields_some (.literal _))

end Roots

end Service

namespace Interface

open Execution Service

variable {i : Interface} {caller : Caller} {top : List Selection} {seen : List LogEntry}

/-- The value of every field keeps the law, be it generated, a root field or a constant. -/
theorem tells_valueOf (f : SchemaField) {parent : FieldValue} {t : Selection}
    (hparent : parent.Of (i.service.Ready caller seen)) (ht : Selection.Inside top t) :
    i.service.Tells caller top seen (i.valueOf caller f parent t)
      (i.service.Yields caller) := by
  unfold valueOf
  cases f.resolver with
  | generated node => exact Service.tells_resolveField node hparent ht
  | root field input => exact tells_resolveRoot field input ht
  | constant answer => exact Action.Logs.pure (yields_some (.literal _))

section Completing

variable {object : ObjectStep} (hobject : ∀ seen type fields value,
  FieldValue.Of (i.service.Ready caller seen) value →
    Execution.Logs (i.service.MaySelect caller top) seen (object type fields value)
      fun _ _ => True)

include hobject

theorem tells_completeNamed (type : String) {value : FieldValue}
    (hvalue : value.Of (i.service.Ready caller seen)) :
    Completion.Logs (i.service.MaySelect caller top) seen
      (completeNamed i.schema object type value) fun _ _ => True := by
  unfold completeNamed
  split
  · exact Completion.Logs.lift (hobject _ _ _ _ hvalue)
  · split_ifs
    · exact Completion.Logs.throw _
    · exact Completion.Logs.pure trivial
  · exact Completion.Logs.throw _

/-- By induction on the type: the items of a list are completed one after the other, each in view of
what those before it have logged. -/
theorem tells_complete (type : TypeRef) {v : Option FieldValue}
    (hv : i.service.Yields caller seen v) :
    Completion.Logs (i.service.MaySelect caller top) seen (complete i.schema object type v)
      fun _ _ => True := by
  induction type generalizing v seen with
  | named type =>
    cases v with
    | none => exact Completion.Logs.pure trivial
    | some value => exact tells_completeNamed hobject type (hv value rfl)
  | nonNull type ih =>
    cases v with
    | none => exact Completion.Logs.throw _
    | some value => exact ih hv
  | list item ih =>
    cases v with
    | none => exact Completion.Logs.pure trivial
    | some value =>
      rw [complete]
      cases hitems : value.items? with
      | none => exact Completion.Logs.throw _
      | some items =>
        have hready := FieldValue.of_items? (hv value rfl) hitems
        refine Completion.Logs.bind (Completion.Logs.mapM fun more x hx => ?_) fun _ _ _ =>
          Completion.Logs.pure trivial
        exact ih (yields_some ((hready x hx).mono fun _ hp => hp.append))

end Completing

mutual

/-- A selected field keeps the law with everything below it. -/
theorem tells_resolveField : ∀ (s : Selection) (seen : List LogEntry) (type : String)
    (fields : List SchemaField) (parent : FieldValue) (done : List (String × Literal)),
    Selection.Inside top s → parent.Of (i.service.Ready caller seen) →
    Execution.Logs (i.service.MaySelect caller top) seen
      (i.resolveField caller type fields parent done s) fun _ _ => True
  | .mk key name args children, seen, type, fields, parent, done, hs, hparent => by
    rw [resolveField]
    split_ifs
    · exact Execution.Logs.pure trivial
    · cases fields.find? (·.name == name) with
      | none => exact Execution.Logs.pure trivial
      | some f =>
        -- whichever objects the value holds, their fields are those selected below this one
        have hobject : ∀ (seen : List LogEntry) (type : String) (fields : List SchemaField)
            (value : FieldValue), value.Of (i.service.Ready caller seen) →
            Execution.Logs (i.service.MaySelect caller top) seen (do
              return objectLiteral (← i.resolve caller type fields value [] children))
              fun _ _ => True := by
          intro seen type fields value hvalue
          exact Execution.Logs.bind (tells_resolve children seen type fields value []
            (fun t ht => .child hs ht) hvalue) fun _ _ _ => Execution.Logs.pure trivial
        have hfield : Completion.Logs (i.service.MaySelect caller top) seen (do
            let value ← perform (i.valueOf caller f parent (.mk key name args children))
            complete i.schema (fun type fields parent => do
              return objectLiteral (← i.resolve caller type fields parent [] children))
              f.type value) fun _ _ => True :=
          Completion.Logs.bind (Completion.Logs.perform (tells_valueOf f hparent hs))
            fun _ _ hv => tells_complete hobject f.type hv
        refine Execution.Logs.bind hfield fun _ r _ => ?_
        cases r with
        | ok l => exact Execution.Logs.pure trivial
        | error e => exact Execution.Logs.bind (Execution.Logs.note e) fun _ _ _ =>
            Execution.Logs.pure trivial

/-- Selected fields keep the law, one after the other. -/
theorem tells_resolve : ∀ (l : List Selection) (seen : List LogEntry) (type : String)
    (fields : List SchemaField) (parent : FieldValue) (done : List (String × Literal)),
    (∀ s ∈ l, Selection.Inside top s) → parent.Of (i.service.Ready caller seen) →
    Execution.Logs (i.service.MaySelect caller top) seen
      (i.resolve caller type fields parent done l) fun _ _ => True
  | [], seen, type, fields, parent, done, hs, hparent => by
    rw [resolve]
    exact Execution.Logs.pure trivial
  | s :: rest, seen, type, fields, parent, done, hs, hparent => by
    rw [resolve]
    refine Execution.Logs.bind (tells_resolveField s seen type fields parent done
      (hs s List.mem_cons_self) hparent) fun more done' _ => ?_
    exact tells_resolve rest (seen ++ more) type fields parent done'
      (fun t ht => hs t (List.mem_cons_of_mem s ht)) (hparent.mono fun _ hp => hp.append)

end

/-- What a request logs keeps the law: each of its selections is one that a resolver needs by
itself, restricted by at most one filter, and that filter was either allowed earlier in the same
request, by the model and by every property that it looks at, or it belongs to a relation which is
loaded ahead. -/
theorem requests_vetted (i : Interface) (r : Request) (w : World) :
    ∃ entries, ((i.execute r).run w).2.log = w.log ++ entries ∧
      ∀ before e after s, entries = before ++ e :: after → e.selection? = some s →
        i.service.Selects i.service.Base (i.service.Vetted r.caller before) s ∨
          i.service.Selects i.service.Keyed (fun f _ => i.service.Planned r.selections f) s := by
  have hlogs : Logs (i.service.MaySelect r.caller r.selections) [] (i.execute r)
      fun _ _ => True := by
    unfold execute
    split
    · rename_i type fields _
      have hresolve : Execution.Logs (i.service.MaySelect r.caller r.selections) []
          (i.resolve r.caller type fields (.literal .null) [] r.selections) fun _ _ => True :=
        tells_resolve r.selections [] type fields (.literal .null) [] (fun _ hs => .top hs)
          (.literal _)
      exact Logs.bind (hresolve []) fun _ _ _ => Logs.pure trivial
    · exact Logs.pure trivial
  obtain ⟨x, s', more, hrun, hlawful, -⟩ := hlogs w.log w.store
  rw [List.append_nil, List.nil_append] at hrun
  have hrun' : (i.execute r).run w = (x, ⟨s', w.log ++ more⟩) := hrun
  refine ⟨more, by rw [hrun'], fun before e after s hsplit hs => ?_⟩
  have hmay := hlawful before e after s hsplit hs
  rw [List.nil_append] at hmay
  exact hmay

/-- An interface that shows an author of the shelf, under a policy by which nobody may filter by any
property. -/
def strict : Except SchemaFailure Interface :=
  SchemaConfig.interface { SchemaConfig.default with roots := [.view Sample.Shelf.author] }
    Sample.Shelf.filterableCatalog CustomParts.none
    (Policy.denying [⟨.filterProperty, none, none, none, none⟩])

/-- The request for the books of the first author that have a title. -/
def studies : Request :=
  ⟨false, none, [⟨"author", "author", [("id", .int 1)],
    [⟨"books", "books", [("filter", .object [("title", .object [("eq", .string "Studyology")])])],
      [⟨"title", "title", [], []⟩]⟩]⟩]⟩

/-- Whether an entry tells of a check to filter a model. -/
def isFilterCheck : LogEntry → Bool
  | .check _ c _ => c.ability == .filter
  | _ => false

/-- Whether the third entry of a log is a selection with two conditions, and no filter was checked
before. -/
def overtakes (log : List LogEntry) : Bool :=
  (log[2]?.bind LogEntry.selection?).any (·.filters.length == 2) &&
    (log.take 2).all (!isFilterCheck ·)

/-- Loading ahead overtakes the policy: the books of the author are selected by their title before
anyone was asked. -/
theorem not_requests_all_vetted :
    ¬ ∀ (i : Interface) (r : Request) (w : World) before e after s,
      ((i.execute r).run w).2.log = w.log ++ (before ++ e :: after) → e.selection? = some s →
        i.service.Selects i.service.Base (i.service.Vetted r.caller before) s := by
  intro h
  have hruns : (strict.toOption.any fun i =>
      overtakes ((i.execute studies).run ⟨Sample.Shelf.store, []⟩).2.log) = true := by
    decide +kernel
  obtain ⟨i, -, hi⟩ := (Option.any_eq_true _ _).1 hruns
  generalize hlog : ((i.execute studies).run ⟨Sample.Shelf.store, []⟩).2.log = log at hi
  obtain ⟨hselection, hbefore⟩ := Bool.and_eq_true_iff.1 hi
  obtain ⟨s, hs, hlength⟩ := (Option.any_eq_true _ _).1 hselection
  obtain ⟨e, he, hs⟩ := Option.bind_eq_some_iff.1 hs
  obtain ⟨hlt, rfl⟩ := List.getElem?_eq_some_iff.1 he
  have hsplit : log = log.take 2 ++ log[2] :: log.drop 3 := by
    rw [List.getElem_cons_drop, List.take_append_drop]
  obtain ⟨q, hbase, -, hfilters | ⟨f, m, clause, hvetted, -, -⟩⟩ :=
    h i studies ⟨Sample.Shelf.store, []⟩ _ _ _ s (hlog.trans hsplit) hs
  -- no resolver needs two conditions by itself, so one of them is a filter
  · have hle := hbase.length_filters_le
    rw [← hfilters, beq_iff_eq.1 hlength] at hle
    omega
  -- and whoever vetted it asked before
  · obtain ⟨declared, l, -, -, hmem, -⟩ := hvetted
    have hnot := List.all_eq_true.1 hbefore _ hmem
    cases hnot

end Interface

end EntityGraph
