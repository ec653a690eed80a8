import EntityGraph.Proofs.Faults.Resolvers
import EntityGraph.Proofs.TypeGraph.Roots
import EntityGraph.Resolve.Roots

/-!
# Faults in root fields

A root field answers entities of its model, or whether something was changed, and finds no other
faults than the known ones.

* `Service.Serves` is what the resolver of a root field relies on;
* `Service.ends_resolveRoot` is the result, one case for each kind of root field.
-/

namespace EntityGraph

namespace Service

/-- What a root field relies on: its model is among those with known faults, it has an object, and
inputs can set its properties if the field takes one. -/
structure Serves (sv : Service) (S : ModelId → Prop) (f : RootField) : Prop where
  model : S f.model
  object : ∃ n, sv.graph.object f.model = .ok n
  input : (∃ m, f = .create m ∨ f = .update m) → Changes.Settable sv.catalog f.model

variable {sv : Service} {S : ModelId → Prop} {known : Error → Prop}
  {stands : ModelId → Entity → Prop} {caller : Caller} {m : ModelId} {t : Selection}

theorem ends_idArg (args : List (String × Literal)) : Ends known (idArg args) fun _ => True := by
  unfold idArg
  split
  · exact .elim rfl fun _ _ => trivial
  · exact .ordinary rfl
  · exact .ordinary rfl

theorem ends_inputArg (args : List (String × Literal)) (name : String) :
    Ends known (inputArg args name) fun _ => True :=
  .elim rfl fun _ _ => trivial

section Persist

variable {T : String} (id : Int64)

theorem ends_syncHolders (key : String) (targets : List Int64) :
    Action.Ends known (Persist.syncHolders T key id targets) fun _ => True := by
  refine .bind (.update _) fun _ _ => ?_
  split_ifs
  · exact .pure trivial
  · exact .bind (.update _) fun _ _ => .pure trivial

theorem ends_sync (r : Relation) (targets : List Int64) :
    Action.Ends known (Persist.sync r id targets) fun _ => True := by
  unfold Persist.sync
  cases r.link with
  | belongsTo key => exact .throw rfl
  | hasOne key => exact ends_syncHolders id key targets
  | hasMany key => exact ends_syncHolders id key targets
  | belongsToMany pivot ownerKey relatedKey =>
    refine .bind (.query _) fun _ _ => .bind (.delete _) fun _ _ => ?_
    dsimp only
    split_ifs
    · exact .pure trivial
    · exact .bind (.insert _) fun _ _ => .pure trivial

theorem ends_syncAll (relations : List (Relation × List Int64)) :
    Action.Ends known (syncAll id relations) fun _ => True :=
  .forM fun link _ => ends_sync id link.1 link.2

theorem ends_find : Action.Ends known (Persist.find m T id) fun found =>
    ∀ e, found = some e → ∃ record, e = .of m record :=
  .bind (.query _) fun _ _ => .pure fun _ he =>
    (List.mem_map.1 (List.mem_of_head? he)).imp fun _ h => h.2.symm

theorem ends_store (changes : Changes) :
    Action.Ends known (store m T changes) fun e => ∃ record, e = .of m record := by
  have hinsert : Action.Ends known (Persist.insert T changes.attributes) fun _ => True := by
    refine .bind (.insert _) fun keys _ => ?_
    cases keys with
    | nil => exact .throw rfl
    | cons key rest => exact .pure trivial
  refine .bind (.record _) fun _ _ => .bind hinsert fun id _ => .bind (ends_syncAll id _)
    fun _ _ => .bind (ends_find id) fun found hfound => ?_
  cases found with
  | none => exact .throw rfl
  | some e => exact .bind (.record _) fun _ _ => .pure (hfound e rfl)

end Persist

variable (h : sv.graph.Covers sv.catalog S known)

section Changing

variable (hm : S m)

include h hm

theorem ends_tableQuery : Ends known (sv.tableQuery m) fun _ => True :=
  (Catalog.ends_table h.catalog hm).bind fun _ _ _ => .pure trivial

theorem ends_update (hset : Changes.Settable sv.catalog m) (id : Int64) (input : Literal) :
    Action.Ends known (sv.update caller m id input) fun _ => True := by
  have hwrite : ∀ T changes, Action.Ends known (Persist.update T id changes) fun _ => True := by
    intro T changes
    unfold Persist.update
    split_ifs
    · exact .pure trivial
    · exact .update _
  refine .ofExcept_bind (Catalog.ends_table h.catalog hm) fun T _ _ =>
    .bind (ends_find id) fun found _ => ?_
  cases found with
  | none => exact .pure trivial
  | some e =>
    refine .bind (.require _ _ _) fun _ _ =>
      .ofExcept_bind (Changes.ends_parse h.catalog hm hset false input) fun changes _ _ =>
      .bind (.record _) fun _ _ => .bind (hwrite T changes.attributes) fun _ _ =>
      .bind (ends_syncAll id _) fun _ _ => .bind (ends_find id) fun updated _ => ?_
    cases updated with
    | none => exact .pure trivial
    | some updated => exact .bind (.record _) fun _ _ => .pure trivial

theorem ends_delete (id : Int64) : Action.Ends known (sv.delete caller m id) fun _ => True := by
  refine .ofExcept_bind (Catalog.ends_table h.catalog hm) fun T _ _ =>
    .bind (ends_find id) fun found _ => ?_
  cases found with
  | none => exact .pure trivial
  | some e =>
    exact .bind (.require _ _ _) fun _ _ => .bind (.record _) fun _ _ =>
      .bind (.delete _) fun _ _ => .bind (.record _) fun _ _ => .pure trivial

end Changing

section Showing

variable (hstands : sv.catalog.Standing S known stands) (hm : S m)
  (ht : t.Each (Selection.Readable sv.catalog known))

include h hstands hm ht

theorem ends_listPaged :
    Action.Ends known (sv.listPaged caller m t) (Shown (FieldValue.At stands m)) :=
  .bind (.require _ _ _) fun _ _ =>
    .ofExcept_bind (ListArgs.ends_parse h.catalog hm t.args (ht.field.parse m)) fun _ _ hargs =>
    .ofExcept_bind (ends_tableQuery h hm) fun q _ _ =>
    .bind (ends_paginate h hstands hm (hargs.sorts h.catalog hm hm (.inr rfl)) (.inr ⟨q, rfl⟩)
      fun _ hq => nomatch hq) fun _ hp => .pure (shown_some (.paginator hp))

variable (hobject : ∃ n, sv.graph.object m = .ok n)

include hobject

theorem ends_list : Action.Ends known (sv.list caller m t) (Shown (FieldValue.At stands m)) :=
  .ofExcept_bind (ListArgs.ends_parse h.catalog hm t.args (ht.field.parse m)) fun _ _ hargs =>
    .ofExcept_bind (ends_tableQuery h hm) fun q _ _ =>
    .bind (ends_paginate h hstands hm (hargs.sorts h.catalog hm hm (.inr rfl)) (.inr ⟨q, rfl⟩)
      fun _ hq => nomatch hq) fun _ hp =>
    .bind (Paginator.ends_get hp) fun _ hentities =>
    .bind (ends_eagerLoad h hstands hm hobject hentities
      (List.forall_mem_singleton.2 (ht.upTo _ t))) fun _ hloaded => ends_showMany hloaded

theorem ends_withRelations {e : Entity} (he : stands m e) :
    Action.Ends known (sv.withRelations m e t) (Shown (FieldValue.At stands m)) :=
  .bind (ends_eagerLoad h hstands hm hobject (List.forall_mem_singleton.2 he)
    (List.forall_mem_singleton.2 (ht.upTo _ t))) fun loaded hloaded =>
    .pure fun v hv => by
      obtain ⟨e, he, rfl⟩ := Option.map_eq_some_iff.1 hv
      exact .entity (hloaded e (List.mem_of_head? he))

theorem ends_view : Action.Ends known (sv.view caller m t) (Shown (FieldValue.At stands m)) := by
  refine .ofExcept_bind (ends_idArg t.args) fun id _ _ =>
    .ofExcept_bind (Catalog.ends_table h.catalog hm) fun T _ _ =>
    .bind (ends_find id) fun found hfound => ?_
  cases found with
  | none => exact .pure shown_none
  | some e =>
    obtain ⟨record, rfl⟩ := hfound e rfl
    exact .bind (.require _ _ _) fun _ _ =>
      ends_withRelations h hstands hm ht hobject (hstands.fresh hm record)

theorem ends_create (hset : Changes.Settable sv.catalog m) (input : Literal) :
    Action.Ends known (sv.create caller m input t) (Shown (FieldValue.At stands m)) :=
  .bind (.require _ _ _) fun _ _ =>
    .ofExcept_bind (Changes.ends_parse h.catalog hm hset true input) fun changes _ _ =>
    .ofExcept_bind (Catalog.ends_table h.catalog hm) fun _ _ _ =>
    .bind (ends_store changes) fun _ ⟨record, heq⟩ =>
      ends_withRelations h hstands hm ht hobject (heq ▸ hstands.fresh hm record)

end Showing

include h

/-- A root field finds no other faults, and what it answers may stand for its model. -/
theorem ends_resolveRoot (hstands : sv.catalog.Standing S known stands) {f : RootField}
    (hf : sv.Serves S f) (input : String) (ht : t.Each (Selection.Readable sv.catalog known)) :
    Action.Ends known (sv.resolveRoot caller f input t)
      (Shown (FieldValue.Answers stands (f.key?.map (·.model)))) := by
  obtain ⟨hm, hobject, hset⟩ := hf
  cases f with
  | all m options =>
    unfold resolveRoot
    dsimp only
    split_ifs
    · exact ends_listPaged h hstands hm ht
    · exact ends_list h hstands hm ht hobject
  | view m => exact ends_view h hstands hm ht hobject
  | create m =>
    exact .ofExcept_bind (ends_inputArg t.args input) fun l _ _ =>
      ends_create h hstands hm ht hobject (hset ⟨m, .inl rfl⟩) l
  | update m =>
    exact .ofExcept_bind (ends_idArg t.args) fun id _ _ =>
      .ofExcept_bind (ends_inputArg t.args input) fun l _ _ =>
      .bind (ends_update h hm (hset ⟨m, .inr rfl⟩) id l) fun _ _ =>
        .pure (shown_some ⟨_, rfl⟩)
  | delete m =>
    exact .ofExcept_bind (ends_idArg t.args) fun id _ _ =>
      .bind (ends_delete h hm id) fun _ _ => .pure (shown_some ⟨_, rfl⟩)

end Service

end EntityGraph
