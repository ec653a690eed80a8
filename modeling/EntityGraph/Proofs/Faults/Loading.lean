import EntityGraph.Proofs.Faults.Plans
import EntityGraph.Proofs.Relation.Shares

/-!
# Faults in loading

Loading goes from entities along relations to further entities. Their models are among those that
relations do not lead out of, and so are the models of what was loaded before.

* `Catalog.Standing` is a notion of the entities that may stand where one of a model is expected,
  together with what is loaded behind them;
* `Entity.Among` is such a notion, which does not tell models apart;
* `Loader.ends_loaded` says that loading finds no other faults and keeps to these entities, by way
  of one relation, one path and a list of paths.
-/

namespace EntityGraph

/-- Entities that may stand where an entity of a model is expected: entities of the model for one,
and with an entity those that are loaded behind its relations. Either they are all of the model, or
models are not told apart and internal errors do not matter. -/
structure Catalog.Standing (c : Catalog) (S : ModelId → Prop) (known : Error → Prop)
    (stands : ModelId → Entity → Prop) : Prop where
  model : ∀ {m e}, stands m e → S e.model
  fresh : ∀ {m}, S m → ∀ record, stands m (.of m record)
  load : ∀ {m property target e loaded}, stands m e → c.LeadsTo m property target →
    (∀ t ∈ loaded.toList, stands target t) → ∀ restrictions,
      stands m (.mk e.model e.attributes (e.relations.set property loaded) restrictions)
  behind : ∀ {m property target e loaded}, stands m e → c.LeadsTo m property target →
    e.relation property = some loaded → ∀ t ∈ loaded.toList, stands target t
  apart : (∀ m e, stands m e → e.model = m) ∨
    (∀ m m' e, stands m e → stands m' e) ∧ Tolerant known

/-- The models of an entity and of all that is loaded behind it are among some. -/
inductive Entity.Among (S : ModelId → Prop) : Entity → Prop where
  | mk {model : ModelId} {attributes : Record} {relations : Dict Loaded}
    {restrictions : Dict ListArgs} : S model →
    (∀ property loaded, relations.get? property = some loaded →
      ∀ e ∈ loaded.toList, Among S e) →
    Among S (.mk model attributes relations restrictions)

section

variable {c : Catalog} {S : ModelId → Prop} {known : Error → Prop}
  {stands : ModelId → Entity → Prop} {m : ModelId}

namespace Entity

variable {e : Entity} {property : String} {loaded : Loaded}

theorem Among.model (he : e.Among S) : S e.model := by
  cases he with
  | mk hm _ => exact hm

theorem Among.behind (he : e.Among S) (hloaded : e.relation property = some loaded) :
    ∀ t ∈ loaded.toList, t.Among S := by
  cases he with
  | mk _ hall => exact hall property loaded hloaded

/-- What was loaded under some restrictions was loaded. -/
theorem relation_of_relationWith {args : ListArgs}
    (h : e.relationWith property args = some loaded) : e.relation property = some loaded := by
  unfold relationWith at h
  dsimp only at h
  split_ifs at h
  exact h

theorem among_of (hm : S m) (record : Record) : (Entity.of m record).Among S :=
  .mk hm fun _ _ h => nomatch h

/-- A relation that is set, with whatever restrictions. -/
theorem Among.setLoaded (he : e.Among S) (hloaded : ∀ t ∈ loaded.toList, t.Among S)
    (restrictions : Dict ListArgs) :
    (Entity.mk e.model e.attributes (e.relations.set property loaded) restrictions).Among S := by
  refine .mk he.model fun other x hx => ?_
  rw [Dict.get?_set] at hx
  split_ifs at hx with heq
  · cases hx
    exact hloaded
  · exact he.behind hx

end Entity

namespace Catalog

/-- Models among some are not told apart. -/
theorem standing_among (ht : Tolerant known) : c.Standing S known fun _ => Entity.Among S where
  model he := he.model
  fresh hm record := Entity.among_of hm record
  load he _ hloaded := he.setLoaded hloaded
  behind he _ hloaded := he.behind hloaded
  apart := .inr ⟨fun _ _ _ he => he, ht⟩

variable (hstands : c.Standing S known stands)

include hstands

theorem Standing.ofRecords (hm : S m) (records : List Record) :
    ∀ e ∈ Entity.ofRecords m records, stands m e := by
  intro e he
  obtain ⟨record, -, rfl⟩ := List.mem_map.1 he
  exact hstands.fresh hm record

/-- A relation of the entity itself leads where the relation of the expected model does. -/
theorem Standing.relation {e : Entity} {property : String} {target : ModelId} {r : Relation}
    (he : stands m e) (hlead : c.LeadsTo m property target)
    (hr : c.relation e.model property = .ok r) :
    (∀ t, stands r.target t → stands target t) ∧ (Tolerant known ∨ r.target = target) := by
  rcases hstands.apart with hmodel | ⟨hany, ht⟩
  · rw [hmodel m e he] at hr
    have heq : r.target = target := (leadsTo_of_relation hr).eq hlead
    exact ⟨fun t ht => heq ▸ ht, .inr heq⟩
  · exact ⟨fun t => hany r.target target t, .inl ht⟩

end Catalog

namespace Loader

variable {l : Loader} {args : ListArgs} {owners : List Entity} {property : String}
  (h : l.catalog.Covers S known) (hstands : l.catalog.Standing S known stands)

include h hstands

/-- The targets of a batch may stand for the model that the relation leads to. -/
theorem ends_targets {r : Relation} (hr : S r.target) (hargs : args.Sorts l.catalog known r.target)
    (key : String) (keys : List Datum) :
    Action.Ends known (l.targets r args key keys) fun found => ∀ e ∈ found, stands r.target e := by
  unfold targets
  split_ifs
  · exact .pure fun _ he => nomatch he
  · exact .ofExcept_bind (ListArgs.ends_refine h hr l.maxDepth hargs _) fun _ _ _ =>
      .bind (.query _) fun records _ => .pure (hstands.ofRecords hr records)

theorem ends_shares {r : Relation} (hr : S r.target) (hargs : args.Sorts l.catalog known r.target)
    (owners : List Entity) :
    Action.Ends known (l.shares r args owners) fun share =>
      ∀ owner, ∀ e ∈ (share owner).toList, stands r.target e := by
  have htargets := fun key keys => ends_targets h hstands hr hargs key keys
  unfold shares
  cases r.link with
  | belongsTo key =>
    exact .bind (htargets _ _) fun found hfound => .pure fun owner e he =>
      hfound e (mem_of_mem_shareByKey he)
  | hasOne key =>
    exact .bind (htargets _ _) fun found hfound => .pure fun owner e he =>
      hfound e (mem_of_mem_held (List.mem_of_head? (Option.mem_toList.1 he)))
  | hasMany key =>
    exact .bind (htargets _ _) fun found hfound => .pure fun owner e he =>
      hfound e (mem_of_mem_held (mem_of_mem_paginate he))
  | belongsToMany pivot ownerKey relatedKey =>
    have hlinks : ∀ keys, Action.Ends known (links pivot ownerKey relatedKey keys)
        fun _ => True := by
      intro keys
      unfold links
      split_ifs
      · exact .pure trivial
      · exact .bind (.query _) fun _ _ => .pure trivial
    exact .bind (hlinks _) fun pairs _ => .bind (htargets _ _) fun found hfound =>
      .pure fun owner e he => hfound e (List.mem_of_mem_filter (mem_of_mem_paginate he))

theorem ends_load (hm : S m) (howners : ∀ e ∈ owners, stands m e)
    (hargs : ∀ r, l.catalog.relation m property = .ok r → args.Sorts l.catalog known r.target) :
    Action.Ends known (l.load m owners property args) fun loaded =>
      (∀ e ∈ loaded, stands m e) ∧ ∃ r, l.catalog.relation m property = .ok r := by
  refine .ofExcept_bind (Catalog.ends_relation h hm) fun r hr hS =>
    .bind (ends_shares h hstands hS (hargs r hr) owners) fun share hshare =>
      .pure ⟨fun e he => ?_, r, hr⟩
  obtain ⟨owner, howner, rfl⟩ := List.mem_map.1 he
  exact hstands.load (howners owner howner) (Catalog.leadsTo_of_relation hr) (hshare owner) _

/-- The owners at the end of a step may stand for a model, and a failure is no other fault. -/
def Outcome.Ends (stands : ModelId → Entity → Prop) (known : Error → Prop) (m : ModelId)
    (o : Outcome) : Prop :=
  (∀ e ∈ o.1, stands m e) ∧ EntityGraph.Ends known o.2 fun _ => True

theorem returns_tryLoad (hm : S m) (howners : ∀ e ∈ owners, stands m e)
    (hargs : ∀ r, l.catalog.relation m property = .ok r → args.Sorts l.catalog known r.target) :
    Returns (l.tryLoad m owners property args) (Outcome.Ends stands known m) := by
  refine Returns.bind (ends_load h hstands hm howners hargs) fun r hr => ?_
  cases r with
  | ok loaded => exact .pure ⟨hr.1, trivial⟩
  | error e => exact .pure ⟨howners, hr⟩

omit h

theorem stands_along {target : ModelId} (hlead : l.catalog.LeadsTo m property target)
    (howners : ∀ e ∈ owners, stands m e) : ∀ e ∈ along property owners, stands target e := by
  intro e he
  obtain ⟨owner, howner, he⟩ := List.mem_flatMap.1 he
  cases hloaded : owner.relation property with
  | none =>
    rw [hloaded] at he
    cases he
  | some loaded =>
    rw [hloaded] at he
    exact hstands.behind (howners owner howner) hlead hloaded e he

theorem stands_putBack {target : ModelId} (hlead : l.catalog.LeadsTo m property target)
    {entities : List Entity} (howners : ∀ e ∈ owners, stands m e)
    (hentities : ∀ e ∈ entities, stands target e) :
    ∀ e ∈ putBack property owners entities, stands m e := by
  induction owners generalizing entities with
  | nil => exact fun _ he => nomatch he
  | cons owner rest ih =>
    obtain ⟨howner, hrest⟩ := List.forall_mem_cons.1 howners
    rw [putBack]
    split
    · exact List.forall_mem_cons.2 ⟨howner, ih hrest hentities⟩
    next loaded _ =>
      refine List.forall_mem_cons.2 ⟨hstands.load howner hlead (fun t ht => ?_) _,
        ih hrest fun e he => hentities e (List.mem_of_mem_drop he)⟩
      unfold replaceTargets at ht
      split at ht
      · cases ht
      · exact hentities t (List.mem_of_mem_take (List.mem_of_head? (Option.mem_toList.1 ht)))
      · exact hentities t (List.mem_of_mem_take ht)

include h

/-- Along a path, each relation leads to a model among the given ones. -/
theorem returns_loadPath (path : List String) (hm : S m) (howners : ∀ e ∈ owners, stands m e)
    (hargs : ∀ model, S model → l.catalog.follow m path = .ok model →
      args.Sorts l.catalog known model) :
    Returns (l.loadPath m args owners path) (Outcome.Ends stands known m) := by
  induction path generalizing m owners with
  | nil => exact .pure ⟨howners, trivial⟩
  | cons property rest ih =>
    have hrelation : Ends known (l.catalog.relation m property) fun r => S r.target :=
      Catalog.ends_relation h hm
    cases rest with
    | nil =>
      refine returns_tryLoad h hstands hm howners fun r hr => ?_
      exact hargs r.target (hrelation.of_ok hr) (bind_eq_ok.2 ⟨r, hr, rfl⟩)
    | cons next rest =>
      rw [loadPath_cons_cons]
      have hbelow : ∀ outcome : Outcome, Outcome.Ends stands known m outcome →
          Returns (l.passOn m args property next rest outcome)
            (Outcome.Ends stands known m) := by
        rintro ⟨owners, result⟩ ⟨howners, hresult⟩
        unfold passOn
        cases result with
        | error e => exact .pure ⟨howners, hresult⟩
        | ok _ =>
          dsimp only
          cases hr : l.catalog.relation m property with
          | error e => exact .pure ⟨howners, hrelation.of_error hr⟩
          | ok r =>
            have hlead := Catalog.leadsTo_of_relation hr
            have hfollow : ∀ model, S model → l.catalog.follow r.target (next :: rest) = .ok model →
                args.Sorts l.catalog known model :=
              fun model hS hmodel => hargs model hS (bind_eq_ok.2 ⟨r, hr, hmodel⟩)
            exact .bind (ih (hrelation.of_ok hr) (stands_along hstands hlead howners) hfollow)
              fun below hbelow => .pure ⟨stands_putBack hstands hlead howners hbelow.1, hbelow.2⟩
      -- what was loaded before is not loaded again
      split_ifs
      · exact .bind (returns_tryLoad h hstands hm howners fun _ _ => ListArgs.sorts_none) hbelow
      · exact .bind (P := Outcome.Ends stands known m) (.pure ⟨howners, trivial⟩) hbelow

theorem returns_loadEach (hm : S m) {paths : LoadPlan} (hpaths : paths.Sorts l.catalog S known m)
    (howners : ∀ e ∈ owners, stands m e) :
    Returns (l.loadEach m owners paths) (Outcome.Ends stands known m) := by
  induction paths generalizing owners with
  | nil => exact .pure ⟨howners, trivial⟩
  | cons path rest ih =>
    obtain ⟨hargs, hrest⟩ := List.forall_mem_cons.1 hpaths
    refine .bind (returns_loadPath h hstands _ hm howners hargs) ?_
    rintro ⟨owners, result⟩ ⟨howners, hresult⟩
    cases result with
    | error e => exact .pure ⟨howners, hresult⟩
    | ok _ => exact ih hrest howners

/-- Loading planned relations finds no other faults. -/
theorem ends_loaded (hm : S m) {plan : LoadPlan} (hplan : plan.Sorts l.catalog S known m)
    (howners : ∀ e ∈ owners, stands m e) :
    Action.Ends known (l.loaded m owners plan) fun loaded => ∀ e ∈ loaded, stands m e := by
  refine .bind (.lift (returns_loadEach h hstands hm (fun x hx => hplan x (List.mem_mergeSort.1 hx))
    howners)) ?_
  rintro ⟨owners, result⟩ ⟨howners, hresult⟩
  exact .ofExcept_bind hresult fun _ _ _ => .pure howners

end Loader

end

end EntityGraph
