import Mathlib.Tactic.SplitIfs
import EntityGraph.Proofs.Relation.Nested
import EntityGraph.Resolve.Roots

/-!
# What runs leave in the log

Actions only append to the log. Those that do not change anything append no effect: no statement
that writes and no event.

* `World.Grows` and `World.Quiet` relate the worlds before and after such steps;
* `AcrossReads R` are the relations that hold across every step which reads, and
  `AcrossReads.eagerLoad` and its kin say that the parts of a resolver keep them;
* `AcrossWrites R may` are those that also hold across writing into some columns, and
  `AcrossWrites.store` and its kin say that a change which stays within them keeps them.
-/

namespace EntityGraph

/-- An entry that tells of a change: a statement that writes, or an event. -/
def LogEntry.IsEffect : LogEntry → Prop
  | .event _ => True
  | .statement (.insert _) => True
  | .statement (.update _) => True
  | .statement (.delete _) => True
  | _ => False

/-- An entry of two lists put together is one of the first or one of the second. -/
theorem append_eq_append_cons {xs ys before after : List LogEntry} {e : LogEntry}
    (h : xs ++ ys = before ++ e :: after) :
    (∃ tail, xs = before ++ e :: tail) ∨ ∃ middle, before = xs ++ middle ∧
      ys = middle ++ e :: after := by
  rcases List.append_eq_append_iff.1 h with ⟨middle, hbefore, hys⟩ | ⟨tail, hxs, hafter⟩
  · exact .inr ⟨middle, hbefore, hys⟩
  · cases tail with
    | nil => exact .inr ⟨[], by simpa using hxs.symm, by simpa using hafter.symm⟩
    | cons x tail =>
      obtain ⟨rfl, -⟩ := List.cons.inj hafter
      exact .inl ⟨tail, hxs⟩

namespace World

/-- The log of a world continues that of another. -/
def Grows (w w' : World) : Prop :=
  ∃ entries, w'.log = w.log ++ entries

/-- Nothing changed between two worlds, and the log tells of no change. -/
def Quiet (w w' : World) : Prop :=
  w'.store = w.store ∧ ∃ entries, w'.log = w.log ++ entries ∧ ∀ e ∈ entries, ¬ e.IsEffect

theorem Grows.refl (w : World) : Grows w w := ⟨[], by simp⟩

theorem Grows.trans {u v w : World} (h : Grows u v) (h' : Grows v w) : Grows u w := by
  obtain ⟨xs, hxs⟩ := h
  obtain ⟨ys, hys⟩ := h'
  exact ⟨xs ++ ys, by rw [hys, hxs, List.append_assoc]⟩

theorem Grows.note (w : World) (e : LogEntry) : Grows w (w.note e) := ⟨[e], rfl⟩

theorem Quiet.refl (w : World) : Quiet w w := ⟨rfl, [], by simp, by simp⟩

theorem Quiet.trans {u v w : World} (h : Quiet u v) (h' : Quiet v w) : Quiet u w := by
  obtain ⟨hstore, xs, hxs, hquiet⟩ := h
  obtain ⟨hstore', ys, hys, hquiet'⟩ := h'
  refine ⟨hstore'.trans hstore, xs ++ ys, by rw [hys, hxs, List.append_assoc], fun e he => ?_⟩
  rcases List.mem_append.1 he with he | he
  · exact hquiet e he
  · exact hquiet' e he

theorem Quiet.note (w : World) {e : LogEntry} (he : ¬ e.IsEffect) : Quiet w (w.note e) :=
  ⟨rfl, [e], rfl, by simpa using he⟩

end World

/-- A relation between worlds that holds across every step which reads. -/
structure AcrossReads (R : World → World → Prop) : Prop where
  refl : ∀ w, R w w
  trans : ∀ u v w, R u v → R v w → R u w
  select : ∀ w q, R w (w.note (.statement (.select q)))
  check : ∀ w caller c allowed, R w (w.note (.check caller c allowed))

theorem AcrossReads.quiet : AcrossReads World.Quiet where
  refl := World.Quiet.refl
  trans _ _ _ := World.Quiet.trans
  select w _ := World.Quiet.note w (by simp [LogEntry.IsEffect])
  check w _ _ _ := World.Quiet.note w (by simp [LogEntry.IsEffect])

theorem AcrossReads.grows : AcrossReads World.Grows where
  refl := World.Grows.refl
  trans _ _ _ := World.Grows.trans
  select w _ := World.Grows.note w _
  check w _ _ _ := World.Grows.note w _

namespace AcrossReads

variable {α β : Type} {R : World → World → Prop} (hR : AcrossReads R)

include hR

theorem pure (x : α) : Keeps R (Pure.pure x : Action α).run := Action.keeps_pure hR.refl x

theorem throw (e : Error) : Keeps R (MonadExcept.throw e : Action α).run :=
  Action.keeps_throw hR.refl e

theorem ofExcept (x : Except Error α) : Keeps R (Action.ofExcept x).run :=
  Action.keeps_ofExcept hR.refl x

theorem bind {a : Action α} {f : α → Action β} (ha : Keeps R a.run) (hf : ∀ x, Keeps R (f x).run) :
    Keeps R (a >>= f).run := Action.keeps_bind hR.trans ha hf

/-- What follows a computation without the world may rely on its result. -/
theorem ofExcept_bind {x : Except Error α} {f : α → Action β}
    (hf : ∀ y, x = .ok y → Keeps R (f y).run) : Keeps R (Action.ofExcept x >>= f).run := by
  cases x with
  | error e => exact hR.throw e
  | ok y => exact hf y rfl

theorem query (q : Query) : Keeps R (Action.query q).run := by
  intro w
  change R w ((Action.query q).runIn w).2
  rw [Action.runIn_query]
  exact hR.select w q.toSelect

theorem ask (g : Guard) (caller : Caller) (c : Check) : Keeps R (g.ask caller c).run :=
  hR.bind (fun w => hR.check w caller c _) fun _ => hR.pure _

theorem require (g : Guard) (caller : Caller) (c : Check) : Keeps R (g.require caller c).run := by
  refine hR.bind (hR.ask g caller c) fun allowed => ?_
  cases allowed
  · exact hR.throw _
  · exact hR.pure _

theorem filterM {p : α → Action Bool} (hp : ∀ x, Keeps R (p x).run) (l : List α) :
    Keeps R (l.filterM p).run := by
  have haux : ∀ (l kept : List α), Keeps R (List.filterAuxM p l kept).run := by
    intro l
    induction l with
    | nil => exact fun kept => hR.pure kept
    | cons x l ih => exact fun kept => hR.bind (hp x) fun keep => by cases keep <;> exact ih _
  exact hR.bind (haux l []) fun kept => hR.pure _

section Loader

variable (l : Loader)

theorem targets (r : Relation) (args : ListArgs) (key : String) (keys : List Datum) :
    Keeps R (l.targets r args key keys).run := by
  unfold Loader.targets
  split_ifs
  · exact hR.pure _
  · exact hR.bind (hR.ofExcept _) fun q => hR.bind (hR.query q) fun _ => hR.pure _

theorem links (pivot ownerKey relatedKey : String) (keys : List Datum) :
    Keeps R (Loader.links pivot ownerKey relatedKey keys).run := by
  unfold Loader.links
  split_ifs
  · exact hR.pure _
  · exact hR.bind (hR.query _) fun _ => hR.pure _

theorem shares (r : Relation) (args : ListArgs) (owners : List Entity) :
    Keeps R (l.shares r args owners).run := by
  unfold Loader.shares
  cases r.link with
  | belongsTo key => exact hR.bind (hR.targets l r args _ _) fun _ => hR.pure _
  | hasOne key => exact hR.bind (hR.targets l r args _ _) fun _ => hR.pure _
  | hasMany key => exact hR.bind (hR.targets l r args _ _) fun _ => hR.pure _
  | belongsToMany pivot ownerKey relatedKey =>
    exact hR.bind (hR.links _ _ _ _) fun _ => hR.bind (hR.targets l r args _ _) fun _ => hR.pure _

theorem load (model : ModelId) (owners : List Entity) (property : String) (args : ListArgs) :
    Keeps R (l.load model owners property args).run :=
  hR.bind (hR.ofExcept _) fun r => hR.bind (hR.shares l r args owners) fun _ => hR.pure _

theorem tryLoad (model : ModelId) (owners : List Entity) (property : String) (args : ListArgs) :
    Keeps R (l.tryLoad model owners property args) := by
  refine Keeps.bind hR.trans (hR.load l model owners property args) fun result => ?_
  cases result <;> exact Keeps.pure hR.refl _

theorem loadPath (args : ListArgs) (path : List String) (model : ModelId) (owners : List Entity) :
    Keeps R (l.loadPath model args owners path) := by
  induction path generalizing model owners with
  | nil => exact Keeps.pure hR.refl _
  | cons property rest ih =>
    cases rest with
    | nil => exact hR.tryLoad l model owners property args
    | cons next rest =>
      rw [Loader.loadPath_cons_cons]
      have hbelow : ∀ outcome, Keeps R (l.passOn model args property next rest outcome) := by
        intro outcome
        unfold Loader.passOn
        split
        · exact Keeps.pure hR.refl _
        · split
          · exact Keeps.pure hR.refl _
          · exact Keeps.bind hR.trans (ih _ _) fun _ => Keeps.pure hR.refl _
      split_ifs
      · exact Keeps.bind hR.trans (hR.tryLoad l model owners property ListArgs.none) hbelow
      · exact Keeps.bind hR.trans (Keeps.pure hR.refl _) hbelow

theorem loadEach (model : ModelId) (owners : List Entity) (paths : List (String × ListArgs)) :
    Keeps R (l.loadEach model owners paths) := by
  induction paths generalizing owners with
  | nil => exact Keeps.pure hR.refl _
  | cons path rest ih =>
    refine Keeps.bind hR.trans (hR.loadPath l _ _ model owners) fun outcome => ?_
    obtain ⟨owners, result⟩ := outcome
    cases result with
    | error e => exact Keeps.pure hR.refl _
    | ok _ => exact ih owners

theorem loaded (model : ModelId) (owners : List Entity) (paths : List (String × ListArgs)) :
    Keeps R (l.loaded model owners paths).run :=
  hR.bind (fun w => hR.loadEach l model owners _ w) fun _ => hR.bind (hR.ofExcept _) fun _ =>
    hR.pure _

end Loader

section Resolvers

variable (sv : Service) (caller : Caller)

theorem eagerLoad (m : ModelId) (entities : List Entity) (selections : List Selection) :
    Keeps R (sv.eagerLoad m entities selections).run := by
  refine hR.bind (hR.ofExcept _) fun root => hR.bind (hR.ofExcept _) fun plan => ?_
  split_ifs
  · exact hR.pure _
  · exact hR.loaded sv.loader m entities plan

theorem withRelations (m : ModelId) (e : Entity) (selection : Selection) :
    Keeps R (sv.withRelations m e selection).run :=
  hR.bind (hR.eagerLoad sv m [e] _) fun _ => hR.pure _

theorem forM {l : List α} {f : α → Action Unit} (hf : ∀ x, Keeps R (f x).run) :
    Keeps R (l.forM f).run :=
  Action.keeps_forM hR.refl hR.trans fun x _ => hf x

theorem requireFilter (g : Guard) (m : ModelId) (f : FilterExpr) :
    Keeps R (g.requireFilter caller m f).run :=
  hR.bind (hR.require g caller _) fun _ => hR.forM fun _ => hR.require g caller _

theorem restrict (p : Paginator) (g : Guard) (f : FilterExpr) :
    Keeps R (p.restrict g caller f).run := by
  unfold Paginator.restrict
  split_ifs
  · exact hR.pure _
  · exact hR.bind (hR.requireFilter caller g p.model f) fun _ => hR.bind (hR.ofExcept _) fun _ =>
      hR.bind (hR.ofExcept _) fun _ => hR.pure _

theorem paginate (m : ModelId) (source : ListSource) (args : ListArgs) :
    Keeps R (sv.paginate caller m source args).run := by
  unfold Service.paginate Paginator.restricted
  cases args.filter with
  | none => exact hR.bind (hR.pure _) fun _ => hR.ofExcept _
  | some f => exact hR.bind (hR.restrict caller _ sv.guard f) fun _ => hR.ofExcept _

theorem get (p : Paginator) : Keeps R p.get.run := by
  unfold Paginator.get
  split
  · exact hR.pure _
  · split
    · exact hR.bind (hR.query _) fun _ => hR.pure _
    · exact hR.pure _

theorem find (m : ModelId) (table : String) (id : Int64) :
    Keeps R (Persist.find m table id).run :=
  hR.bind (hR.query _) fun _ => hR.pure _

theorem list (m : ModelId) (selection : Selection) : Keeps R (sv.list caller m selection).run :=
  hR.bind (hR.ofExcept _) fun args => hR.bind (hR.ofExcept _) fun _ =>
    hR.bind (hR.paginate sv caller m _ args) fun p => hR.bind (hR.get p) fun entities =>
      hR.bind (hR.eagerLoad sv m entities _) fun entities =>
        hR.bind (hR.filterM (fun e => hR.ask sv.guard caller (Guard.viewCheck e)) entities)
          fun _ => hR.pure _

theorem listPaged (m : ModelId) (selection : Selection) :
    Keeps R (sv.listPaged caller m selection).run :=
  hR.bind (hR.require sv.guard caller _) fun _ => hR.bind (hR.ofExcept _) fun args =>
    hR.bind (hR.ofExcept _) fun _ => hR.bind (hR.paginate sv caller m _ args) fun _ => hR.pure _

theorem view (m : ModelId) (selection : Selection) : Keeps R (sv.view caller m selection).run := by
  refine hR.bind (hR.ofExcept _) fun id => hR.bind (hR.ofExcept _) fun table =>
    hR.bind (hR.find m table id) fun found => ?_
  cases found with
  | none => exact hR.pure _
  | some e =>
    exact hR.bind (hR.require sv.guard caller _) fun _ => hR.withRelations sv m e selection

end Resolvers

end AcrossReads

namespace World.Grows

theorem insert (i : Insertion) : Keeps Grows (Action.insert i).run := by
  intro w
  change Grows w ((Action.insert i).runIn w).2
  rw [Action.runIn_insert]
  exact ⟨[.statement (.insert i)], rfl⟩

theorem update (u : Update) : Keeps Grows (Action.update u).run := by
  intro w
  change Grows w ((Action.update u).runIn w).2
  rw [Action.runIn_update]
  rcases w.store.update u with failure | ⟨s, n⟩ <;> exact ⟨[.statement (.update u)], rfl⟩

theorem delete (d : Deletion) : Keeps Grows (Action.delete d).run := by
  intro w
  change Grows w ((Action.delete d).runIn w).2
  rw [Action.runIn_delete]
  rcases w.store.delete d with failure | ⟨s, n⟩ <;> exact ⟨[.statement (.delete d)], rfl⟩

end World.Grows

/-- The columns that store a relation, each with its table. -/
def Relation.columns (r : Relation) : List (String × String) :=
  match r.link with
  | .belongsTo key => [(r.ownerTable, key)]
  | .hasOne key => [(r.targetTable, key)]
  | .hasMany key => [(r.targetTable, key)]
  | .belongsToMany pivot ownerKey relatedKey => [(pivot, ownerKey), (pivot, relatedKey)]

/-- The columns that changes of a row write, each with its table. -/
def Changes.columns (changes : Changes) (table : String) : List (String × String) :=
  changes.attributes.keys.map (table, ·) ++ changes.relations.flatMap (·.1.columns)

/-- A relation that holds across every step which reads, announces something, or writes only into
columns that may be written. -/
structure AcrossWrites (R : World → World → Prop) (may : String × String → Prop) : Prop
    extends AcrossReads R where
  event : ∀ w e, R w (w.note (.event e))
  insert : ∀ i : Insertion, (∀ column ∈ i.columns, may (i.table, column)) →
    Keeps R (Action.insert i).run
  update : ∀ u : Update, (∀ a ∈ u.assignments, may (u.table, a.1)) → Keeps R (Action.update u).run
  delete : ∀ d, Keeps R (Action.delete d).run

theorem AcrossWrites.grows : AcrossWrites World.Grows fun _ => True where
  toAcrossReads := AcrossReads.grows
  event w _ := World.Grows.note w _
  insert i _ := World.Grows.insert i
  update u _ := World.Grows.update u
  delete d := World.Grows.delete d

namespace AcrossWrites

variable {R : World → World → Prop} {may : String × String → Prop} (hR : AcrossWrites R may)

include hR

theorem announce (e : MutationEvent) : Keeps R (Action.record (.event e)).run :=
  fun w => hR.event w e

theorem syncHolders {table key : String} (h : may (table, key)) (owner : Int64)
    (targets : List Int64) : Keeps R (Persist.syncHolders table key owner targets).run := by
  refine hR.bind (hR.update _ (List.forall_mem_singleton.2 h)) fun _ => ?_
  split_ifs
  · exact hR.pure _
  · exact hR.bind (hR.update _ (List.forall_mem_singleton.2 h)) fun _ => hR.pure _

theorem syncPairs {pivot ownerKey relatedKey : String} (howner : may (pivot, ownerKey))
    (hrelated : may (pivot, relatedKey)) (owner : Int64) (targets : List Int64) :
    Keeps R (Persist.syncPairs pivot ownerKey relatedKey owner targets).run := by
  refine hR.bind (hR.query _) fun links => hR.bind (hR.delete _) fun _ => ?_
  dsimp only
  split_ifs
  · exact hR.pure _
  · refine hR.bind (hR.insert _ ?_) fun _ => hR.pure _
    exact List.forall_mem_cons.2 ⟨howner, List.forall_mem_singleton.2 hrelated⟩

theorem sync {r : Relation} (h : ∀ column ∈ r.columns, may column) (owner : Int64)
    (targets : List Int64) : Keeps R (Persist.sync r owner targets).run := by
  unfold Persist.sync
  unfold Relation.columns at h
  cases hlink : r.link with
  | belongsTo key => exact hR.throw _
  | hasOne key | hasMany key =>
    rw [hlink] at h
    exact hR.syncHolders (h _ List.mem_cons_self) owner targets
  | belongsToMany pivot ownerKey relatedKey =>
    rw [hlink] at h
    obtain ⟨howner, hrelated⟩ := List.forall_mem_cons.1 h
    exact hR.syncPairs howner (List.forall_mem_singleton.1 hrelated) owner targets

theorem syncAll {relations : List (Relation × List Int64)}
    (h : ∀ link ∈ relations, ∀ column ∈ link.1.columns, may column) (id : Int64) :
    Keeps R (Service.syncAll id relations).run :=
  Action.keeps_forM hR.refl hR.trans fun link hlink => hR.sync (h link hlink) id link.2

theorem insertRow {table : String} {attributes : Record}
    (h : ∀ column ∈ attributes.keys, may (table, column)) :
    Keeps R (Persist.insert table attributes).run := by
  refine hR.bind (hR.insert _ h) fun keys => ?_
  cases keys with
  | nil => exact hR.throw _
  | cons key rest => exact hR.pure _

theorem updateRow {table : String} {changes : Record}
    (h : ∀ column ∈ changes.keys, may (table, column)) (id : Int64) :
    Keeps R (Persist.update table id changes).run := by
  unfold Persist.update
  split_ifs
  · exact hR.pure _
  · exact hR.update _ fun a ha => h a.1 (List.mem_map_of_mem ha)

section Changes

variable {changes : Changes} {table : String} (h : ∀ column ∈ changes.columns table, may column)

include h

omit hR in
theorem may_attributes : ∀ column ∈ changes.attributes.keys, may (table, column) :=
  fun _ hcolumn => h _ (List.mem_append_left _ (List.mem_map_of_mem hcolumn))

omit hR in
theorem may_relations : ∀ link ∈ changes.relations, ∀ column ∈ link.1.columns, may column :=
  fun link hlink _ hcolumn =>
    h _ (List.mem_append_right _ (List.mem_flatMap.2 ⟨link, hlink, hcolumn⟩))

theorem store (m : ModelId) : Keeps R (Service.store m table changes).run := by
  refine hR.bind (hR.announce _) fun _ => hR.bind (hR.insertRow (may_attributes h)) fun id =>
    hR.bind (hR.syncAll (may_relations h) id) fun _ => hR.bind (hR.find m table id) fun found => ?_
  cases found with
  | none => exact hR.throw _
  | some e => exact hR.bind (hR.announce _) fun _ => hR.pure _

/-- What an update does once its input was read. -/
theorem changeRow (m : ModelId) (id : Int64) (e : Entity) : Keeps R (show Action Bool from do
    Action.record (.event (.updating e changes.attributes))
    let _ ← Persist.update table id changes.attributes
    Service.syncAll id changes.relations
    match ← Persist.find m table id with
    | some updated => Action.record (.event (.updated updated))
    | none => pure ()
    return true).run := by
  refine hR.bind (hR.announce _) fun _ => hR.bind (hR.updateRow (may_attributes h) id) fun _ =>
    hR.bind (hR.syncAll (may_relations h) id) fun _ => hR.bind (hR.find m table id) fun found => ?_
  cases found with
  | none => exact hR.pure _
  | some updated => exact hR.bind (hR.announce _) fun _ => hR.pure _

end Changes

/-- What a deletion does once it found its entity. -/
theorem deleteRow (table : String) (id : Int64) (e : Entity) : Keeps R (show Action Bool from do
    Action.record (.event (.deleting e))
    let n ← Persist.delete table id
    Action.record (.event (.deleted e))
    return decide (0 < n)).run :=
  hR.bind (hR.announce _) fun _ => hR.bind (hR.delete _) fun _ => hR.bind (hR.announce _) fun _ =>
    hR.pure _

end AcrossWrites

end EntityGraph
