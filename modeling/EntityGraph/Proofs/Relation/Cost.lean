import EntityGraph.Proofs.Relation.Eager

/-!
# The selections that loading ahead runs

Loading a plan runs one selection for each of its paths, and one more where a path ends in a
relation through a table of pairs. How many entities there are does not matter.

* `Reads n a` says that a step runs at most `n` selections and does nothing else;
* `Loader.Covers` says that a path is loaded for all entities that it leads through: it is the
  invariant of loading one path after the other, by which no relation on the way is missing;
* `Loader.Frugal` is what loading the rest of a plan comes to, by induction on the rest;
* `Loader.loadPaths_frugal` is the result for the plans of selections, and says as well that what
  would load a missing relation never runs: anything else can stand in its place.
-/

namespace EntityGraph

/-- The world after further selections. -/
def World.reading (w : World) (qs : List Select) : World :=
  { w with log := w.log ++ qs.map fun q => .statement (.select q) }

@[simp] theorem World.reading_nil (w : World) : w.reading [] = w := by
  simp [World.reading]

@[simp] theorem World.reading_reading (w : World) (qs qs' : List Select) :
    (w.reading qs).reading qs' = w.reading (qs ++ qs') := by
  simp [World.reading, List.append_assoc]

theorem World.note_select (w : World) (q : Select) :
    w.note (.statement (.select q)) = w.reading [q] := rfl

/-- A step runs at most `n` selections, and does nothing else to the world. -/
def Reads {α : Type} (n : Nat) (a : StateM World α) : Prop :=
  ∀ w, ∃ qs : List Select, qs.length ≤ n ∧ (a w).2 = w.reading qs

namespace Reads

variable {α β : Type} {n k : Nat}

theorem pure (x : α) : Reads 0 (Pure.pure x : StateM World α) :=
  fun w => ⟨[], Nat.le_refl 0, (w.reading_nil).symm⟩

theorem mono {a : StateM World α} (h : Reads n a) (hle : n ≤ k) : Reads k a := by
  intro w
  obtain ⟨qs, hlength, hw⟩ := h w
  exact ⟨qs, Nat.le_trans hlength hle, hw⟩

theorem bind {a : StateM World α} {f : α → StateM World β} (ha : Reads n a)
    (hf : ∀ x, Reads k (f x)) : Reads (n + k) (a >>= f) := by
  intro w
  obtain ⟨qs, hlength, hw⟩ := ha w
  obtain ⟨qs', hlength', hw'⟩ := hf (a w).1 (a w).2
  refine ⟨qs ++ qs', ?_, ?_⟩
  · rw [List.length_append]
    omega
  · rw [World.bind_apply, hw', hw, World.reading_reading]

end Reads

namespace Action

variable {α β : Type} {n k : Nat}

theorem reads_pure (x : α) : Reads 0 (pure x : Action α).run :=
  Reads.pure (Except.ok x)

theorem reads_query (q : Query) : Reads 1 (query q).run := by
  intro w
  refine ⟨[q.toSelect], Nat.le_refl 1, ?_⟩
  change ((query q).runIn w).2 = _
  rw [runIn_query, World.note_select]

theorem reads_bind {a : Action α} {f : α → Action β} (ha : Reads n a.run)
    (hf : ∀ x, Reads k (f x).run) : Reads (n + k) (a >>= f).run := by
  intro w
  obtain ⟨qs, hlength, hw⟩ := ha w
  change (a.runIn w).2 = _ at hw
  rcases hrun : a.runIn w with ⟨result, w₁⟩
  rw [hrun] at hw
  cases result with
  | error e =>
    refine ⟨qs, by omega, ?_⟩
    change ((a >>= f).runIn w).2 = _
    rw [runIn_bind_error hrun, hw]
  | ok x =>
    obtain ⟨qs', hlength', hw'⟩ := hf x w₁
    refine ⟨qs ++ qs', by rw [List.length_append]; omega, ?_⟩
    change ((a >>= f).runIn w).2 = _
    change ((f x).runIn w₁).2 = _ at hw'
    rw [runIn_bind_ok hrun, hw', show w₁ = w.reading qs from hw, World.reading_reading]

/-- What follows a step that cannot touch the world runs the selections. -/
theorem reads_ofExcept_bind {x : Except Error α} {f : α → Action β}
    (hf : ∀ a, x = .ok a → Reads n (f a).run) : Reads n (ofExcept x >>= f).run := by
  intro w
  change ∃ qs : List Select, _ ∧ ((ofExcept x >>= f).runIn w).2 = _
  rw [runIn_bind, runIn_ofExcept]
  cases x with
  | error e => exact ⟨[], Nat.zero_le n, (w.reading_nil).symm⟩
  | ok a => exact hf a rfl w

end Action

/-- Whether a link goes through a table of pairs. -/
def Link.isPaired : Link → Bool
  | belongsToMany _ _ _ => true
  | _ => false

/-- Whether the last relation of a path from a model goes through a table of pairs. -/
def Catalog.endsInPairs (c : Catalog) (m : ModelId) : List String → Bool
  | [] => false
  | [property] => match c.relation m property with
    | .error _ => false
    | .ok r => r.link.isPaired
  | property :: next :: rest => match c.relation m property with
    | .error _ => false
    | .ok r => c.endsInPairs r.target (next :: rest)

namespace Catalog

variable {c : Catalog} {m : ModelId} {property : String} {r : Relation}

theorem endsInPairs_singleton (hr : c.relation m property = .ok r) :
    c.endsInPairs m [property] = r.link.isPaired := by
  simp only [endsInPairs, hr]

theorem endsInPairs_cons (hr : c.relation m property = .ok r) {path : List String}
    (hpath : path ≠ []) : c.endsInPairs m (property :: path) = c.endsInPairs r.target path := by
  obtain ⟨next, rest, rfl⟩ := List.exists_cons_of_ne_nil hpath
  simp only [endsInPairs, hr]

end Catalog

namespace Loader

variable {l : Loader} {m : ModelId} {args : ListArgs} {owners owners' : List Entity} {w w' : World}

section Batch

theorem reads_targets (r : Relation) (key : String) (keys : List Datum) :
    Reads 1 (l.targets r args key keys).run := by
  unfold targets
  split_ifs with hkeys
  · exact (Action.reads_pure _).mono (by omega)
  · exact Action.reads_ofExcept_bind fun query _ =>
      Action.reads_bind (Action.reads_query query) fun records => Action.reads_pure _

theorem reads_links (pivot ownerKey relatedKey : String) (keys : List Datum) :
    Reads 1 (links pivot ownerKey relatedKey keys).run := by
  unfold links
  split_ifs with hkeys
  · exact (Action.reads_pure _).mono (by omega)
  · exact Action.reads_bind (Action.reads_query _) fun rows => Action.reads_pure _

/-- The targets of all owners are one selection, after another one for their pairs. -/
theorem reads_shares (r : Relation) :
    Reads (1 + r.link.isPaired.toNat) (l.shares r args owners).run := by
  unfold shares
  cases hlink : r.link with
  | belongsTo key =>
    exact Action.reads_bind (reads_targets r _ _) fun found => Action.reads_pure _
  | hasOne key =>
    exact Action.reads_bind (reads_targets r _ _) fun found => Action.reads_pure _
  | hasMany key =>
    exact Action.reads_bind (reads_targets r _ _) fun found => Action.reads_pure _
  | belongsToMany pivot ownerKey relatedKey =>
    exact Action.reads_bind (reads_links pivot ownerKey relatedKey _) fun pairs =>
      Action.reads_bind (reads_targets r _ _) fun found => Action.reads_pure _

theorem reads_load (property : String) : Reads (1 + (l.catalog.endsInPairs m [property]).toNat)
    (l.load m owners property args).run := by
  unfold load
  refine Action.reads_ofExcept_bind fun r hr => ?_
  rw [Catalog.endsInPairs_singleton hr]
  exact Action.reads_bind (k := 0) (reads_shares r) fun share => Action.reads_pure _

theorem reads_tryLoad (property : String) : Reads (1 + (l.catalog.endsInPairs m [property]).toNat)
    (l.tryLoad m owners property args) := by
  unfold tryLoad
  refine Reads.bind (k := 0) (reads_load property) fun result => ?_
  cases result with
  | ok loaded => exact Reads.pure (loaded, Except.ok ())
  | error e => exact Reads.pure (owners, Except.error e)

end Batch

section Fallback

variable (l : Loader) (fallback : ModelId → List Entity → String → StateM World Outcome)

/-- Load the last relation of a path, where `fallback` loads a relation on the way that some entity
lacks. -/
def loadPathElse (model : ModelId) (args : ListArgs) (owners : List Entity) :
    List String → StateM World Outcome
  | [] => return (owners, .ok ())
  | [property] => l.tryLoad model owners property args
  | property :: next :: rest => do
    let (owners, result) ←
      if owners.any fun owner => (owner.relation property).isNone then
        fallback model owners property
      else pure (owners, .ok ())
    match result with
    | .error e => return (owners, .error e)
    | .ok () =>
      match l.catalog.relation model property with
      | .error e => return (owners, .error e)
      | .ok r =>
        let (entities, result) ← loadPathElse r.target args (along property owners) (next :: rest)
        return (putBack property owners entities, result)

/-- Load paths one after the other up to the first failure, where `fallback` loads what is missing
on the way. -/
def loadEachElse (model : ModelId) (owners : List Entity) : LoadPlan → StateM World Outcome
  | [] => return (owners, .ok ())
  | (path, args) :: rest => do
    let (owners, result) ← l.loadPathElse fallback model args owners (segments path)
    match result with
    | .error e => return (owners, .error e)
    | .ok () => loadEachElse model owners rest

/-- Load dotted paths of relations, short paths before long ones, where `fallback` loads what is
missing on the way. -/
def loadPathsElse (model : ModelId) (owners : List Entity) (plan : LoadPlan) :
    StateM World Outcome :=
  l.loadEachElse fallback model owners plan.byDepth

end Fallback

section Path

variable {fallback : ModelId → List Entity → String → StateM World Outcome} {q last : String}
  {above path : List String} {r : Relation}

/-- Every entity that a path leads through has its last relation loaded. -/
def Covers (owners : List Entity) (path : List String) : Prop :=
  ∀ above last, path = above ++ [last] → ∀ o ∈ reach above owners, (o.relation last).isSome = true

theorem Covers.along (h : Covers owners (q :: path)) : Covers (along q owners) path :=
  fun above last heq o ho => h (q :: above) last (by rw [heq, List.cons_append]) o ho

theorem covers_along (h : ∀ part, part <+: q :: above → Covers owners part) :
    ∀ part, part <+: above → Covers (Loader.along q owners) part :=
  fun part hpart => (h (q :: part) ((List.prefix_cons_inj q).2 hpart)).along

theorem any_isNone_of_covers (h : Covers owners [q]) :
    (owners.any fun owner => (owner.relation q).isNone) = false := by
  have hfirst : ∀ o ∈ owners, (o.relation q).isSome = true := h [] q rfl
  simpa [Option.isSome_iff_ne_none] using hfirst

theorem loadPathElse_tryLoad : l.loadPathElse (fun m owners p => l.tryLoad m owners p ListArgs.none)
    m args owners path = l.loadPath m args owners path := by
  induction path generalizing m owners with
  | nil => rfl
  | cons property path ih =>
    cases path with
    | nil => rfl
    | cons next rest =>
      rw [loadPathElse, loadPath]
      -- whether or not something is missing on the way, the rest of the path is loaded alike
      split <;>
      · refine bind_congr fun passed => ?_
        obtain ⟨owners, e | _⟩ := passed
        · rfl
        · cases l.catalog.relation m property with
          | error e => rfl
          | ok r =>
            dsimp only
            rw [ih]

/-- A relation that all owners have is passed on the way to the next. -/
theorem loadPathElse_cons (hpath : path ≠ []) (h : Covers owners [q])
    (hr : l.catalog.relation m q = .ok r) :
    l.loadPathElse fallback m args owners (q :: path) = (do
      let below ← l.loadPathElse fallback r.target args (along q owners) path
      return (putBack q owners below.1, below.2)) := by
  obtain ⟨next, rest, rfl⟩ := List.exists_cons_of_ne_nil hpath
  rw [loadPathElse, any_isNone_of_covers h]
  simp only [Bool.false_eq_true, if_false, pure_bind, hr]

theorem loadPathElse_cons_error {e : Error} (hpath : path ≠ []) (h : Covers owners [q])
    (hr : l.catalog.relation m q = .error e) :
    l.loadPathElse fallback m args owners (q :: path) = pure (owners, .error e) := by
  obtain ⟨next, rest, rfl⟩ := List.exists_cons_of_ne_nil hpath
  rw [loadPathElse, any_isNone_of_covers h]
  simp only [Bool.false_eq_true, if_false, pure_bind, hr]

/-- Where the relations on the way are loaded, a path runs the selections of its last relation. -/
theorem reads_loadPathElse (h : ∀ part, part <+: above → Covers owners part) :
    Reads (1 + (l.catalog.endsInPairs m (above ++ [last])).toNat)
      (l.loadPathElse fallback m args owners (above ++ [last])) := by
  induction above generalizing m owners with
  | nil => exact reads_tryLoad last
  | cons q above ih =>
    have hpath : above ++ [last] ≠ [] := by simp
    have hfirst : Covers owners [q] := h [q] ((List.prefix_cons_inj q).2 List.nil_prefix)
    rw [List.cons_append]
    cases hr : l.catalog.relation m q with
    | error e =>
      rw [loadPathElse_cons_error hpath hfirst hr]
      exact (Reads.pure (owners, Except.error e)).mono (Nat.zero_le _)
    | ok r =>
      rw [loadPathElse_cons hpath hfirst hr, Catalog.endsInPairs_cons hr hpath]
      exact Reads.bind (k := 0) (ih (covers_along h)) fun below => Reads.pure _

/-- Where the relations on the way are loaded, none is loaded again. -/
theorem loadPathElse_eq (h : ∀ part, part <+: above → Covers owners part) :
    l.loadPathElse fallback m args owners (above ++ [last])
      = l.loadPath m args owners (above ++ [last]) := by
  induction above generalizing m owners with
  | nil => rfl
  | cons q above ih =>
    have hpath : above ++ [last] ≠ [] := by simp
    have hfirst : Covers owners [q] := h [q] ((List.prefix_cons_inj q).2 List.nil_prefix)
    rw [List.cons_append, ← loadPathElse_tryLoad]
    cases hr : l.catalog.relation m q with
    | error e =>
      rw [loadPathElse_cons_error hpath hfirst hr, loadPathElse_cons_error hpath hfirst hr]
    | ok r =>
      rw [loadPathElse_cons hpath hfirst hr, loadPathElse_cons hpath hfirst hr,
        loadPathElse_tryLoad, ih (covers_along h)]

theorem reads_loadPath (h : ∀ part, part <+: above → Covers owners part) :
    Reads (1 + (l.catalog.endsInPairs m (above ++ [last])).toNat)
      (l.loadPath m args owners (above ++ [last])) := by
  rw [← loadPathElse_tryLoad]
  exact reads_loadPathElse h

/-- A loaded path is loaded for all entities that it leads through, as are those that were and do
not go through it. -/
theorem covers_of_loadPath (h : ∀ part, part <+: above → Covers owners part)
    (hload : l.loadPath m args owners (above ++ [last]) w = ((owners', .ok ()), w')) :
    Covers owners' (above ++ [last]) ∧ ∀ path, Covers owners path → ¬ above ++ [last] <+: path →
      Covers owners' path := by
  obtain ⟨model, r, share, -, -, -, hreach, hdiffer⟩ :=
    loadPath_eq_ok (fun a b hpart o ho => h (a ++ [b]) hpart a b rfl o ho) hload
  constructor
  · intro above' last' heq o ho
    obtain ⟨rfl, rfl⟩ := List.append_inj' heq rfl |>.imp_right List.singleton_inj.1
    rw [hreach] at ho
    obtain ⟨owner, -, rfl⟩ := List.mem_map.1 ho
    have hslot : (owner.setRestricted last (share owner) args).relation last = some (share owner) :=
      (Dict.get?_set _ _ _ _).trans (if_pos rfl)
    rw [hslot]
    rfl
  · rintro path hpath hne above' last' rfl o' ho'
    obtain ⟨o, ho, -, hslot⟩ := exists_of_forall₂_right (reach_differ hne hdiffer) ho'
    have hsome := hpath above' last' rfl o ho
    rw [← Option.isSome_map, ← hslot, Option.isSome_map] at hsome
    exact hsome

end Path

section Plan

variable {fallback : ModelId → List Entity → String → StateM World Outcome}
  {x : String × ListArgs} {rest : LoadPlan}

theorem loadEach_cons : l.loadEach m owners (x :: rest) w
    = match l.loadPath m x.2 owners (segments x.1) w with
      | ((between, .error e), w₁) => ((between, .error e), w₁)
      | ((between, .ok ()), w₁) => l.loadEach m between rest w₁ := by
  rw [loadEach, World.bind_apply]
  rcases l.loadPath m x.2 owners (segments x.1) w with ⟨⟨between, result⟩, w₁⟩
  cases result <;> rfl

theorem loadEachElse_cons : l.loadEachElse fallback m owners (x :: rest) w
    = match l.loadPathElse fallback m x.2 owners (segments x.1) w with
      | ((between, .error e), w₁) => ((between, .error e), w₁)
      | ((between, .ok ()), w₁) => l.loadEachElse fallback m between rest w₁ := by
  rw [loadEachElse, World.bind_apply]
  rcases l.loadPathElse fallback m x.2 owners (segments x.1) w with ⟨⟨between, result⟩, w₁⟩
  cases result <;> rfl

/-- The selections of the paths of a plan: one for each, and one more for pairs. -/
def Budgeted (c : Catalog) (m : ModelId) (plan : LoadPlan) (runs : List (List Select)) : Prop :=
  List.Forall₂ (fun x qs => qs.length ≤ 1 + (c.endsInPairs m (segments x.1)).toNat) plan runs

theorem budgeted_idle (c : Catalog) (m : ModelId) (plan : LoadPlan) :
    Budgeted c m plan (plan.map fun _ => []) :=
  List.forall₂_map_right_iff.2 (List.forall₂_same.2 fun _ _ => Nat.zero_le _)

theorem Budgeted.length_le {c : Catalog} {plan : LoadPlan} {runs : List (List Select)}
    (h : Budgeted c m plan runs) : runs.flatten.length
      ≤ plan.length + plan.countP fun x => c.endsInPairs m (segments x.1) := by
  induction h with
  | nil => exact Nat.le_refl 0
  | @cons x qs plan runs hqs _ ih =>
    rw [List.flatten_cons, List.length_append, List.length_cons, List.countP_cons]
    cases hpairs : c.endsInPairs m (segments x.1) with
    | false =>
      rw [hpairs, Bool.toNat_false] at hqs
      simp only [Bool.false_eq_true, if_false]
      omega
    | true =>
      rw [hpairs, Bool.toNat_true] at hqs
      simp only [if_true]
      omega

/-- Loading `rest` stays within its budget and misses no relation on the way, and then the paths of
`done` and its own are loaded for all entities that they lead through. -/
structure Frugal (l : Loader) (m : ModelId) (done rest : LoadPlan) (owners : List Entity)
    (w : World) : Prop where
  budget : ∃ runs, Budgeted l.catalog m rest runs ∧
    (l.loadEach m owners rest w).2 = w.reading runs.flatten
  fallback : ∀ fallback, l.loadEachElse fallback m owners rest w = l.loadEach m owners rest w
  covers : ∀ owners', (l.loadEach m owners rest w).1 = (owners', .ok ()) →
    ∀ y ∈ done ++ rest, Covers owners' (segments y.1)

/-- Where the paths before one in a plan are loaded, so are the relations on its way. -/
theorem covers_way {done : LoadPlan} {above : List String} {last : String}
    (hsegments : segments x.1 = above ++ [last]) (hordered : done.Ordered (x :: rest))
    (hdone : ∀ y ∈ done, Covers owners (segments y.1)) :
    ∀ part, part <+: above → Covers owners part := by
  rintro part hpart a b rfl
  have hshort : a ++ [b] ≠ segments x.1 := by
    intro heq
    have hlength := hpart.length_le
    rw [heq, hsegments, List.length_append, List.length_singleton] at hlength
    omega
  obtain ⟨y, hy, heq⟩ :=
    hordered.1 a b (hsegments ▸ hpart.trans (List.prefix_append _ _)) hshort
  exact hdone y hy a b heq

namespace Frugal

variable {done : LoadPlan} {between : List Entity} {qs : List Select}
  (hqs : qs.length ≤ 1 + (l.catalog.endsInPairs m (segments x.1)).toNat)
  (helse : ∀ fallback, l.loadPathElse fallback m x.2 owners (segments x.1) w
    = l.loadPath m x.2 owners (segments x.1) w)

include hqs helse

/-- A path that fails ends the loading. -/
theorem stop {e : Error}
    (hload : l.loadPath m x.2 owners (segments x.1) w = ((between, .error e), w.reading qs)) :
    Frugal l m done (x :: rest) owners w := by
  have hstops : l.loadEach m owners (x :: rest) w = ((between, .error e), w.reading qs) := by
    rw [loadEach_cons, hload]
  refine ⟨⟨qs :: rest.map fun _ => [], .cons hqs (budgeted_idle _ _ _), ?_⟩, fun f => ?_, ?_⟩
  · rw [hstops]
    simp
  · rw [hstops, loadEachElse_cons, helse, hload]
  · rw [hstops]
    rintro owners' ⟨⟩

/-- After a path the rest is loaded. -/
theorem go
    (hload : l.loadPath m x.2 owners (segments x.1) w = ((between, .ok ()), w.reading qs))
    (hrest : Frugal l m (done ++ [x]) rest between (w.reading qs)) :
    Frugal l m done (x :: rest) owners w := by
  have hgoes : l.loadEach m owners (x :: rest) w = l.loadEach m between rest (w.reading qs) := by
    rw [loadEach_cons, hload]
  obtain ⟨⟨runs, hruns, hw'⟩, hfallback, hall⟩ := hrest
  refine ⟨⟨qs :: runs, .cons hqs hruns, ?_⟩, fun f => ?_, fun owners' h y hy => ?_⟩
  · rw [hgoes, hw', World.reading_reading, List.flatten_cons]
  · rw [hgoes, loadEachElse_cons, helse, hload]
    exact hfallback f
  · exact hall owners' (hgoes ▸ h) y (by simpa using hy)

end Frugal

theorem loadEach_frugal {done rest : LoadPlan}
    (hends : ∀ x ∈ rest, ∃ above last, segments x.1 = above ++ [last])
    (hordered : done.Ordered rest) (hdone : ∀ y ∈ done, Covers owners (segments y.1)) :
    Frugal l m done rest owners w := by
  induction rest generalizing done owners w with
  | nil =>
    refine ⟨⟨[], .nil, (w.reading_nil).symm⟩, fun _ => rfl, ?_⟩
    rintro owners' ⟨⟩ y hy
    exact hdone y (by simpa using hy)
  | cons x rest ih =>
    obtain ⟨above, last, hsegments⟩ := hends x List.mem_cons_self
    -- the way to the path was loaded before it, so only its last relation takes selections
    have hway := covers_way hsegments hordered hdone
    have hreads : Reads (1 + (l.catalog.endsInPairs m (segments x.1)).toNat)
        (l.loadPath m x.2 owners (segments x.1)) := by
      rw [hsegments]
      exact reads_loadPath hway
    obtain ⟨qs, hqs, hw₁⟩ := hreads w
    have helse : ∀ fallback, l.loadPathElse fallback m x.2 owners (segments x.1) w
        = l.loadPath m x.2 owners (segments x.1) w := by
      intro fallback
      rw [hsegments, loadPathElse_eq hway]
    rcases hload : l.loadPath m x.2 owners (segments x.1) w with ⟨⟨between, result⟩, w₁⟩
    rw [hload] at hw₁
    subst hw₁
    cases result with
    | error e => exact .stop hqs helse hload
    | ok u =>
      obtain ⟨-, hfresh, hlater⟩ := hordered
      refine .go hqs helse hload (ih (fun y hy => hends y (List.mem_cons_of_mem x hy)) hlater ?_)
      rw [hsegments] at hload hfresh
      obtain ⟨hnew, hkept⟩ := covers_of_loadPath hway hload
      intro y hy
      rcases List.mem_append.1 hy with hy | hy
      · exact hkept _ (hdone y hy) (hfresh y hy)
      · rw [List.mem_singleton.1 hy, hsegments]
        exact hnew

/-- A plan for selections is loaded with one selection for each path and one more for each path that
ends in pairs, for any number of owners. No relation on the way is ever missing: whatever would load
it could stand in its place. -/
theorem loadPaths_frugal {g : TypeGraph} {root : TypeNode} {selections : List Selection}
    {plan : LoadPlan} (hgraph : g.BuiltFrom l.catalog) (hdots : l.catalog.Dotless)
    (hroot : g.object m = .ok root)
    (hplan : LoadPlan.ofSelections l.catalog g root selections = .ok plan)
    (owners : List Entity) (w : World) :
    (∃ runs, Budgeted l.catalog m plan.byDepth runs ∧
      (l.loadPaths m owners plan w).2 = w.reading runs.flatten ∧
      runs.flatten.length
        ≤ plan.length + plan.countP fun x => l.catalog.endsInPairs m (segments x.1)) ∧
    (∀ fallback, l.loadPathsElse fallback m owners plan w = l.loadPaths m owners plan w) ∧
    ∀ owners', (l.loadPaths m owners plan w).1 = (owners', .ok ()) →
      ∀ x ∈ plan, Covers owners' (segments x.1) := by
  have hclosed : plan.Closed :=
    (LoadPlan.selected_of_ofSelections hroot ⟨hgraph.faithful, hdots⟩ hplan).toClosed
  have hperm : plan.byDepth.Perm plan := plan.perm_byDepth
  have hends : ∀ x ∈ plan.byDepth, ∃ above last, segments x.1 = above ++ [last] := by
    intro x hx
    obtain ⟨above, last, heq, -⟩ := hclosed.continues x (hperm.subset hx)
    exact ⟨above, last, heq⟩
  have hnothing : ∀ y ∈ ([] : LoadPlan), Covers owners (segments y.1) := fun y hy =>
    (List.not_mem_nil hy).elim
  obtain ⟨⟨runs, hruns, hw⟩, hfallback, hall⟩ :=
    loadEach_frugal (l := l) (m := m) (w := w) hends hclosed.ordered_byDepth hnothing
  refine ⟨⟨runs, hruns, hw, ?_⟩, hfallback, fun owners' h x hx => ?_⟩
  · have hlength := hruns.length_le
    rwa [hperm.length_eq, hperm.countP_eq] at hlength
  · exact hall owners' h x (hperm.symm.subset hx)

section Shelf

open Sample

/-- A selection of authors with their books and the authors of these. -/
def roundSelection : Selection :=
  .mk "authors" "authors" [] [.mk "books" "books" [] [.mk "author" "author" [] []]]

/-- Whether a selection of authors plans some paths. -/
def plansPaths (c : Catalog) (s : Selection) (paths : List String) : Bool :=
  match (shelfTypes c).object Shelf.author with
  | .ok root => match LoadPlan.ofSelections c (shelfTypes c) root [s] with
    | .ok plan => plan.paths == paths
    | .error _ => false
  | .error _ => false

theorem exists_plan_of_plansPaths {c : Catalog} {s : Selection} {paths : List String}
    (h : plansPaths c s paths = true) : ∃ root plan,
      (shelfTypes c).object Shelf.author = .ok root ∧
      LoadPlan.ofSelections c (shelfTypes c) root [s] = .ok plan ∧ plan.paths = paths := by
  unfold plansPaths at h
  split at h
  next root hroot =>
    split at h
    next plan hplan => exact ⟨root, plan, hroot, hplan, beq_iff_eq.1 h⟩
    · cases h
  · cases h

theorem endsInPairs_pairedShelf : (["books", "books.author"].countP fun path =>
    Shelf.pairedCatalog.endsInPairs Shelf.author (segments path)) = 1 := by
  decide +kernel

/-- Where books are paired with authors, any number of authors is loaded with their books and the
authors of these by three selections. -/
theorem loadPaths_frugal_pairedShelf : ∃ root plan,
    (shelfTypes Shelf.pairedCatalog).object Shelf.author = .ok root ∧
    LoadPlan.ofSelections Shelf.pairedCatalog (shelfTypes Shelf.pairedCatalog) root
      [roundSelection] = .ok plan ∧ plan.paths = ["books", "books.author"] ∧
    ∀ owners w, (∃ qs : List Select, qs.length ≤ 3 ∧
      (pairedShelf.loadPaths Shelf.author owners plan w).2 = w.reading qs) ∧
      ∀ fallback, pairedShelf.loadPathsElse fallback Shelf.author owners plan w
        = pairedShelf.loadPaths Shelf.author owners plan w := by
  have hdots : Shelf.pairedCatalog.Dotless := Catalog.dotless_of_all (by decide +kernel)
  have hbuilt : (shelfTypes Shelf.pairedCatalog).BuiltFrom pairedShelf.catalog :=
    .node ⟨Shelf.author, .object⟩ .empty
  have hplanned : plansPaths Shelf.pairedCatalog roundSelection ["books", "books.author"] = true :=
    by decide +kernel
  obtain ⟨root, plan, hroot, hplan, hpaths⟩ := exists_plan_of_plansPaths hplanned
  refine ⟨root, plan, hroot, hplan, hpaths, fun owners w => ?_⟩
  obtain ⟨⟨runs, -, hw, hlength⟩, hfallback, -⟩ :=
    loadPaths_frugal (l := pairedShelf) hbuilt hdots hroot hplan owners w
  have hpairs := endsInPairs_pairedShelf
  rw [← hpaths, LoadPlan.paths, List.countP_map] at hpairs
  have hcount : plan.length = 2 := by
    rw [← List.length_map (·.1)]
    exact congrArg List.length hpaths
  refine ⟨⟨runs.flatten, ?_, hw⟩, hfallback⟩
  calc runs.flatten.length
      ≤ plan.length + plan.countP _ := hlength
    _ = 2 + 1 := congrArg₂ (· + ·) hcount hpairs

end Shelf

end Plan

end Loader

end EntityGraph
