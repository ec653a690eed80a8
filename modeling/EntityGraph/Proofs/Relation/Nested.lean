import Mathlib.Data.List.Forall2
import EntityGraph.Proofs.Dict
import EntityGraph.Proofs.Outcome
import EntityGraph.Proofs.Run.Action
import EntityGraph.Relation.Loader

/-!
# Loading at the end of a path

A path is loaded for the entities that the relations before its last one reach. Nothing else
changes: `Entity.Differ` says that two entities differ at most in what is loaded under one name at
the end of a path, and `Loader.loadPath_eq_ok` that loading a path leaves entities so.
-/

namespace EntityGraph

/-- An entity without its loaded relations. -/
def Entity.bare (e : Entity) : Entity :=
  Entity.of e.model e.attributes

/-- Loaded targets without their loaded relations. -/
def Loaded.bare : Loaded → Loaded
  | one target => one (target.map Entity.bare)
  | many targets => many (targets.map Entity.bare)

theorem Entity.bare_eq_iff {e e' : Entity} :
    e.bare = e'.bare ↔ e.model = e'.model ∧ e.attributes = e'.attributes := by
  simp [bare, of]

theorem Entity.map_bare_eq {R : Entity → Entity → Prop} {as bs : List Entity}
    (h : List.Forall₂ R as bs) (hR : ∀ a b, R a b → b.bare = a.bare) :
    bs.map Entity.bare = as.map Entity.bare := by
  induction h with
  | nil => rfl
  | cons hab _ ih => rw [List.map_cons, List.map_cons, hR _ _ hab, ih]

/-- The model at the end of a path of relations. -/
def Catalog.follow (c : Catalog) (model : ModelId) : List String → Except Error ModelId
  | [] => .ok model
  | property :: path => do
    let r ← c.relation model property
    c.follow r.target path

/-- Loaded targets of one form, related item by item. -/
inductive Loaded.Pointwise (R : Entity → Entity → Prop) : Loaded → Loaded → Prop where
  | one {a b : Option Entity} : Option.Rel R a b → Pointwise R (.one a) (.one b)
  | many {as bs : List Entity} : List.Forall₂ R as bs → Pointwise R (.many as) (.many bs)

/-- Two entities differ at most in what is loaded under a name at the end of a path. -/
def Entity.Differ (name : String) : List String → Entity → Entity → Prop
  | [], e, e' => e'.bare = e.bare ∧ ∀ p, p ≠ name → e'.relation p = e.relation p
  | q :: path, e, e' => e'.bare = e.bare ∧ (∀ p, p ≠ q → e'.relation p = e.relation p) ∧
    Option.Rel (Loaded.Pointwise (Differ name path)) (e.relation q) (e'.relation q)

namespace Loaded.Pointwise

variable {R : Entity → Entity → Prop} {x y : Loaded}

theorem toList (h : Pointwise R x y) : List.Forall₂ R x.toList y.toList := by
  cases h with
  | one h =>
    cases h with
    | none => exact .nil
    | some h => exact .cons h .nil
  | many h => exact h

theorem bare_eq (h : Pointwise R x y) (hR : ∀ a b, R a b → b.bare = a.bare) : y.bare = x.bare := by
  cases h with
  | one h =>
    cases h with
    | none => rfl
    | some h => exact congrArg (fun e => Loaded.one (some e)) (hR _ _ h)
  | many h => exact congrArg Loaded.many (Entity.map_bare_eq h hR)

variable {a b : Option Loaded}

theorem elim_toList (h : Option.Rel (Pointwise R) a b) :
    List.Forall₂ R (a.elim [] Loaded.toList) (b.elim [] Loaded.toList) := by
  cases h with
  | none => exact .nil
  | some h => exact h.toList

theorem map_bare_eq (h : Option.Rel (Pointwise R) a b) (hR : ∀ a b, R a b → b.bare = a.bare) :
    b.map Loaded.bare = a.map Loaded.bare := by
  cases h with
  | none => rfl
  | some h => exact congrArg some (h.bare_eq hR)

end Loaded.Pointwise

namespace Entity.Differ

variable {name : String} {path : List String} {e e' : Entity}

theorem bare_eq (h : Differ name path e e') : e'.bare = e.bare := by
  cases path with
  | nil => exact h.1
  | cons q path => exact h.1

/-- What is loaded elsewhere is the same, up to relations further on. -/
theorem relation_bare {p : String} (h : Differ name path e e') (hp : path ++ [name] ≠ [p]) :
    (e'.relation p).map Loaded.bare = (e.relation p).map Loaded.bare := by
  cases path with
  | nil =>
    have hne : p ≠ name := fun heq => hp (by rw [heq, List.nil_append])
    rw [h.2 p hne]
  | cons q path =>
    by_cases hq : p = q
    · subst hq
      exact Loaded.Pointwise.map_bare_eq h.2.2 fun _ _ => bare_eq
    · rw [h.2.1 p hq]

end Entity.Differ

namespace Loader

/-- The entities that a path of relations reaches. -/
def reach : List String → List Entity → List Entity
  | [], owners => owners
  | property :: path, owners => reach path (along property owners)

section Reach

variable {name q : String} {path : List String} {owners owners' : List Entity}

theorem reach_append (path : List String) (q : String) (owners : List Entity) :
    reach (path ++ [q]) owners = along q (reach path owners) := by
  induction path generalizing owners with
  | nil => rfl
  | cons p path ih => exact ih (along p owners)

theorem along_eq {R : Entity → Entity → Prop} (h : List.Forall₂ R owners owners')
    (hR : ∀ e e', R e e' → e'.relation q = e.relation q) : along q owners' = along q owners := by
  induction h with
  | nil => rfl
  | cons hab _ ih =>
    simp only [along, List.flatMap_cons] at ih ⊢
    rw [hR _ _ hab, ih]

theorem forall₂_along {R S : Entity → Entity → Prop} (h : List.Forall₂ R owners owners')
    (hR : ∀ e e', R e e' → Option.Rel (Loaded.Pointwise S) (e.relation q) (e'.relation q)) :
    List.Forall₂ S (along q owners) (along q owners') := by
  induction h with
  | nil => exact .nil
  | cons hab _ ih =>
    simp only [along, List.flatMap_cons] at ih ⊢
    exact List.rel_append (Loaded.Pointwise.elim_toList (hR _ _ hab)) ih

/-- What is loaded at the end of another path is the same, up to relations further on. -/
theorem reach_differ {above : List String} {last : String}
    (hne : ¬ path ++ [name] <+: above ++ [last])
    (h : List.Forall₂ (Entity.Differ name path) owners owners') :
    List.Forall₂ (fun e e' => e'.bare = e.bare ∧
      (e'.relation last).map Loaded.bare = (e.relation last).map Loaded.bare)
        (reach above owners) (reach above owners') := by
  induction above generalizing path owners owners' with
  | nil =>
    refine h.imp fun e e' hdiffer => ⟨hdiffer.bare_eq, hdiffer.relation_bare fun heq => hne ?_⟩
    rw [heq]
    exact List.prefix_refl _
  | cons a above ih =>
    have hrefl : along a owners' = along a owners → List.Forall₂ (fun e e' => e'.bare = e.bare ∧
        (e'.relation last).map Loaded.bare = (e.relation last).map Loaded.bare)
          (reach (a :: above) owners) (reach (a :: above) owners') := by
      intro heq
      rw [reach, reach, heq]
      exact List.forall₂_same.2 fun e _ => ⟨rfl, rfl⟩
    cases path with
    | nil =>
      have ha : a ≠ name := fun heq => hne (by simp [heq])
      exact hrefl (along_eq h fun e e' hdiffer => hdiffer.2 a ha)
    | cons q path =>
      by_cases ha : a = q
      · subst ha
        refine ih (fun hpart => hne ?_) (forall₂_along h fun e e' hdiffer => hdiffer.2.2)
        exact (List.prefix_cons_inj a).2 hpart
      · exact hrefl (along_eq h fun e e' hdiffer => hdiffer.2.1 a ha)

end Reach

section PutBack

variable {R : Entity → Entity → Prop} {q : String} {owners entities : List Entity}

theorem replaceTargets_pointwise {loaded : Loaded} {targets : List Entity}
    (h : List.Forall₂ R loaded.toList targets) :
    Loaded.Pointwise R loaded (replaceTargets targets loaded) ∧
      (replaceTargets targets loaded).toList = targets := by
  cases loaded with
  | one target =>
    cases target with
    | none =>
      cases h
      exact ⟨.one .none, rfl⟩
    | some a =>
      cases h with
      | cons hab hrest =>
        cases hrest
        exact ⟨.one (.some hab), rfl⟩
  | many targets => exact ⟨.many h, rfl⟩

/-- Entities put back are those that are loaded along the relation afterwards. -/
theorem putBack_spec (h : List.Forall₂ R (along q owners) entities) :
    along q (putBack q owners entities) = entities ∧
      List.Forall₂ (fun e e' => e'.bare = e.bare ∧ (∀ p, p ≠ q → e'.relation p = e.relation p) ∧
        Option.Rel (Loaded.Pointwise R) (e.relation q) (e'.relation q))
          owners (putBack q owners entities) := by
  induction owners generalizing entities with
  | nil =>
    cases h
    exact ⟨rfl, .nil⟩
  | cons owner rest ih =>
    rw [putBack]
    cases hslot : owner.relation q with
    | none =>
      have hrest : along q (owner :: rest) = along q rest := by simp [along, hslot]
      rw [hrest] at h
      obtain ⟨halong, hforall⟩ := ih h
      refine ⟨?_, .cons ⟨rfl, fun _ _ => rfl, by rw [hslot]; exact .none⟩ hforall⟩
      simpa [along, hslot] using halong
    | some loaded =>
      have hrest : along q (owner :: rest) = loaded.toList ++ along q rest := by
        simp [along, hslot]
      rw [hrest] at h
      -- the first entities are those of this owner, the others are left for the rest
      have htake := List.forall₂_take loaded.toList.length h
      have hdrop := List.forall₂_drop loaded.toList.length h
      rw [List.take_left] at htake
      rw [List.drop_left] at hdrop
      obtain ⟨halong, hforall⟩ := ih hdrop
      obtain ⟨hpointwise, htoList⟩ := replaceTargets_pointwise htake
      dsimp only
      set targets := entities.take loaded.toList.length with htargets
      have hget : ∀ p, (owner.relations.set q (replaceTargets targets loaded)).get? p
          = if p = q then some (replaceTargets targets loaded) else owner.relation p :=
        fun p => Dict.get?_set _ _ _ _
      have hfirst : (Entity.mk owner.model owner.attributes
          (owner.relations.set q (replaceTargets targets loaded)) owner.restrictions).relation q
          = some (replaceTargets targets loaded) := (hget q).trans (if_pos rfl)
      refine ⟨?_, .cons ⟨rfl, fun p hp => ?_, ?_⟩ hforall⟩
      · rw [along, List.flatMap_cons, hfirst, Option.elim_some, htoList]
        exact (congrArg (targets ++ ·) halong).trans (List.take_append_drop _ _)
      · exact (hget p).trans (if_neg hp)
      · rw [hslot, hfirst]
        exact .some hpointwise

end PutBack

section Paths

variable {l : Loader} {model : ModelId} {args : ListArgs} {owners owners' : List Entity}
  {w w' : World}

theorem tryLoad_eq_ok {property : String}
    (h : l.tryLoad model owners property args w = ((owners', .ok ()), w')) :
    (l.load model owners property args).runIn w = (.ok owners', w') := by
  rcases hload : (l.load model owners property args).runIn w with ⟨result, w₁⟩
  have hrun : (l.load model owners property args).run w = (result, w₁) := hload
  rw [tryLoad, World.bind_apply, hrun] at h
  cases result with
  | error e => cases h
  | ok loaded =>
    cases h
    rfl

/-- What remains of a path behind its first relation, once the owners have that relation. -/
def passOn (l : Loader) (model : ModelId) (args : ListArgs) (property next : String)
    (rest : List String) (outcome : Outcome) : StateM World Outcome :=
  match outcome.2 with
  | .error e => pure (outcome.1, .error e)
  | .ok () =>
    match l.catalog.relation model property with
    | .error e => pure (outcome.1, .error e)
    | .ok r => do
      let below ← l.loadPath r.target args (along property outcome.1) (next :: rest)
      return (putBack property outcome.1 below.1, below.2)

theorem loadPath_cons_cons (property next : String) (rest : List String) :
    l.loadPath model args owners (property :: next :: rest)
      = (if owners.any fun owner => (owner.relation property).isNone then
          l.tryLoad model owners property ListArgs.none
        else pure (owners, .ok ())) >>= l.passOn model args property next rest := by
  rw [loadPath]
  split_ifs <;> rfl

/-- A relation that all owners have is passed on the way to the next. -/
theorem loadPath_cons_eq_ok {q : String} {path : List String} (hpath : path ≠ [])
    (hway : ∀ o ∈ owners, (o.relation q).isSome)
    (h : l.loadPath model args owners (q :: path) w = ((owners', .ok ()), w')) :
    ∃ r entities, l.catalog.relation model q = .ok r ∧
      l.loadPath r.target args (along q owners) path w = ((entities, .ok ()), w') ∧
      owners' = putBack q owners entities := by
  obtain ⟨next, rest, rfl⟩ := List.exists_cons_of_ne_nil hpath
  have hnone : (owners.any fun owner => (owner.relation q).isNone) = false := by
    simpa [Option.isSome_iff_ne_none] using hway
  rw [loadPath_cons_cons, if_neg (by rw [hnone]; exact Bool.false_ne_true)] at h
  have hpass : l.passOn model args q next rest (owners, .ok ()) w = ((owners', .ok ()), w') := h
  unfold passOn at hpass
  cases hr : l.catalog.relation model q with
  | error e =>
    rw [hr] at hpass
    cases hpass
  | ok r =>
    rw [hr] at hpass
    rcases hbelow : l.loadPath r.target args (along q owners) (next :: rest) w
      with ⟨⟨entities, result⟩, w₁⟩
    dsimp only at hpass
    rw [World.bind_apply, hbelow] at hpass
    cases hpass
    exact ⟨r, entities, rfl, hbelow, rfl⟩

/-- A loaded path is loaded for what the relations before its last one reach. -/
theorem loadPath_eq_ok {above : List String} {last : String}
    (hway : ∀ a b, a ++ [b] <+: above → ∀ o ∈ reach a owners, (o.relation b).isSome)
    (h : l.loadPath model args owners (above ++ [last]) w = ((owners', .ok ()), w')) :
    ∃ m r share, l.catalog.follow model above = .ok m ∧ l.catalog.relation m last = .ok r ∧
      (l.shares r args (reach above owners)).runIn w = (.ok share, w') ∧
      reach above owners'
        = (reach above owners).map (fun o => o.setRestricted last (share o) args) ∧
      List.Forall₂ (Entity.Differ last above) owners owners' := by
  induction above generalizing model owners owners' with
  | nil =>
    have hload := tryLoad_eq_ok h
    unfold load at hload
    obtain ⟨r, hr, hload⟩ := Action.runIn_ofExcept_bind_eq_ok.1 hload
    obtain ⟨share, w₁, hshares, hload⟩ := Action.runIn_bind_eq_ok.1 hload
    obtain ⟨rfl, rfl⟩ := Action.runIn_pure_eq_ok.1 hload
    refine ⟨model, r, share, rfl, hr, hshares, rfl, ?_⟩
    refine List.forall₂_map_right_iff.2 (List.forall₂_same.2 fun o _ => ⟨rfl, fun p hp => ?_⟩)
    exact (Dict.get?_set _ _ _ _).trans (if_neg hp)
  | cons q above ih =>
    have hfirst : ∀ o ∈ owners, (o.relation q).isSome :=
      hway [] q (List.prefix_cons_inj q |>.2 List.nil_prefix)
    obtain ⟨r, entities, hr, hbelow, rfl⟩ :=
      loadPath_cons_eq_ok (by simp) hfirst h
    obtain ⟨m, r', share, hfollow, hr', hshares, hreach, hforall⟩ := ih
      (fun a b hpart => hway (q :: a) b ((List.prefix_cons_inj q).2 hpart)) hbelow
    obtain ⟨halong, hput⟩ := putBack_spec hforall
    refine ⟨m, r', share, bind_eq_ok.2 ⟨r, hr, hfollow⟩, hr', hshares, ?_, hput⟩
    rw [reach, halong, hreach, reach]

end Paths

end Loader

end EntityGraph
