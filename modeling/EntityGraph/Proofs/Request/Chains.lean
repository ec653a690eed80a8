import EntityGraph.Proofs.Filter.Reflexive
import EntityGraph.Proofs.TypeGraph.Fields
import EntityGraph.Request.Plan

/-!
# Chains of selections

A request selects relations inside relations. A way down its selections is a chain if each selection
on it goes through a relation that may be loaded ahead, where connections are passed through the
entities of their edges.

* `Selection.trailsIn` lists the ways down, in the order of the document;
* `TypeNode.Goes` says that a selection goes through a relation;
* `Selection.Chain` are the chains, with the steps that they take;
* `Selection.Rearranged` are selections that differ in order and in the keys of the answer:
  `Selection.Rearranged.exists_trail` says that they have the same ways, and `Selection.Chain.congr`
  that the same of them are chains.
-/

namespace EntityGraph

/-! ### Chains of selections -/

namespace Selection

mutual

/-- The ways from a selection down to those below it, in the order of the document: a way lists the
selections that it passes. -/
def trails : Selection → List (List Selection)
  | .mk key name args children =>
    [.mk key name args children] :: (trailsIn children).map (.mk key name args children :: ·)

/-- The ways from any of some selections. -/
def trailsIn : List Selection → List (List Selection)
  | [] => []
  | s :: rest => trails s ++ trailsIn rest

end

variable {s : Selection} {l l' t : List Selection}

theorem trails_eq (s : Selection) : s.trails = [s] :: (trailsIn s.children).map (s :: ·) := by
  cases s
  rfl

/-- A way from a selection begins with it. -/
theorem exists_eq_cons_of_mem_trails (h : t ∈ s.trails) : ∃ rest, t = s :: rest := by
  rw [trails_eq] at h
  rcases List.mem_cons.1 h with rfl | h
  · exact ⟨[], rfl⟩
  · obtain ⟨rest, -, rfl⟩ := List.mem_map.1 h
    exact ⟨rest, rfl⟩

theorem mem_trailsIn : t ∈ trailsIn l ↔
    ∃ s ∈ l, t = [s] ∨ ∃ rest ∈ trailsIn s.children, t = s :: rest := by
  induction l with
  | nil => simp [trailsIn]
  | cons s l ih =>
    rw [trailsIn, List.mem_append, trails_eq, List.mem_cons, List.mem_map, ih,
      List.exists_mem_cons_iff]
    simp only [eq_comm]

theorem trailsIn_append (l l' : List Selection) :
    trailsIn (l ++ l') = trailsIn l ++ trailsIn l' := by
  induction l with
  | nil => rfl
  | cons s l ih => rw [List.cons_append, trailsIn, trailsIn, ih, List.append_assoc]

theorem ne_nil_of_mem_trailsIn (h : t ∈ trailsIn l) : t ≠ [] := by
  obtain ⟨s, -, rfl | ⟨rest, -, rfl⟩⟩ := mem_trailsIn.1 h
  · exact List.cons_ne_nil _ _
  · exact List.cons_ne_nil _ _

/-- The selections inside the first of a way go on with the way. -/
theorem mem_trailsIn_children {rest : List Selection} (h : s :: rest ∈ trailsIn l)
    (hrest : rest ≠ []) : s ∈ l ∧ rest ∈ trailsIn s.children := by
  obtain ⟨s', hs', heq | ⟨rest', hrest', heq⟩⟩ := mem_trailsIn.1 h
  · exact absurd (List.cons.inj heq).2 hrest
  · obtain ⟨rfl, rfl⟩ := List.cons.inj heq
    exact ⟨hs', hrest'⟩

theorem head_mem_of_mem_trailsIn {rest : List Selection} (h : s :: rest ∈ trailsIn l) : s ∈ l := by
  obtain ⟨s', hs', heq | ⟨rest', -, heq⟩⟩ := mem_trailsIn.1 h
  · exact (List.cons.inj heq).1 ▸ hs'
  · exact (List.cons.inj heq).1 ▸ hs'

/-- A selection of a connection selects entities of its edges. -/
def SelectsNodes (s : Selection) : Prop :=
  ∃ edge ∈ s.children, edge.name = "edges" ∧ ∃ entity ∈ edge.children, entity.name = "node"

theorem descend_eq_nil : s.descend ["edges", "node"] = [] ↔ ¬ s.SelectsNodes := by
  simp only [descend, childrenNamed, List.foldl_cons, List.foldl_nil, List.flatMap_cons,
    List.flatMap_nil, List.append_nil, List.flatMap_eq_nil_iff, List.filter_eq_nil_iff,
    List.mem_filter, beq_iff_eq, SelectsNodes, not_exists, not_and, and_imp]

theorem selectsNodes_of_mem_trailsIn {edge entity : Selection} {rest : List Selection}
    (h : s :: edge :: entity :: rest ∈ trailsIn l) (hedge : edge.name = "edges")
    (hentity : entity.name = "node") : s.SelectsNodes := by
  obtain ⟨-, hrest⟩ := mem_trailsIn_children h (List.cons_ne_nil _ _)
  obtain ⟨hmem, hrest⟩ := mem_trailsIn_children hrest (List.cons_ne_nil _ _)
  exact ⟨edge, hmem, hedge, entity, head_mem_of_mem_trailsIn hrest, hentity⟩

end Selection

/-- A relation on the way of a chain, with the arguments that it is selected with. -/
structure LoadStep where
  name : String
  target : ModelId
  args : List (String × Literal)

/-- The step that a selection takes to a model. -/
def Selection.step (s : Selection) (target : ModelId) : LoadStep :=
  ⟨s.name, target, s.args⟩

/-- A selection on a type goes through a relation: its field leads to entities of a model, perhaps
page by page, and the property that it shows may be loaded ahead. -/
def TypeNode.Goes (node : TypeNode) (s : Selection) (target : ModelId) (paged : Bool) : Prop :=
  ∃ f p, node.field? s.name = some f ∧ f.property = some p ∧ p.eagerLoadDisabled = false ∧
    if paged then f.shape = .connection target
    else f.shape = .toOne target ∨ f.shape = .toMany target

/-- A way down from a type is a chain of relations. Each selection on it goes through a relation; a
connection selects entities of its edges, and the chain continues through such an entity. -/
inductive Selection.Chain (g : TypeGraph) :
    TypeNode → List Selection → List LoadStep → Prop where
  | last {node : TypeNode} {s : Selection} {target : ModelId} {paged : Bool} :
    node.Goes s target paged → (paged = true → s.SelectsNodes) → Chain g node [s] [s.step target]
  | inside {node targetNode : TypeNode} {s : Selection} {target : ModelId} {t : List Selection}
    {steps : List LoadStep} : node.Goes s target false → g.object target = .ok targetNode →
    Chain g targetNode t steps → Chain g node (s :: t) (s.step target :: steps)
  | entry {node targetNode : TypeNode} {s edge entity : Selection} {target : ModelId}
    {t : List Selection} {steps : List LoadStep} : node.Goes s target true →
    edge.name = "edges" → entity.name = "node" → g.object target = .ok targetNode →
    Chain g targetNode t steps → Chain g node (s :: edge :: entity :: t) (s.step target :: steps)

namespace TypeNode

variable {node : TypeNode} {s : Selection} {target target' : ModelId} {paged paged' : Bool}

theorem Goes.unique (h : node.Goes s target paged) (h' : node.Goes s target' paged') :
    target = target' ∧ paged = paged' := by
  obtain ⟨f, p, hf, -, -, hshape⟩ := h
  obtain ⟨f', p', hf', -, -, hshape'⟩ := h'
  obtain rfl := Option.some.inj (hf.symm.trans hf')
  cases paged <;> cases paged' <;>
    simp only [Bool.false_eq_true, if_true, if_false] at hshape hshape'
  · rcases hshape with hshape | hshape <;> rw [hshape] at hshape' <;> simpa using hshape'
  · rcases hshape with hshape | hshape <;> cases hshape.symm.trans hshape'
  · rcases hshape' with hshape' | hshape' <;> cases hshape.symm.trans hshape'
  · rw [hshape] at hshape'
    simpa using hshape'

/-- Planning goes through the relations that a selection goes through, unless it is a connection
without a selected entity. -/
theorem step?_eq_some : LoadPlan.step? node s = some (target, paged) ↔
    node.Goes s target paged ∧ (paged = true → s.SelectsNodes) := by
  unfold LoadPlan.step? Goes
  cases hf : node.field? s.name with
  | none => simp
  | some f =>
    cases hp : f.property with
    | none => simp [hp]
    | some p =>
      cases hdisabled : p.eagerLoadDisabled with
      | true => simp [hp, hdisabled]
      | false =>
        have hnil := Selection.descend_eq_nil (s := s)
        cases hshape : f.shape <;> cases paged <;>
          simp [hp, hdisabled, hshape, List.isEmpty_iff, hnil, and_comm]

end TypeNode

/-! ### Rearranged selections -/

namespace Selection

/-- Selections that differ in their order at any depth, and in their keys in the answer. -/
inductive Rearranged : List Selection → List Selection → Prop where
  | nil : Rearranged [] []
  | cons {key key' name : String} {args : List (String × Literal)}
    {children children' rest rest' : List Selection} : Rearranged children children' →
    Rearranged rest rest' →
    Rearranged (.mk key name args children :: rest) (.mk key' name args children' :: rest')
  | swap (s t : Selection) (rest : List Selection) : Rearranged (s :: t :: rest) (t :: s :: rest)
  | trans {l l' l'' : List Selection} : Rearranged l l' → Rearranged l' l'' → Rearranged l l''

theorem Rearranged.symm {l l' : List Selection} (h : Rearranged l l') : Rearranged l' l := by
  induction h with
  | nil => exact .nil
  | cons _ _ ihchildren ihrest => exact .cons ihchildren ihrest
  | swap s t rest => exact .swap t s rest
  | trans _ _ ih ih' => exact ih'.trans ih

/-- Selections that are alike for planning. -/
structure Alike (s s' : Selection) : Prop where
  name : s.name = s'.name
  args : s.args = s'.args
  nodes : s.SelectsNodes → s'.SelectsNodes

theorem Alike.refl (s : Selection) : s.Alike s := ⟨rfl, rfl, id⟩

theorem Alike.trans {s s' s'' : Selection} (h : s.Alike s') (h' : s'.Alike s'') : s.Alike s'' :=
  ⟨h.name.trans h'.name, h.args.trans h'.args, h'.nodes ∘ h.nodes⟩

theorem selectsNodes_iff {s : Selection} : s.SelectsNodes ↔ ∃ edge entity,
    [edge, entity] ∈ trailsIn s.children ∧ edge.name = "edges" ∧ entity.name = "node" := by
  constructor
  · rintro ⟨edge, hedge, hname, entity, hentity, hnode⟩
    exact ⟨edge, entity, mem_trailsIn.2 ⟨edge, hedge, .inr ⟨[entity], mem_trailsIn.2
      ⟨entity, hentity, .inl rfl⟩, rfl⟩⟩, hname, hnode⟩
  · rintro ⟨edge, entity, hmem, hname, hnode⟩
    obtain ⟨hedge, hrest⟩ := mem_trailsIn_children hmem (List.cons_ne_nil _ _)
    exact ⟨edge, hedge, hname, entity, head_mem_of_mem_trailsIn hrest, hnode⟩

/-- Rearranged selections have the same ways, but for keys. -/
theorem Rearranged.exists_trail {l l' : List Selection} (h : Rearranged l l') :
    ∀ t ∈ trailsIn l, ∃ t' ∈ trailsIn l', List.Forall₂ Alike t t' := by
  induction h with
  | nil => exact fun t ht => nomatch ht
  | @cons key key' name args children children' rest rest' _ _ ihchildren ihrest =>
    have hhead : (mk key name args children).Alike (mk key' name args children') := by
      refine ⟨rfl, rfl, fun hnodes => ?_⟩
      obtain ⟨edge, entity, hmem, hedge, hentity⟩ := selectsNodes_iff.1 hnodes
      obtain ⟨_, hmem', hall⟩ := ihchildren _ hmem
      cases hall with
      | cons hedge' hall =>
        cases hall with
        | cons hentity' hall =>
          cases hall
          exact selectsNodes_iff.2
            ⟨_, _, hmem', hedge'.name.symm.trans hedge, hentity'.name.symm.trans hentity⟩
    intro t ht
    obtain ⟨s, hs, hform⟩ := mem_trailsIn.1 ht
    rcases List.mem_cons.1 hs with rfl | hs
    · rcases hform with rfl | ⟨below, hbelow, rfl⟩
      · exact ⟨_, mem_trailsIn.2 ⟨_, List.mem_cons_self, .inl rfl⟩, .cons hhead .nil⟩
      · obtain ⟨below', hbelow', hall⟩ := ihchildren below hbelow
        exact ⟨_, mem_trailsIn.2 ⟨_, List.mem_cons_self, .inr ⟨below', hbelow', rfl⟩⟩,
          .cons hhead hall⟩
    · obtain ⟨t', ht', hall⟩ := ihrest t (mem_trailsIn.2 ⟨s, hs, hform⟩)
      exact ⟨t', List.mem_append_right _ ht', hall⟩
  | swap s s' rest =>
    intro t ht
    obtain ⟨x, hx, hform⟩ := mem_trailsIn.1 ht
    exact ⟨t, mem_trailsIn.2 ⟨x, (List.Perm.swap s' s rest).mem_iff.1 hx, hform⟩,
      List.forall₂_same.2 fun x _ => .refl x⟩
  | trans _ _ ih ih' =>
    intro t ht
    obtain ⟨t', ht', hall⟩ := ih t ht
    obtain ⟨t'', ht'', hall'⟩ := ih' t' ht'
    refine ⟨t'', ht'', ?_⟩
    -- alikeness is transitive, step by step along the three ways
    clear ht ht' ht''
    induction hall generalizing t'' with
    | nil => exact hall'
    | cons hx _ ih =>
      cases hall' with
      | cons hy hall' => exact .cons (hx.trans hy) (ih _ hall')

/-- Ways that are alike are the same chains. -/
theorem Chain.congr {g : TypeGraph} {node : TypeNode} {t t' : List Selection}
    {steps : List LoadStep} (h : Chain g node t steps) (hall : List.Forall₂ Alike t t') :
    Chain g node t' steps := by
  have hgoes : ∀ {node : TypeNode} {s s' : Selection} {target paged}, s.Alike s' →
      node.Goes s target paged → node.Goes s' target paged := fun hs h => by
    unfold TypeNode.Goes at h ⊢
    rwa [← hs.name]
  have hstep : ∀ {s s' : Selection} (target), s.Alike s' → s.step target = s'.step target :=
    fun target hs => by rw [step, step, hs.name, hs.args]
  induction h generalizing t' with
  | last hs hnodes =>
    cases hall with
    | cons hx hall =>
      cases hall
      rw [hstep _ hx]
      exact .last (hgoes hx hs) fun hpaged => hx.nodes (hnodes hpaged)
  | inside hs hobject _ ih =>
    cases hall with
    | cons hx hall =>
      rw [hstep _ hx]
      exact .inside (hgoes hx hs) hobject (ih hall)
  | entry hs hedge hentity hobject _ ih =>
    cases hall with
    | cons hx hall =>
      cases hall with
      | cons hy hall =>
        cases hall with
        | cons hz hall =>
          rw [hstep _ hx]
          exact .entry (hgoes hx hs) (hy.name.symm.trans hedge) (hz.name.symm.trans hentity) hobject
            (ih hall)

/-- The beginning of a chain is a chain. -/
theorem Chain.exists_part {g : TypeGraph} {node : TypeNode} {l t : List Selection}
    {steps part : List LoadStep} (h : Chain g node t steps) (ht : t ∈ trailsIn l)
    (hpart : part <+: steps) (hne : part ≠ []) : ∃ t' ∈ trailsIn l, Chain g node t' part := by
  have hsingle : ∀ {l : List Selection} {s : Selection}, s ∈ l → [s] ∈ trailsIn l :=
    fun hs => mem_trailsIn.2 ⟨_, hs, .inl rfl⟩
  induction h generalizing l part with
  | last hs hnodes =>
    rcases List.prefix_cons_iff.1 hpart with rfl | ⟨below, rfl, hbelow⟩
    · exact absurd rfl hne
    · obtain rfl := List.prefix_nil.1 hbelow
      exact ⟨_, ht, .last hs hnodes⟩
  | inside hs hobject hrest ih =>
    have hs' := head_mem_of_mem_trailsIn ht
    rcases List.prefix_cons_iff.1 hpart with rfl | ⟨below, rfl, hbelow⟩
    · exact absurd rfl hne
    · -- the part ends here, or goes on below
      rcases eq_or_ne below [] with rfl | hbelowne
      · exact ⟨_, hsingle hs', .last hs nofun⟩
      · obtain ⟨-, hinside⟩ := mem_trailsIn_children ht (by rintro rfl; cases hrest)
        obtain ⟨t', ht', hchain⟩ := ih hinside hbelow hbelowne
        exact ⟨_, mem_trailsIn.2 ⟨_, hs', .inr ⟨t', ht', rfl⟩⟩, .inside hs hobject hchain⟩
  | @entry node targetNode s edge entity target t steps hs hedge hentity hobject hrest ih =>
    have hs' := head_mem_of_mem_trailsIn ht
    rcases List.prefix_cons_iff.1 hpart with rfl | ⟨below, rfl, hbelow⟩
    · exact absurd rfl hne
    · rcases eq_or_ne below [] with rfl | hbelowne
      · exact ⟨_, hsingle hs',
          .last hs fun _ => selectsNodes_of_mem_trailsIn ht hedge hentity⟩
      · have hrestne : t ≠ [] := by
          rintro rfl
          cases hrest
        obtain ⟨-, hinside⟩ := mem_trailsIn_children ht (List.cons_ne_nil _ _)
        obtain ⟨hmem, hinside⟩ := mem_trailsIn_children hinside (List.cons_ne_nil _ _)
        obtain ⟨hmem', hinside⟩ := mem_trailsIn_children hinside hrestne
        obtain ⟨t', ht', hchain⟩ := ih hinside hbelow hbelowne
        refine ⟨s :: edge :: entity :: t', ?_, .entry hs hedge hentity hobject hchain⟩
        exact mem_trailsIn.2 ⟨s, hs', .inr ⟨_, mem_trailsIn.2 ⟨edge, hmem, .inr
          ⟨_, mem_trailsIn.2 ⟨entity, hmem', .inr ⟨t', ht', rfl⟩⟩, rfl⟩⟩, rfl⟩⟩

/-- The steps of a chain are those of selections on it. -/
theorem Chain.exists_step {g : TypeGraph} {node : TypeNode} {t : List Selection}
    {steps : List LoadStep} (h : Chain g node t steps) {step : LoadStep} (hstep : step ∈ steps) :
    ∃ s ∈ t, ∃ target, step = s.step target := by
  induction h with
  | last =>
    obtain rfl := List.mem_singleton.1 hstep
    exact ⟨_, List.mem_cons_self, _, rfl⟩
  | inside _ _ _ ih =>
    rcases List.mem_cons.1 hstep with rfl | hstep
    · exact ⟨_, List.mem_cons_self, _, rfl⟩
    · obtain ⟨s, hs, heq⟩ := ih hstep
      exact ⟨s, List.mem_cons_of_mem _ hs, heq⟩
  | entry _ _ _ _ _ ih =>
    rcases List.mem_cons.1 hstep with rfl | hstep
    · exact ⟨_, List.mem_cons_self, _, rfl⟩
    · obtain ⟨s, hs, heq⟩ := ih hstep
      exact ⟨s, List.mem_cons_of_mem _ (List.mem_cons_of_mem _ (List.mem_cons_of_mem _ hs)), heq⟩

/-- Selections without any arguments. -/
def Bare (l : List Selection) : Prop :=
  ∀ t ∈ trailsIn l, ∀ s ∈ t, s.args = []

end Selection

end EntityGraph
