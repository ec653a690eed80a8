import EntityGraph.Proofs.Relation.Link
import EntityGraph.Proofs.Relation.Nested
import EntityGraph.Proofs.Text.Cut
import EntityGraph.Proofs.TypeGraph.Faithful
import EntityGraph.Proofs.TypeGraph.Fields
import EntityGraph.Request.Plan

/-!
# What plans plan

A plan has each path once, as a list of the names of its relations, and with a path the path that it
continues (`LoadPlan.Closed`). A relation to one entity is planned without restrictions where it is
selected without arguments (`LoadPlan.Sound`).

* `Selection.On` are the fields that selections reach on the types of a graph;
* `LoadPlan.selected_of_ofSelections` says that planning keeps plans closed and plans what fields on
  those types ask for, and `LoadPlan.sound_of_ofSelections` that it keeps them sound;
* `LoadPlan.Closed.ordered` says that a closed plan can be loaded with short paths first.
-/

namespace EntityGraph

namespace Loader

theorem segments_eq (path : String) :
    segments path = (path.toList.splitOn '.').map String.ofList := by
  rw [segments, Text.splitBy_eq_splitOnP, List.splitOn_eq_splitOnP]

/-- A path is determined by its relations. -/
theorem segments_injective {path path' : String} (h : segments path = segments path') :
    path = path' := by
  rw [segments_eq, segments_eq] at h
  have hpieces : path.toList.splitOn '.' = path'.toList.splitOn '.' :=
    List.map_injective_iff.2 (fun _ _ => String.ofList_inj.1) h
  have hjoined := congrArg ['.'].intercalate hpieces
  rw [List.intercalate_splitOn, List.intercalate_splitOn] at hjoined
  exact String.toList_inj.1 hjoined

/-- The relations of the path that a relation extends. -/
theorem segments_extend {name : String} (path : Option String) (hname : '.' ∉ name.toList) :
    segments (LoadPlan.extend path name) = path.elim [] segments ++ [name] := by
  have hone : segments name = [name] := by
    rw [segments_eq, List.splitOn_eq_singleton hname, List.map_singleton, String.ofList_toList]
  cases path with
  | none => exact hone
  | some above =>
    rw [Option.elim_some, ← hone, segments_eq, segments_eq, segments_eq, ← List.map_append]
    have htoList : (LoadPlan.extend (some above) name).toList
        = above.toList ++ '.' :: name.toList := by simp [LoadPlan.extend]
    rw [htoList, List.splitOn_append_cons_self]

end Loader

/-- The names of properties hold no dot. -/
def Catalog.Dotless (c : Catalog) : Prop :=
  ∀ model properties, c.describe model = .ok properties → ∀ p ∈ properties, '.' ∉ p.name.toList

namespace Catalog

variable {c : Catalog} {m : ModelId}

theorem Dotless.property {name : String} {p : Property} (h : c.Dotless)
    (hp : c.property m name = .ok p) : '.' ∉ name.toList := by
  obtain ⟨properties, hproperties, hfind⟩ := bind_eq_ok.1 hp
  have hfound := elim_error_eq_ok.1 hfind
  have hname : p.name = name := by simpa using List.find?_some hfound
  exact hname ▸ h m properties hproperties p (List.mem_of_find?_eq_some hfound)

/-- Whether names hold a dot shows in the annotations of the known models. -/
theorem dotless_of_all (h : (c.allProperties fun p => !p.name.toList.contains '.') = true) :
    c.Dotless := by
  intro m properties hproperties p hp
  simpa using of_allProperties h hproperties hp

theorem follow_append_eq_ok {path : List String} {last : String} {model : ModelId} :
    c.follow m (path ++ [last]) = .ok model ↔ ∃ above r, c.follow m path = .ok above ∧
      c.relation above last = .ok r ∧ r.target = model := by
  induction path generalizing m with
  | nil => simp [follow, bind_eq_ok]
  | cons q path ih =>
    simp only [List.cons_append, follow, bind_eq_ok, ih]
    constructor
    · rintro ⟨r, hr, above, r', hbelow, hr', htarget⟩
      exact ⟨above, r', ⟨r, hr, hbelow⟩, hr', htarget⟩
    · rintro ⟨above, r', ⟨r, hr, hbelow⟩, hr', htarget⟩
      exact ⟨r, hr, above, r', hbelow, hr', htarget⟩

end Catalog

theorem TypeGraph.object_eq_ok {g : TypeGraph} {target : ModelId} {node : TypeNode}
    (h : g.object target = .ok node) : node ∈ g.nodes ∧ node.key = ⟨target, .object⟩ := by
  have hfind := elim_error_eq_ok.1 h
  exact ⟨List.mem_of_find?_eq_some hfind, by simpa using List.find?_some hfind⟩

/-- The fields that selections of entities of a type reach on the types of a graph: those inside the
field of a relation are on the type of its targets, through edges for a connection. -/
inductive Selection.On (g : TypeGraph) (root : TypeNode) (selections : List Selection) :
    TypeNode → Selection → Prop where
  | top {s : Selection} : s ∈ selections → On g root selections root s
  | inside {node targetNode : TypeNode} {s s' : Selection} {f : FieldNode} {target : ModelId} :
    On g root selections node s → node.field? s.name = some f →
    f.shape = .toOne target ∨ f.shape = .toMany target → g.object target = .ok targetNode →
    s' ∈ s.children → On g root selections targetNode s'
  | entry {node targetNode : TypeNode} {s edge entity s' : Selection} {f : FieldNode}
    {target : ModelId} : On g root selections node s → node.field? s.name = some f →
    f.shape = .connection target → g.object target = .ok targetNode →
    edge ∈ s.childrenNamed "edges" → entity ∈ edge.childrenNamed "node" → s' ∈ entity.children →
    On g root selections targetNode s'

/-- The fields of relations to one entity are selected without arguments. -/
def Selection.PlainOnes (g : TypeGraph) (root : TypeNode) (selections : List Selection) : Prop :=
  ∀ node s, On g root selections node s → ∀ f target, node.field? s.name = some f →
    f.shape = .toOne target → s.args = []

/-- Selections without any arguments are plain. -/
theorem Selection.plainOnes_of_family {g : TypeGraph} {root : TypeNode}
    {selections family : List Selection} (hselections : selections ⊆ family)
    (hargs : ∀ s ∈ family, s.args = []) (hchildren : ∀ s ∈ family, s.children ⊆ family) :
    PlainOnes g root selections := by
  have hmem : ∀ node s, On g root selections node s → s ∈ family := by
    intro node s hon
    induction hon with
    | top hs => exact hselections hs
    | inside _ _ _ _ hs ih => exact hchildren _ ih hs
    | entry _ _ _ _ hedge hentity hs ih =>
      have hedge := hchildren _ ih (List.mem_of_mem_filter hedge)
      exact hchildren _ (hchildren _ hedge (List.mem_of_mem_filter hentity)) hs
  exact fun node s hon f target _ _ => hargs s (hmem node s hon)

namespace LoadPlan

/-- A plan for entities of a model loads a relation, with some restrictions of its targets. -/
def Loads (c : Catalog) (m : ModelId) (p : LoadPlan) (r : Relation) (args : ListArgs) : Prop :=
  ∃ path above last model, (path, args) ∈ p ∧ Loader.segments path = above ++ [last] ∧
    c.follow m above = .ok model ∧ c.relation model last = .ok r

/-- What a plan promises of its paths: each is planned once, and continues a planned path. -/
structure Closed (p : LoadPlan) : Prop where
  distinct : (p.map fun x => Loader.segments x.1).Nodup
  continues : ∀ x ∈ p, ∃ above last, Loader.segments x.1 = above ++ [last] ∧
    (above = [] ∨ ∃ y ∈ p, Loader.segments y.1 = above)

/-- What a plan for entities of a model promises: its paths are closed, and the targets of a relation
to one entity are not restricted. -/
structure Sound (c : Catalog) (m : ModelId) (p : LoadPlan) : Prop extends Closed p where
  plain : ∀ r args, p.Loads c m r args → r.link.isToOne = true → args = ListArgs.none

/-- With a path every part of it from the start is planned. -/
theorem Closed.exists_prefix {p : LoadPlan} (hp : p.Closed) {x : String × ListArgs} (hx : x ∈ p)
    {path : List String} {last : String} (h : path ++ [last] <+: Loader.segments x.1) :
    ∃ y ∈ p, Loader.segments y.1 = path ++ [last] := by
  induction hn : (Loader.segments x.1).length generalizing x with
  | zero =>
    rw [List.length_eq_zero_iff.1 hn, List.prefix_nil] at h
    simp at h
  | succ n ih =>
    obtain ⟨above, last', hsegments, habove⟩ := hp.continues x hx
    rw [hsegments] at h hn
    rcases List.prefix_concat_iff.1 h with heq | hpart
    · exact ⟨x, hx, hsegments.trans heq.symm⟩
    · rcases habove with rfl | ⟨y, hy, rfl⟩
      · rw [List.prefix_nil] at hpart
        simp at hpart
      · refine ih hy hpart ?_
        rw [List.length_append, List.length_singleton] at hn
        omega

/-- A plan can be loaded in order after what is done: the parts of a path come before it, and no
path that goes through it does. -/
def Ordered : LoadPlan → LoadPlan → Prop
  | _, [] => True
  | done, x :: rest =>
    (∀ path last, path ++ [last] <+: Loader.segments x.1 → path ++ [last] ≠ Loader.segments x.1 →
      ∃ y ∈ done, Loader.segments y.1 = path ++ [last]) ∧
    (∀ y ∈ done, ¬ Loader.segments x.1 <+: Loader.segments y.1) ∧ Ordered (done ++ [x]) rest

/-- Short paths before long ones is an order in which a plan can be loaded. -/
theorem Closed.ordered {p done rest : LoadPlan} (hp : p.Closed) (hperm : (done ++ rest).Perm p)
    (hsorted : (done ++ rest).Pairwise fun x y =>
      (Loader.segments x.1).length ≤ (Loader.segments y.1).length) : Ordered done rest := by
  induction rest generalizing done with
  | nil => trivial
  | cons x rest ih =>
    have hdistinct : ((done ++ x :: rest).map fun x => Loader.segments x.1).Nodup :=
      (hperm.map _).nodup_iff.2 hp.distinct
    obtain ⟨-, hafter, hle⟩ := List.pairwise_append.1 hsorted
    have hx : x ∈ p := hperm.subset (List.mem_append_right _ List.mem_cons_self)
    refine ⟨fun path last hpart hne => ?_, fun y hy hpart => ?_,
      ih (by rwa [List.append_assoc]) (by rwa [List.append_assoc])⟩
    · obtain ⟨y, hy, heq⟩ := hp.exists_prefix hx hpart
      have hlt : (Loader.segments y.1).length < (Loader.segments x.1).length := by
        rw [heq]
        exact Nat.lt_of_le_of_ne hpart.length_le fun heq => hne (hpart.eq_of_length heq)
      rcases List.mem_append.1 (hperm.symm.subset hy) with hdone | hrest
      · exact ⟨y, hdone, heq⟩
      · rcases List.mem_cons.1 hrest with rfl | hrest
        · omega
        · have := (List.pairwise_cons.1 hafter).1 y hrest
          omega
    · have hlength := hle y hy x List.mem_cons_self
      have heq := hpart.eq_of_length (Nat.le_antisymm hpart.length_le hlength)
      rw [List.map_append, List.map_cons] at hdistinct
      exact List.disjoint_of_nodup_append hdistinct (List.mem_map.2 ⟨y, hy, rfl⟩)
        (heq ▸ List.mem_cons_self)

/-- A plan with short paths before long ones. -/
def byDepth (p : LoadPlan) : LoadPlan :=
  p.mergeSort fun x y => (Loader.segments x.1).length ≤ (Loader.segments y.1).length

theorem perm_byDepth (p : LoadPlan) : p.byDepth.Perm p :=
  List.mergeSort_perm p _

theorem Closed.ordered_byDepth {p : LoadPlan} (hp : p.Closed) : Ordered [] p.byDepth := by
  refine hp.ordered p.perm_byDepth ?_
  have hsorted : p.byDepth.Pairwise fun x y =>
      decide ((Loader.segments x.1).length ≤ (Loader.segments y.1).length) = true :=
    List.pairwise_mergeSort
      (fun a b c hab hbc => by simp only [decide_eq_true_eq] at hab hbc ⊢; omega)
      (fun a b => by simp only [Bool.or_eq_true, decide_eq_true_eq]; omega) p
  exact hsorted.imp of_decide_eq_true

/-- A path is planned for a field that selections reach, with the arguments of the field. Where the
relation of the field leads to one entity from the model that the path leads to, the field shows
so. -/
def Selected (c : Catalog) (g : TypeGraph) (m : ModelId) (root : TypeNode)
    (selections : List Selection) (x : String × ListArgs) : Prop :=
  ∃ above node s f target, Loader.segments x.1 = above ++ [s.name] ∧
    Selection.On g root selections node s ∧ node.field? s.name = some f ∧
    ListArgs.parse c target s.args = .ok x.2 ∧
    ∀ model r, c.follow m above = .ok model → c.relation model s.name = .ok r →
      r.link.isToOne = true → f.shape = .toOne target

/-- A plan for selections is closed, and its paths are planned for their fields. -/
structure Planned (c : Catalog) (g : TypeGraph) (m : ModelId) (root : TypeNode)
    (selections : List Selection) (p : LoadPlan) : Prop extends Closed p where
  selected : ∀ x ∈ p, Selected c g m root selections x

/-- Planning is at a type below a planned path of relations that lead to the model of the type. -/
structure Reaches (c : Catalog) (g : TypeGraph) (m : ModelId) (p : LoadPlan) (path : Option String)
    (node : TypeNode) : Prop where
  planned : ∀ above ∈ path, above ∈ p.paths
  model_eq : ∀ model, c.follow m (path.elim [] Loader.segments) = .ok model →
    model = node.key.model
  mem : node ∈ g.nodes
  object : node.key.kind = .object

section Step

variable {c : Catalog} {g : TypeGraph} {m : ModelId} {root : TypeNode} {selections : List Selection}
  {p p' : LoadPlan} {path : Option String} {node : TypeNode} {name : String} {args : ListArgs}

theorem Reaches.mono (h : p.Reaches c g m path node) (hsub : p ⊆ p') :
    p'.Reaches c g m path node :=
  ⟨fun above habove => List.map_subset _ hsub (h.planned above habove), h.model_eq, h.mem, h.object⟩

theorem planned_nil : Planned c g m root selections [] :=
  ⟨⟨List.nodup_nil, fun _ h => (List.not_mem_nil h).elim⟩, fun _ h => (List.not_mem_nil h).elim⟩

/-- A plan stays closed with a path that continues a planned one. -/
theorem Closed.addPath (hp : p.Closed) {isNew : Bool} (hplanned : ∀ above ∈ path, above ∈ p.paths)
    (hname : '.' ∉ name.toList) (h : p.addPath (extend path name) args = (p', isNew)) :
    p ⊆ p' ∧ p'.Closed ∧ extend path name ∈ p'.paths ∧
      ∀ x ∈ p', x ∈ p ∨ x = (extend path name, args) := by
  have hsegments := Loader.segments_extend path hname
  unfold LoadPlan.addPath at h
  split at h
  next hnew =>
    cases h
    have hfresh : ∀ x ∈ p, x.1 ≠ extend path name := fun x hx heq => by
      simpa [heq] using List.lookup_eq_none_iff.1 hnew x hx
    refine ⟨List.subset_append_left _ _, ⟨?_, ?_⟩, by simp [paths], fun x hx => by simpa using hx⟩
    · rw [List.map_append, List.nodup_append]
      refine ⟨hp.distinct, List.nodup_singleton _, fun a ha b hb heq => ?_⟩
      obtain ⟨x, hx, rfl⟩ := List.mem_map.1 ha
      rw [List.map_singleton, List.mem_singleton] at hb
      exact hfresh x hx (Loader.segments_injective (heq.trans hb))
    · intro x hx
      rcases List.mem_append.1 hx with hx | hx
      · obtain ⟨above, last, heq, habove⟩ := hp.continues x hx
        exact ⟨above, last, heq, habove.imp_right fun ⟨y, hy, hyeq⟩ =>
          ⟨y, List.mem_append_left _ hy, hyeq⟩⟩
      · obtain rfl := List.mem_singleton.1 hx
        refine ⟨_, name, hsegments, ?_⟩
        cases path with
        | none => exact .inl rfl
        | some above =>
          obtain ⟨y, hy, hyeq⟩ := List.mem_map.1 (hplanned above rfl)
          exact .inr ⟨y, List.mem_append_left _ hy, congrArg Loader.segments hyeq⟩
  next planned hlookup =>
    cases h
    obtain ⟨before, after, rfl, -⟩ := List.lookup_eq_some_iff.1 hlookup
    exact ⟨List.Subset.refl _, hp, by simp [paths], fun x hx => .inl hx⟩

theorem step?_eq_some {s : Selection} {target : ModelId} {paged : Bool}
    (h : step? node s = some (target, paged)) : ∃ f, node.field? s.name = some f ∧
      ((paged = false ∧ (f.shape = .toOne target ∨ f.shape = .toMany target)) ∨
        (paged = true ∧ f.shape = .connection target)) := by
  unfold step? at h
  split at h
  · cases h
  next f hf =>
    refine ⟨f, hf, ?_⟩
    split at h
    · cases h
    · split at h
      next hshape =>
        cases h
        exact .inl ⟨rfl, .inl hshape⟩
      next hshape =>
        cases h
        exact .inl ⟨rfl, .inr hshape⟩
      next hshape =>
        split at h
        · cases h
        · cases h
          exact .inr ⟨rfl, hshape⟩
      · cases h

/-- A field that leads to entities shows the relation that loading goes through. -/
theorem Reaches.relation {f : FieldNode} {target : ModelId} (hat : p.Reaches c g m path node)
    (hg : g.Faithful c) (hdots : c.Dotless) (hfield : node.field? name = some f)
    (hshape : f.shape = .toOne target ∨ f.shape = .toMany target ∨ f.shape = .connection target) :
    '.' ∉ name.toList ∧ ∀ model r, c.follow m (path.elim [] Loader.segments) = .ok model →
      c.relation model name = .ok r →
        r.target = target ∧ (r.link.isToOne = true → f.shape = .toOne target) := by
  have hname : f.name = name := by simpa using List.find?_some hfield
  obtain ⟨q, hq, hone, hmany⟩ :=
    hg node hat.mem hat.object f (List.mem_of_find?_eq_some hfield)
  rw [hname] at hq
  refine ⟨hdots.property hq, fun model r hmodel hr => ?_⟩
  obtain rfl := hat.model_eq model hmodel
  obtain ⟨-, -, q', hq', htarget, hkind⟩ := Catalog.relation_eq_ok hr
  obtain rfl : q = q' := Except.ok.inj (hq.symm.trans hq')
  rcases hshape with hshape | hshape
  · exact ⟨Option.some.inj (htarget.symm.trans (hone target hshape).1), fun _ => hshape⟩
  · obtain ⟨hlink, hlist⟩ := hmany target hshape
    refine ⟨Option.some.inj (htarget.symm.trans hlink), fun hisOne => ?_⟩
    rw [hkind, hlist] at hisOne
    cases hisOne

theorem parse_nil {target : ModelId} {args : ListArgs} (h : ListArgs.parse c target [] = .ok args) :
    args = ListArgs.none := by
  cases h
  rfl

end Step

/-- What planning relies on: objects show properties of their models, and names of properties hold no
dot. -/
structure Plannable (c : Catalog) (g : TypeGraph) : Prop where
  faithful : g.Faithful c
  dotless : c.Dotless

/-- A step of planning keeps a plan planned for selections and drops none of its paths. -/
def Extends (c : Catalog) (g : TypeGraph) (m : ModelId) (root : TypeNode)
    (selections : List Selection) (p : LoadPlan) (step : Except Error LoadPlan) : Prop :=
  ∀ p', step = .ok p' → p ⊆ p' ∧ p'.Planned c g m root selections

namespace Extends

variable {c : Catalog} {g : TypeGraph} {m : ModelId} {root : TypeNode} {selections : List Selection}
  {p : LoadPlan} {step : Except Error LoadPlan}

theorem refl (hp : p.Planned c g m root selections) : Extends c g m root selections p (.ok p) := by
  rintro p' ⟨⟩
  exact ⟨List.Subset.refl _, hp⟩

theorem bind {f : LoadPlan → Except Error LoadPlan} (h : Extends c g m root selections p step)
    (hf : ∀ p₁, p ⊆ p₁ → p₁.Planned c g m root selections →
      Extends c g m root selections p₁ (f p₁)) :
    Extends c g m root selections p (step >>= f) := by
  intro p' hp'
  obtain ⟨p₁, hp₁, hp'⟩ := bind_eq_ok.1 hp'
  obtain ⟨hsub, hplanned⟩ := h p₁ hp₁
  obtain ⟨hsub', hplanned'⟩ := hf p₁ hsub hplanned p' hp'
  exact ⟨List.Subset.trans hsub hsub', hplanned'⟩

end Extends

section Collect

variable {c : Catalog} {g : TypeGraph} {m : ModelId} {root : TypeNode} {selections : List Selection}

mutual

/-- Planning a field keeps a plan planned: so do its path and what is planned below it. -/
theorem extends_collectField (hs : Plannable c g) :
    ∀ (s : Selection) (node : TypeNode) (path : Option String) (p : LoadPlan),
      Selection.On g root selections node s → p.Reaches c g m path node →
      p.Planned c g m root selections →
      Extends c g m root selections p (collectField c g node path p s)
  | .mk key name args children, node, path, p, hon, hat, hp => by
    rw [collectField]
    split
    · exact .refl hp
    next target paged hstep =>
      obtain ⟨f, (hfield : node.field? name = some f), hshape⟩ := step?_eq_some hstep
      obtain ⟨hname, hrelation⟩ := hat.relation hs.faithful hs.dotless hfield
        (hshape.elim (fun h => h.2.imp_right .inl) fun h => .inr (.inr h.2))
      intro p' h
      obtain ⟨listArgs, hparse, h⟩ := bind_eq_ok.1 h
      have hselected : Selected c g m root selections (extend path name, listArgs) :=
        ⟨_, node, _, f, target, Loader.segments_extend path hname, hon, hfield, hparse,
          fun model r hmodel hr => (hrelation model r hmodel hr).2⟩
      rcases hadd : p.addPath (extend path name) listArgs with ⟨p₁, isNew⟩
      obtain ⟨hsub, hclosed, hplanned, hmem⟩ := hp.addPath hat.planned hname hadd
      have hp₁ : p₁.Planned c g m root selections :=
        ⟨hclosed, fun x hx => (hmem x hx).elim (hp.selected x) fun heq => heq ▸ hselected⟩
      rw [hadd] at h
      -- below a path that is planned with other restrictions nothing is planned
      cases isNew with
      | false =>
        obtain rfl := pure_eq_ok.1 h
        exact ⟨hsub, hp₁⟩
      | true =>
        obtain ⟨targetNode, hobject, h⟩ := bind_eq_ok.1 h
        obtain ⟨hmem, hkey⟩ := TypeGraph.object_eq_ok hobject
        -- the relation leads from the model above to that of the target's object
        have hbelow : p₁.Reaches c g m (some (extend path name)) targetNode := by
          refine ⟨fun above habove => ?_, fun model hmodel => ?_, hmem, by rw [hkey]⟩
          · cases habove
            exact hplanned
          · rw [Option.elim_some, Loader.segments_extend path hname] at hmodel
            obtain ⟨above, r, habove, hr, rfl⟩ := Catalog.follow_append_eq_ok.1 hmodel
            rw [(hrelation above r habove hr).1, hkey]
        rcases hshape with ⟨rfl, hshape⟩ | ⟨rfl, hshape⟩
        · have hrest := extends_collect hs children targetNode _ p₁
            (fun s hmem => .inside hon hfield hshape hobject hmem) hbelow hp₁ p' h
          exact ⟨List.Subset.trans hsub hrest.1, hrest.2⟩
        · have hrest := extends_collectEdges hs children targetNode _ p₁
            (fun edge hedge hedges entity hentity s hmem => .entry hon hfield hshape hobject
              (List.mem_filter.2 ⟨hedge, beq_iff_eq.2 hedges⟩) hentity hmem) hbelow hp₁ p' h
          exact ⟨List.Subset.trans hsub hrest.1, hrest.2⟩

theorem extends_collect (hs : Plannable c g) :
    ∀ (l : List Selection) (node : TypeNode) (path : Option String) (p : LoadPlan),
      (∀ s ∈ l, Selection.On g root selections node s) → p.Reaches c g m path node →
      p.Planned c g m root selections →
      Extends c g m root selections p (collect c g node path p l)
  | [], _, _, _, _, _, hp => .refl hp
  | s :: rest, node, path, p, hon, hat, hp => by
    have hfirst := extends_collectField hs s node path p (hon s List.mem_cons_self) hat hp
    exact hfirst.bind fun p₁ hsub hp₁ => extends_collect hs rest node path p₁
      (fun s hmem => hon s (List.mem_cons_of_mem _ hmem)) (hat.mono hsub) hp₁

theorem extends_collectEdge (hs : Plannable c g) :
    ∀ (s : Selection) (node : TypeNode) (path : Option String) (p : LoadPlan),
      (s.name = "edges" → ∀ entity ∈ s.childrenNamed "node", ∀ s' ∈ entity.children,
        Selection.On g root selections node s') → p.Reaches c g m path node →
      p.Planned c g m root selections →
      Extends c g m root selections p (collectEdge c g node path p s)
  | .mk key name args children, node, path, p, hon, hat, hp => by
    rw [collectEdge]
    split_ifs with hname
    · exact extends_collectNodes hs children node path p (fun entity hentity hnode =>
        hon hname entity (List.mem_filter.2 ⟨hentity, beq_iff_eq.2 hnode⟩)) hat hp
    · exact .refl hp

theorem extends_collectEdges (hs : Plannable c g) :
    ∀ (l : List Selection) (node : TypeNode) (path : Option String) (p : LoadPlan),
      (∀ edge ∈ l, edge.name = "edges" → ∀ entity ∈ edge.childrenNamed "node",
        ∀ s' ∈ entity.children, Selection.On g root selections node s') →
      p.Reaches c g m path node → p.Planned c g m root selections →
      Extends c g m root selections p (collectEdges c g node path p l)
  | [], _, _, _, _, _, hp => .refl hp
  | s :: rest, node, path, p, hon, hat, hp => by
    have hfirst := extends_collectEdge hs s node path p (hon s List.mem_cons_self) hat hp
    exact hfirst.bind fun p₁ hsub hp₁ => extends_collectEdges hs rest node path p₁
      (fun s hmem => hon s (List.mem_cons_of_mem _ hmem)) (hat.mono hsub) hp₁

theorem extends_collectNode (hs : Plannable c g) :
    ∀ (s : Selection) (node : TypeNode) (path : Option String) (p : LoadPlan),
      (s.name = "node" → ∀ s' ∈ s.children, Selection.On g root selections node s') →
      p.Reaches c g m path node → p.Planned c g m root selections →
      Extends c g m root selections p (collectNode c g node path p s)
  | .mk key name args children, node, path, p, hon, hat, hp => by
    rw [collectNode]
    split_ifs with hname
    · exact extends_collect hs children node path p (hon hname) hat hp
    · exact .refl hp

theorem extends_collectNodes (hs : Plannable c g) :
    ∀ (l : List Selection) (node : TypeNode) (path : Option String) (p : LoadPlan),
      (∀ entity ∈ l, entity.name = "node" →
        ∀ s' ∈ entity.children, Selection.On g root selections node s') →
      p.Reaches c g m path node → p.Planned c g m root selections →
      Extends c g m root selections p (collectNodes c g node path p l)
  | [], _, _, _, _, _, hp => .refl hp
  | s :: rest, node, path, p, hon, hat, hp => by
    have hfirst := extends_collectNode hs s node path p (hon s List.mem_cons_self) hat hp
    exact hfirst.bind fun p₁ hsub hp₁ => extends_collectNodes hs rest node path p₁
      (fun s hmem => hon s (List.mem_cons_of_mem _ hmem)) (hat.mono hsub) hp₁

end

end Collect

/-- A plan for selections of entities of a model is closed, and planned for what they select. -/
theorem selected_of_ofSelections {c : Catalog} {g : TypeGraph} {m : ModelId} {root : TypeNode}
    {selections : List Selection} {p : LoadPlan} (hroot : g.object m = .ok root)
    (hs : Plannable c g) (h : ofSelections c g root selections = .ok p) :
    p.Planned c g m root (selections.flatMap (·.children)) := by
  obtain ⟨hmem, hkey⟩ := TypeGraph.object_eq_ok hroot
  have hat : ∀ p : LoadPlan, p.Reaches c g m none root := by
    refine fun p => ⟨fun _ habove => (nomatch habove), fun model hmodel => ?_, hmem, by rw [hkey]⟩
    rw [hkey]
    exact (Except.ok.inj hmodel).symm
  suffices hfold : ∀ (l : List Selection) (p : LoadPlan), l ⊆ selections →
      p.Planned c g m root (selections.flatMap (·.children)) →
      Extends c g m root (selections.flatMap (·.children)) p
        (l.foldlM (fun p s => collect c g root none p s.children) p) from
    (hfold selections [] (List.Subset.refl _) planned_nil p h).2
  intro l
  induction l with
  | nil => exact fun p _ hp => .refl hp
  | cons s l ih =>
    intro p hsub hp
    obtain ⟨hmems, hsub⟩ := List.cons_subset.1 hsub
    have hfirst := extends_collect hs s.children root none p
      (fun s' hs' => .top (List.mem_flatMap.2 ⟨s, hmems, hs'⟩)) (hat p) hp
    exact hfirst.bind fun p₁ _ hp₁ => ih p₁ hsub hp₁

/-- A plan for selections of entities of a model is sound, where relations to one entity are
selected without arguments. -/
theorem sound_of_ofSelections {c : Catalog} {g : TypeGraph} {m : ModelId} {root : TypeNode}
    {selections : List Selection} {p : LoadPlan} (hroot : g.object m = .ok root)
    (hs : Plannable c g)
    (hones : Selection.PlainOnes g root (selections.flatMap (·.children)))
    (h : ofSelections c g root selections = .ok p) : p.Sound c m := by
  have hplanned := selected_of_ofSelections hroot hs h
  refine ⟨hplanned.toClosed, ?_⟩
  rintro r args ⟨path, above, last, model, hx, hsegments, hmodel, hr⟩ hone
  obtain ⟨above', node, s, f, target, hsegments', hon, hfield, hparse, hshape⟩ :=
    hplanned.selected _ hx
  obtain ⟨rfl, rfl⟩ := List.append_inj' (hsegments.symm.trans hsegments') rfl |>.imp_right
    List.singleton_inj.1
  have hargs : s.args = [] := hones node s hon f target hfield (hshape model r hmodel hr hone)
  exact parse_nil (hargs ▸ hparse)

end LoadPlan

end EntityGraph
