import EntityGraph.Proofs.Access.Selections
import EntityGraph.Proofs.Request.Chains
import EntityGraph.Proofs.Request.Plan
import EntityGraph.Sample.Shelf

/-!
# Exactness of plans

A plan has a path for each chain of selections that goes through relations, as far as the relations
before the last are restricted as the plan has them; the restrictions that it has for a path are
those of the first such chain in the order of the document.

* `LoadPlan.Admits` says which chains a plan has to follow, by its own restrictions;
* `LoadPlan.Records` is what holds of the plan for a part of the document, and
  `LoadPlan.walks_collect` says that planning keeps it;
* `LoadPlan.exact_of_ofSelections` is the result.
-/

namespace EntityGraph

/-- A selection with proper arguments, like all below it. -/
inductive Selection.Proper : Selection → Prop where
  | mk {key name : String} {args : List (String × Literal)} {children : List Selection} :
    (∀ a ∈ args, a.2.Proper) → (∀ s ∈ children, Proper s) → Proper (.mk key name args children)

theorem Selection.Proper.parts {s : Selection} (h : s.Proper) :
    (∀ a ∈ s.args, a.2.Proper) ∧ ∀ s' ∈ s.children, s'.Proper := by
  cases h with
  | mk hargs hchildren => exact ⟨hargs, hchildren⟩

/-! ### Chains that a plan follows -/

namespace LoadPlan

/-- The relation at the end of some steps is planned, and restricted as these select it. -/
def Agrees (c : Catalog) (p : LoadPlan) (steps : List LoadStep) : Prop :=
  ∃ path above last args planned, steps = above ++ [last] ∧
    Loader.segments path = steps.map (·.name) ∧ ListArgs.parse c last.target last.args = .ok args ∧
    p.argsOf path = some planned ∧ planned.same args = true

/-- A chain spells a path, and the plan restricts the relations before its last one as it does. -/
def Admits (c : Catalog) (g : TypeGraph) (root : TypeNode) (p : LoadPlan) (path : String)
    (trail : List Selection) : Prop :=
  ∃ steps, Selection.Chain g root trail steps ∧ Loader.segments path = steps.map (·.name) ∧
    ∀ part, part <+: steps → part ≠ [] → part ≠ steps → p.Agrees c part

/-- The first of some ways that is a chain which the plan admits for a path. -/
def First (c : Catalog) (g : TypeGraph) (root : TypeNode) (p : LoadPlan) (path : String)
    (trails : List (List Selection)) (trail : List Selection) : Prop :=
  ∃ before after, trails = before ++ trail :: after ∧ p.Admits c g root path trail ∧
    ∀ earlier ∈ before, ¬ p.Admits c g root path earlier

/-- The last relation of a chain is selected with some restrictions. -/
def Restricts (c : Catalog) (g : TypeGraph) (root : TypeNode) (trail : List Selection)
    (args : ListArgs) : Prop :=
  ∃ above last, Selection.Chain g root trail (above ++ [last]) ∧
    ListArgs.parse c last.target last.args = .ok args

/-- The path that a nested path continues comes before it. -/
def ParentsFirst (p : LoadPlan) : Prop :=
  ∀ before x after, p = before ++ x :: after → ∀ above last,
    Loader.segments x.1 = above ++ [last] → above = [] ∨ ∃ y ∈ before, Loader.segments y.1 = above

/-- A plan has recorded some ways of a document, by the standard of a plan that goes on from it. -/
structure Records (c : Catalog) (g : TypeGraph) (root : TypeNode) (whole : LoadPlan)
    (trails : List (List Selection)) (p : LoadPlan) : Prop where
  distinct : p.paths.Nodup
  parentsFirst : p.ParentsFirst
  first : ∀ x ∈ p, ∃ trail, whole.First c g root x.1 trails trail ∧ Restricts c g root trail x.2
  complete : ∀ trail ∈ trails, ∀ path, whole.Admits c g root path trail → path ∈ p.paths

variable {c : Catalog} {g : TypeGraph} {root node : TypeNode} {p p₁ p' whole : LoadPlan}
  {above trail : List Selection} {trails trails' : List (List Selection)} {steps : List LoadStep}
  {path : Option String} {q : String} {args : ListArgs}

theorem argsOf_mono {planned : ListArgs} (hpart : p <+: p') (h : p.argsOf q = some planned) :
    p'.argsOf q = some planned := by
  obtain ⟨rest, rfl⟩ := hpart
  unfold argsOf at h ⊢
  rw [List.lookup_append, h, Option.some_or]

theorem argsOf_append_of_none (h : p.argsOf q = none) :
    (p ++ [(q, args)]).argsOf q = some args := by
  unfold argsOf at h ⊢
  rw [List.lookup_append, h, Option.none_or, List.lookup_cons_self]

theorem mem_paths_of_argsOf {planned : ListArgs} (h : p.argsOf q = some planned) : q ∈ p.paths := by
  obtain ⟨before, after, rfl, -⟩ := List.lookup_eq_some_iff.1 h
  exact List.mem_map.2 ⟨(q, planned), List.mem_append_right _ List.mem_cons_self, rfl⟩

theorem not_mem_paths_of_argsOf (h : p.argsOf q = none) : q ∉ p.paths := by
  intro hq
  obtain ⟨x, hx, rfl⟩ := List.mem_map.1 hq
  simpa using List.lookup_eq_none_iff.1 h x hx

theorem Agrees.mono (h : p.Agrees c steps) (hpart : p <+: p') : p'.Agrees c steps := by
  obtain ⟨path, above, last, args, planned, hsteps, hnames, hargs, hplanned, hsame⟩ := h
  exact ⟨path, above, last, args, planned, hsteps, hnames, hargs, argsOf_mono hpart hplanned,
    hsame⟩

theorem Restricts.of_chain {step : LoadStep} (h : Selection.Chain g root trail (steps ++ [step]))
    (hargs : ListArgs.parse c step.target step.args = .ok args) : Restricts c g root trail args :=
  ⟨steps, step, h, hargs⟩

namespace Records

theorem nil : Records c g root whole [] [] :=
  ⟨List.nodup_nil, fun before x after h => by simp at h, nofun, nofun⟩

theorem First.append (h : whole.First c g root q trails trail)
    (trails' : List (List Selection)) : whole.First c g root q (trails ++ trails') trail := by
  obtain ⟨before, after, rfl, hadmits, hbefore⟩ := h
  exact ⟨before, after ++ trails', by simp, hadmits, hbefore⟩

/-- Ways that the plan admits only for paths that it has leave it as it is. -/
theorem append (h : Records c g root whole trails p)
    (hknown : ∀ trail ∈ trails', ∀ path, whole.Admits c g root path trail → path ∈ p.paths) :
    Records c g root whole (trails ++ trails') p where
  distinct := h.distinct
  parentsFirst := h.parentsFirst
  first x hx := by
    obtain ⟨trail, hfirst, hargs⟩ := h.first x hx
    exact ⟨trail, First.append hfirst trails', hargs⟩
  complete trail htrail path hadmits := by
    rcases List.mem_append.1 htrail with htrail | htrail
    · exact h.complete trail htrail path hadmits
    · exact hknown trail htrail path hadmits

/-- A path is planned when a chain that spells it is admitted for the first time. -/
theorem concat (h : Records c g root whole trails p) (hq : q ∉ p.paths)
    (hadmits : ∀ path, whole.Admits c g root path trail ↔ path = q)
    (hargs : Restricts c g root trail args) (hparent : ∀ above last,
      Loader.segments q = above ++ [last] → above = [] ∨ ∃ y ∈ p, Loader.segments y.1 = above) :
    Records c g root whole (trails ++ [trail]) (p ++ [(q, args)]) where
  distinct := by
    rw [paths, List.map_append, List.nodup_append]
    refine ⟨h.distinct, List.nodup_singleton _, fun a ha b hb => ?_⟩
    obtain rfl := List.mem_singleton.1 hb
    exact fun heq => hq (heq ▸ ha)
  parentsFirst before x after heq above last hsegments := by
    -- the paths of the plan keep their places, and the new one comes last
    rcases List.append_eq_append_iff.1 heq with ⟨rest, rfl, hrest⟩ | ⟨rest, rfl, hrest⟩
    · rcases rest with _ | ⟨y, rest⟩
      · obtain ⟨rfl, -⟩ := List.cons.inj hrest
        rw [List.append_nil]
        exact hparent above last hsegments
      · simp at hrest
    · rcases rest with _ | ⟨y, rest⟩
      · obtain ⟨rfl, -⟩ := List.cons.inj hrest.symm
        rw [List.append_nil] at hparent
        exact hparent above last hsegments
      · obtain ⟨rfl, -⟩ := List.cons.inj hrest
        exact h.parentsFirst before x rest rfl above last hsegments
  first x hx := by
    rcases List.mem_append.1 hx with hx | hx
    · obtain ⟨t, hfirst, ht⟩ := h.first x hx
      exact ⟨t, First.append hfirst _, ht⟩
    · obtain rfl := List.mem_singleton.1 hx
      exact ⟨trail, ⟨trails, [], rfl, (hadmits q).2 rfl, fun earlier hearlier h' =>
        hq (h.complete earlier hearlier q h')⟩, hargs⟩
  complete t ht path hpath := by
    rw [paths, List.map_append]
    rcases List.mem_append.1 ht with ht | ht
    · exact List.mem_append_left _ (h.complete t ht path hpath)
    · obtain rfl := List.mem_singleton.1 ht
      exact List.mem_append_right _ (List.mem_singleton.2 ((hadmits path).1 hpath))

end Records

/-- A step of planning goes on from a plan, and has recorded further ways when it ends. -/
def Walks (c : Catalog) (g : TypeGraph) (root : TypeNode) (p : LoadPlan)
    (trails : List (List Selection)) (step : Except Error LoadPlan) : Prop :=
  ∀ p', step = .ok p' → p <+: p' ∧ ∀ whole done, p' <+: whole → Records c g root whole done p →
    Records c g root whole (done ++ trails) p'

namespace Walks

variable {step : Except Error LoadPlan}

/-- Ways that are not admitted are passed over. -/
theorem skip (h : ∀ whole : LoadPlan, p <+: whole → ∀ trail ∈ trails, ∀ q,
    ¬ whole.Admits c g root q trail) : Walks c g root p trails (.ok p) := by
  rintro p' ⟨⟩
  exact ⟨List.prefix_rfl, fun whole done hwhole hdone => hdone.append fun trail htrail q hadmits =>
    absurd hadmits (h whole hwhole trail htrail q)⟩

/-- So are those that are no chains. -/
theorem skip_of_not_chain
    (h : ∀ trail ∈ trails, ∀ steps, ¬ Selection.Chain g root trail steps) :
    Walks c g root p trails (.ok p) :=
  .skip fun _ _ trail htrail _ ⟨steps, hchain, _⟩ => h trail htrail steps hchain

theorem trans (h : Walks c g root p trails (.ok p₁)) (h' : Walks c g root p₁ trails' step) :
    Walks c g root p (trails ++ trails') step := by
  intro p' hp'
  obtain ⟨hpart, hrecords⟩ := h p₁ rfl
  obtain ⟨hpart', hrecords'⟩ := h' p' hp'
  refine ⟨hpart.trans hpart', fun whole done hwhole hdone => ?_⟩
  rw [← List.append_assoc]
  exact hrecords' whole _ hwhole (hrecords whole done (hpart'.trans hwhole) hdone)

theorem bind {f : LoadPlan → Except Error LoadPlan} (h : Walks c g root p trails step)
    (hf : ∀ p₁, p <+: p₁ → Walks c g root p₁ trails' (f p₁)) :
    Walks c g root p (trails ++ trails') (step >>= f) := by
  intro p' hp'
  obtain ⟨p₁, rfl, hp'⟩ := bind_eq_ok.1 hp'
  exact h.trans (hf p₁ (h p₁ rfl).1) p' hp'

end Walks

/-! ### Planning -/

/-- Planning has come to a type by a chain that the plan follows to its end: what goes on from here
goes on with the chain. -/
structure At (c : Catalog) (g : TypeGraph) (root : TypeNode) (p : LoadPlan)
    (above : List Selection) (steps : List LoadStep) (path : Option String) (node : TypeNode) :
    Prop where
  names : path.elim [] Loader.segments = steps.map (·.name)
  chains : ∀ t all, t ≠ [] → (Selection.Chain g root (above ++ t) all ↔
    ∃ rest, Selection.Chain g node t rest ∧ all = steps ++ rest)
  follows : ∀ part, part <+: steps → part ≠ [] → p.Agrees c part
  planned : ∀ q ∈ path, q ∈ p.paths
  fields : ∀ name f, node.field? name = some f → '.' ∉ name.toList

/-- Planning is inside a connection: a chain goes on through the entity of an edge. -/
structure InConnection (c : Catalog) (g : TypeGraph) (root : TypeNode) (p : LoadPlan)
    (above : List Selection) (steps : List LoadStep) (path : Option String) (node : TypeNode) :
    Prop where
  entity : ∀ edge entity, edge.name = "edges" → entity.name = "node" →
    p.At c g root (above ++ [edge, entity]) steps path node
  only : ∀ t all, t ≠ [] → Selection.Chain g root (above ++ t) all → ∃ edge entity rest,
    t = edge :: entity :: rest ∧ edge.name = "edges" ∧ entity.name = "node" ∧ rest ≠ []

/-- Planning is inside the edges of a connection. -/
structure InEdges (c : Catalog) (g : TypeGraph) (root : TypeNode) (p : LoadPlan)
    (above : List Selection) (steps : List LoadStep) (path : Option String) (node : TypeNode) :
    Prop where
  entity : ∀ entity, entity.name = "node" → p.At c g root (above ++ [entity]) steps path node
  only : ∀ t all, t ≠ [] → Selection.Chain g root (above ++ t) all → ∃ entity rest,
    t = entity :: rest ∧ entity.name = "node" ∧ rest ≠ []

theorem At.mono (h : p.At c g root above steps path node) (hpart : p <+: p') :
    p'.At c g root above steps path node :=
  ⟨h.names, h.chains, fun part hprefix hne => (h.follows part hprefix hne).mono hpart,
    fun q hq => (hpart.map _).subset (h.planned q hq), h.fields⟩

theorem InConnection.mono (h : p.InConnection c g root above steps path node) (hpart : p <+: p') :
    p'.InConnection c g root above steps path node :=
  ⟨fun edge entity hedge hentity => (h.entity edge entity hedge hentity).mono hpart, h.only⟩

theorem InEdges.mono (h : p.InEdges c g root above steps path node) (hpart : p <+: p') :
    p'.InEdges c g root above steps path node :=
  ⟨fun entity hentity => (h.entity entity hentity).mono hpart, h.only⟩

section Step

variable {s : Selection} {target : ModelId} {paged : Bool} {targetNode : TypeNode}
  {t : List Selection} {rest all : List LoadStep}

/-- A chain that begins with a selection takes its step first. -/
theorem exists_step_of_chain (h : Selection.Chain g node (s :: t) rest) :
    ∃ target paged below, node.Goes s target paged ∧ rest = s.step target :: below ∧
      (t = [] ↔ below = []) ∧ (t = [] → paged = true → s.SelectsNodes) := by
  have hne : ∀ {node t steps}, Selection.Chain g node t steps → steps ≠ [] := fun h => by
    cases h <;> exact List.cons_ne_nil _ _
  have hne' : ∀ {node t steps}, Selection.Chain g node t steps → t ≠ [] := fun h => by
    cases h <;> exact List.cons_ne_nil _ _
  cases h with
  | last hgoes hnodes => exact ⟨_, _, [], hgoes, rfl, by simp, fun _ => hnodes⟩
  | inside hgoes _ hrest =>
    exact ⟨_, _, _, hgoes, rfl, iff_of_false (hne' hrest) (hne hrest),
      fun heq => absurd heq (hne' hrest)⟩
  | entry hgoes _ _ _ hrest =>
    exact ⟨_, _, _, hgoes, rfl, iff_of_false (List.cons_ne_nil _ _) (hne hrest), nofun⟩

theorem chain_inside_iff (hgoes : node.Goes s target false)
    (hobject : g.object target = .ok targetNode) (ht : t ≠ []) :
    Selection.Chain g node (s :: t) rest ↔
      ∃ below, Selection.Chain g targetNode t below ∧ rest = s.step target :: below := by
  constructor
  · intro h
    cases h with
    | last => exact absurd rfl ht
    | inside hgoes' hobject' hrest =>
      obtain ⟨rfl, -⟩ := hgoes.unique hgoes'
      obtain rfl := Except.ok.inj (hobject.symm.trans hobject')
      exact ⟨_, hrest, rfl⟩
    | entry hgoes' => cases (hgoes.unique hgoes').2
  · rintro ⟨below, hbelow, rfl⟩
    exact .inside hgoes hobject hbelow

theorem chain_connection_iff (hgoes : node.Goes s target true)
    (hobject : g.object target = .ok targetNode) (ht : t ≠ []) :
    Selection.Chain g node (s :: t) rest ↔ ∃ edge entity t' below, t = edge :: entity :: t' ∧
      edge.name = "edges" ∧ entity.name = "node" ∧ Selection.Chain g targetNode t' below ∧
        rest = s.step target :: below := by
  constructor
  · intro h
    cases h with
    | last => exact absurd rfl ht
    | inside hgoes' => cases (hgoes.unique hgoes').2
    | entry hgoes' hedge hentity hobject' hrest =>
      obtain ⟨rfl, -⟩ := hgoes.unique hgoes'
      obtain rfl := Except.ok.inj (hobject.symm.trans hobject')
      exact ⟨_, _, _, _, rfl, hedge, hentity, hrest, rfl⟩
  · rintro ⟨edge, entity, t', below, rfl, hedge, hentity, hbelow, rfl⟩
    exact .entry hgoes hedge hentity hobject hbelow

/-- The path of a relation that is selected on a type. -/
theorem At.segments_extend (h : p.At c g root above steps path node)
    (hgoes : node.Goes s target paged) : Loader.segments (extend path s.name)
      = (steps ++ [s.step target]).map (·.name) := by
  obtain ⟨f, -, hf, -⟩ := hgoes
  rw [Loader.segments_extend path (h.fields _ _ hf), h.names, List.map_append]
  rfl

theorem At.chain_concat (h : p.At c g root above steps path node)
    (hstep : step? node s = some (target, paged)) :
    Selection.Chain g root (above ++ [s]) (steps ++ [s.step target]) := by
  obtain ⟨hgoes, hnodes⟩ := TypeNode.step?_eq_some.1 hstep
  exact (h.chains [s] _ (List.cons_ne_nil _ _)).2 ⟨_, .last hgoes hnodes, rfl⟩

/-- The way to a relation that is planned now is admitted for its path, and for no other. -/
theorem At.admits_iff (h : p.At c g root above steps path node)
    (hstep : step? node s = some (target, paged)) :
    p.Admits c g root q (above ++ [s]) ↔ q = extend path s.name := by
  obtain ⟨hgoes, -⟩ := TypeNode.step?_eq_some.1 hstep
  have hnames := h.segments_extend hgoes
  constructor
  · rintro ⟨all, hchain, hsegments, -⟩
    obtain ⟨rest, hrest, rfl⟩ := (h.chains [s] all (List.cons_ne_nil _ _)).1 hchain
    obtain ⟨target', paged', below, hgoes', rfl, hbelow, -⟩ := exists_step_of_chain hrest
    obtain ⟨rfl, -⟩ := hgoes.unique hgoes'
    obtain rfl := hbelow.1 rfl
    exact Loader.segments_injective (hsegments.trans hnames.symm)
  · rintro rfl
    refine ⟨_, h.chain_concat hstep, hnames, fun part hprefix hne hproper => ?_⟩
    exact h.follows part ((List.prefix_concat_iff.1 hprefix).resolve_left hproper) hne

/-- What is selected below a relation that is planned otherwise is not admitted. -/
theorem At.not_admits (h : p.At c g root above steps path node)
    (hgoes : node.Goes s target paged) (hargs : ListArgs.parse c target s.args = .ok args)
    {planned : ListArgs} (hplanned : p.argsOf (extend path s.name) = some planned)
    (hsame : planned.same args = false) (ht : t ≠ []) :
    ¬ p.Admits c g root q (above ++ s :: t) := by
  rintro ⟨all, hchain, -, hfollows⟩
  obtain ⟨rest, hrest, rfl⟩ := (h.chains _ all (List.cons_ne_nil _ _)).1 hchain
  obtain ⟨target', paged', below, hgoes', rfl, hbelow, -⟩ := exists_step_of_chain hrest
  obtain ⟨rfl, -⟩ := hgoes.unique hgoes'
  have hpart : steps ++ [s.step target] <+: steps ++ s.step target :: below :=
    ⟨below, by simp⟩
  have hproper : steps ++ [s.step target] ≠ steps ++ s.step target :: below := fun heq =>
    mt hbelow.2 ht (by simpa using heq)
  obtain ⟨q', init, last, args', planned', hlast, hsegments, hargs', hplanned', hsame'⟩ :=
    hfollows _ hpart (by simp) hproper
  obtain ⟨-, heq⟩ := List.append_inj' hlast rfl
  obtain rfl := List.singleton_inj.1 heq
  obtain rfl := Except.ok.inj (hargs.symm.trans hargs')
  obtain rfl := Loader.segments_injective (hsegments.trans (h.segments_extend hgoes).symm)
  obtain rfl := Option.some.inj (hplanned.symm.trans hplanned')
  cases hsame.symm.trans hsame'

/-- A plan follows a chain to a relation that it restricts as the chain does. -/
theorem At.follows_concat (h : p.At c g root above steps path node)
    (hgoes : node.Goes s target paged) (hargs : ListArgs.parse c target s.args = .ok args)
    {planned : ListArgs} (hplanned : p.argsOf (extend path s.name) = some planned)
    (hsame : planned.same args = true) (part : List LoadStep)
    (hpart : part <+: steps ++ [s.step target]) (hne : part ≠ []) : p.Agrees c part := by
  rcases List.prefix_concat_iff.1 hpart with rfl | hpart
  · exact ⟨_, steps, s.step target, args, planned, rfl, h.segments_extend hgoes, hargs, hplanned,
      hsame⟩
  · exact h.follows part hpart hne

/-- The relation of a selection is planned unless it is. Its way is recorded, and planning goes on
below if the plan restricts the relation as the selection does. -/
theorem At.walks_addPath (h : p.At c g root above steps path node)
    (hstep : step? node s = some (target, paged))
    (hargs : ListArgs.parse c target s.args = .ok args) (hself : args.same args = true)
    {goesOn : Bool}
    (hadd : p.addPath (extend path s.name) args = (p₁, goesOn)) :
    Walks c g root p [above ++ [s]] (.ok p₁) ∧ ∃ planned,
      p₁.argsOf (extend path s.name) = some planned ∧ planned.same args = goesOn := by
  unfold addPath at hadd
  split at hadd
  next hnew =>
    cases hadd
    refine ⟨?_, args, argsOf_append_of_none hnew, hself⟩
    rintro p' ⟨⟩
    have hpart : p <+: p ++ [(extend path s.name, args)] := List.prefix_append _ _
    refine ⟨hpart, fun whole done hwhole hdone => ?_⟩
    refine hdone.concat (not_mem_paths_of_argsOf hnew)
      (fun q => (h.mono (hpart.trans hwhole)).admits_iff hstep)
      (.of_chain (h.chain_concat hstep) hargs) fun init last hsegments => ?_
    -- the path that the new one continues is planned
    have hnames := h.segments_extend (TypeNode.step?_eq_some.1 hstep).1
    rw [hsegments, List.map_append] at hnames
    obtain ⟨hinit, -⟩ := List.append_inj' hnames rfl
    rw [← h.names] at hinit
    cases path with
    | none => exact .inl hinit
    | some r =>
      obtain ⟨y, hy, rfl⟩ := List.mem_map.1 (h.planned r rfl)
      exact .inr ⟨y, hy, hinit.symm⟩
  next planned hplanned =>
    cases hadd
    refine ⟨?_, planned, hplanned, rfl⟩
    rintro p' ⟨⟩
    refine ⟨List.prefix_rfl, fun whole done hwhole hdone => ?_⟩
    refine hdone.append fun trail htrail q hq => ?_
    obtain rfl := List.mem_singleton.1 htrail
    rw [((h.mono hwhole).admits_iff hstep).1 hq]
    exact mem_paths_of_argsOf hplanned

end Step

/-- The fields of the objects of a graph have names without a dot. -/
def FieldsDotless (g : TypeGraph) : Prop :=
  ∀ n ∈ g.nodes, n.key.kind = .object → ∀ name f, n.field? name = some f → '.' ∉ name.toList

section Below

variable {s : Selection} {target : ModelId} {targetNode : TypeNode}
  (hg : FieldsDotless g) (h : p.At c g root above steps path node)
  (hobject : g.object target = .ok targetNode) (hargs : ListArgs.parse c target s.args = .ok args)
  {planned : ListArgs} (hplanned : p.argsOf (extend path s.name) = some planned)
  (hsame : planned.same args = true)

include hg h hobject hargs hplanned hsame

/-- Below a relation that is not listed page by page planning is at the type of its targets. -/
theorem At.inside (hgoes : node.Goes s target false) : p.At c g root (above ++ [s])
    (steps ++ [s.step target]) (some (extend path s.name)) targetNode where
  names := h.segments_extend hgoes
  chains t all ht := by
    rw [List.append_assoc, List.singleton_append, h.chains _ all (List.cons_ne_nil s t)]
    simp only [chain_inside_iff hgoes hobject ht]
    constructor
    · rintro ⟨_, ⟨below, hbelow, rfl⟩, rfl⟩
      exact ⟨below, hbelow, by simp⟩
    · rintro ⟨below, hbelow, rfl⟩
      exact ⟨_, ⟨below, hbelow, rfl⟩, by simp⟩
  follows := h.follows_concat hgoes hargs hplanned hsame
  planned q hq := by
    cases hq
    exact mem_paths_of_argsOf hplanned
  fields := by
    obtain ⟨hmem, hkey⟩ := TypeGraph.object_eq_ok hobject
    exact hg targetNode hmem (by rw [hkey])

/-- Below a connection planning is at the type of its targets once it comes to the entity of an
edge. -/
theorem At.inConnection (hgoes : node.Goes s target true) : p.InConnection c g root (above ++ [s])
    (steps ++ [s.step target]) (some (extend path s.name)) targetNode where
  entity edge entity hedge hentity := by
    refine ⟨h.segments_extend hgoes, fun t all ht => ?_,
      h.follows_concat hgoes hargs hplanned hsame, fun q hq => ?_, ?_⟩
    · rw [List.append_assoc, List.append_assoc, List.singleton_append, List.cons_append,
        List.singleton_append, h.chains _ all (List.cons_ne_nil _ _)]
      simp only [chain_connection_iff hgoes hobject (List.cons_ne_nil _ _)]
      constructor
      · rintro ⟨_, ⟨_, _, _, below, heq, -, -, hbelow, rfl⟩, rfl⟩
        obtain ⟨-, heq⟩ := List.cons.inj heq
        obtain ⟨-, rfl⟩ := List.cons.inj heq
        exact ⟨below, hbelow, by simp⟩
      · rintro ⟨below, hbelow, rfl⟩
        exact ⟨_, ⟨edge, entity, t, below, rfl, hedge, hentity, hbelow, rfl⟩, by simp⟩
    · cases hq
      exact mem_paths_of_argsOf hplanned
    · obtain ⟨hmem, hkey⟩ := TypeGraph.object_eq_ok hobject
      exact hg targetNode hmem (by rw [hkey])
  only t all ht hchain := by
    rw [List.append_assoc, List.singleton_append, h.chains _ all (List.cons_ne_nil s t)] at hchain
    obtain ⟨rest, hrest, -⟩ := hchain
    obtain ⟨edge, entity, t', below, rfl, hedge, hentity, hbelow, -⟩ :=
      (chain_connection_iff hgoes hobject ht).1 hrest
    refine ⟨edge, entity, t', rfl, hedge, hentity, ?_⟩
    rintro rfl
    cases hbelow

end Below

/-- Inside the edges of a connection a chain goes on through the entity. -/
theorem InConnection.inEdges (h : p.InConnection c g root above steps path node)
    {edge : Selection} (hedge : edge.name = "edges") :
    p.InEdges c g root (above ++ [edge]) steps path node where
  entity entity hentity := by
    rw [List.append_assoc]
    exact h.entity edge entity hedge hentity
  only t all ht hchain := by
    rw [List.append_assoc] at hchain
    obtain ⟨edge', entity, rest, heq, -, hentity, hrest⟩ :=
      h.only (edge :: t) all (List.cons_ne_nil _ _) hchain
    obtain ⟨-, rfl⟩ := List.cons.inj heq
    exact ⟨entity, rest, rfl, hentity, hrest⟩

/-- No chain begins with a selection that planning takes no step with. -/
theorem At.not_chain {s : Selection} (h : p.At c g root above steps path node)
    (hstep : step? node s = none) : ∀ trail ∈ s.trails.map (above ++ ·), ∀ all,
    ¬ Selection.Chain g root trail all := by
  intro trail htrail all hchain
  obtain ⟨t, ht, rfl⟩ := List.mem_map.1 htrail
  have hmem : t ∈ Selection.trailsIn [s] := by
    rwa [Selection.trailsIn, Selection.trailsIn, List.append_nil]
  obtain ⟨rest, rfl⟩ := Selection.exists_eq_cons_of_mem_trails ht
  obtain ⟨_, hrest, -⟩ := (h.chains _ all (List.cons_ne_nil _ _)).1 hchain
  -- the one selection that goes through a relation without being planned selects no entities
  have hgoes : ∀ {target paged}, node.Goes s target paged → paged = true ∧ ¬ s.SelectsNodes := by
    intro target paged hgoes
    by_contra hnot
    have hsome := TypeNode.step?_eq_some.2 ⟨hgoes, fun hpaged =>
      not_not.1 fun hnodes => hnot ⟨hpaged, hnodes⟩⟩
    cases hstep.symm.trans hsome
  cases hrest with
  | last hlast hnodes => exact (hgoes hlast).2 (hnodes (hgoes hlast).1)
  | inside hinside => cases (hgoes hinside).1
  | entry hentry hedge hentity =>
    exact (hgoes hentry).2 (Selection.selectsNodes_of_mem_trailsIn hmem hedge hentity)

end LoadPlan

/-- Restrictions that were read from proper literals equal themselves. -/
theorem ListArgs.same_self_of_parse {c : Catalog} {target : ModelId}
    {literals : List (String × Literal)} {args : ListArgs} (hliterals : ∀ l ∈ literals, l.2.Proper)
    (h : ListArgs.parse c target literals = .ok args) : args.same args = true := by
  have hself : ∀ f, args.filter = some f → f.same f = true := fun f hf => by
    obtain ⟨l, hl, hparse⟩ := lookup_of_parse_filter h hf
    obtain ⟨before, after, rfl, -⟩ := List.lookup_eq_some_iff.1 hl
    have hproper := hliterals _ (List.mem_append_right _ List.mem_cons_self)
    exact FilterExpr.reflexive_of_parse target l f hproper hparse
  obtain ⟨filter, order, limit, offset⟩ := args
  cases filter with
  | none => simp [same]
  | some f => simp [same, hself f rfl]

namespace LoadPlan

section Collect

variable {c : Catalog} {g : TypeGraph} {root : TypeNode}

theorem map_trailsIn_cons (above : List Selection) (s : Selection) (rest : List Selection) :
    (Selection.trailsIn (s :: rest)).map (above ++ ·)
      = s.trails.map (above ++ ·) ++ (Selection.trailsIn rest).map (above ++ ·) := by
  rw [Selection.trailsIn, List.map_append]

/-- The way to a selection comes before the ways below it. -/
theorem map_trails (above : List Selection) (s : Selection) : s.trails.map (above ++ ·)
    = [above ++ [s]] ++ (Selection.trailsIn s.children).map ((above ++ [s]) ++ ·) := by
  rw [Selection.trails_eq, List.map_cons, List.map_map]
  simp only [Function.comp_def, List.append_assoc, List.singleton_append]

mutual

/-- Planning a field records the ways from it. -/
theorem walks_collectField (hg : FieldsDotless g) :
    ∀ (s : Selection) (node : TypeNode) (above : List Selection) (steps : List LoadStep)
      (path : Option String) (p : LoadPlan), s.Proper → p.At c g root above steps path node →
      Walks c g root p (s.trails.map (above ++ ·)) (collectField c g node path p s)
  | .mk key name args children, node, above, steps, path, p, hs, hat => by
    obtain ⟨hargs, hchildren⟩ := hs.parts
    rw [collectField]
    cases hstep : step? node (.mk key name args children) with
    | none => exact .skip_of_not_chain (hat.not_chain hstep)
    | some found =>
      obtain ⟨target, paged⟩ := found
      obtain ⟨hgoes, -⟩ := TypeNode.step?_eq_some.1 hstep
      dsimp only
      rw [map_trails]
      intro p' h
      obtain ⟨listArgs, hparse, h⟩ := bind_eq_ok.1 h
      change ListArgs.parse c target (Selection.mk key name args children).args = _ at hparse
      have hself : listArgs.same listArgs = true := ListArgs.same_self_of_parse hargs hparse
      rcases hadd : p.addPath (extend path name) listArgs with ⟨p₁, goesOn⟩
      obtain ⟨hhead, planned, hplanned, hsame⟩ := hat.walks_addPath hstep hparse hself hadd
      have hat₁ := hat.mono (hhead p₁ rfl).1
      rw [hadd] at h
      cases goesOn with
      | false =>
        -- the path is planned with other restrictions, so no way further down is admitted
        refine hhead.trans (.skip fun whole hwhole trail htrail q => ?_) p' h
        obtain ⟨t, ht, rfl⟩ := List.mem_map.1 htrail
        rw [List.append_assoc]
        exact (hat₁.mono hwhole).not_admits hgoes hparse (argsOf_mono hwhole hplanned) hsame
          (Selection.ne_nil_of_mem_trailsIn ht)
      | true =>
        obtain ⟨targetNode, hobject, h⟩ := bind_eq_ok.1 h
        cases paged with
        | false =>
          have hbelow := hat₁.inside hg hobject hparse hplanned hsame hgoes
          exact hhead.trans
            (walks_collect hg children targetNode _ _ _ p₁ hchildren hbelow) p' h
        | true =>
          have hbelow := hat₁.inConnection hg hobject hparse hplanned hsame hgoes
          exact hhead.trans
            (walks_collectEdges hg children targetNode _ _ _ p₁ hchildren hbelow) p' h

theorem walks_collect (hg : FieldsDotless g) :
    ∀ (l : List Selection) (node : TypeNode) (above : List Selection) (steps : List LoadStep)
      (path : Option String) (p : LoadPlan), (∀ s ∈ l, s.Proper) →
      p.At c g root above steps path node →
      Walks c g root p ((Selection.trailsIn l).map (above ++ ·)) (collect c g node path p l)
  | [], _, _, _, _, _, _, _ => .skip fun _ _ _ h => nomatch h
  | s :: rest, node, above, steps, path, p, hl, hat => by
    obtain ⟨hs, hrest⟩ := List.forall_mem_cons.1 hl
    rw [map_trailsIn_cons, collect]
    exact (walks_collectField hg s node above steps path p hs hat).bind fun p₁ hpart =>
      walks_collect hg rest node above steps path p₁ hrest (hat.mono hpart)

theorem walks_collectEdge (hg : FieldsDotless g) :
    ∀ (s : Selection) (node : TypeNode) (above : List Selection) (steps : List LoadStep)
      (path : Option String) (p : LoadPlan), s.Proper →
      p.InConnection c g root above steps path node →
      Walks c g root p (s.trails.map (above ++ ·)) (collectEdge c g node path p s)
  | .mk key name args children, node, above, steps, path, p, hs, hin => by
    rw [collectEdge]
    split_ifs with hname
    · rw [map_trails]
      refine .trans (.skip_of_not_chain fun trail htrail all hchain => ?_)
        (walks_collectNodes hg children node _ steps path p hs.parts.2 (hin.inEdges hname))
      obtain rfl := List.mem_singleton.1 htrail
      obtain ⟨_, _, _, heq, -⟩ := hin.only _ all (List.cons_ne_nil _ _) hchain
      cases heq
    · refine .skip_of_not_chain fun trail htrail all hchain => ?_
      obtain ⟨t, ht, rfl⟩ := List.mem_map.1 htrail
      obtain ⟨rest, rfl⟩ := Selection.exists_eq_cons_of_mem_trails ht
      obtain ⟨edge, _, _, heq, hedge, -⟩ := hin.only _ all (List.cons_ne_nil _ _) hchain
      obtain ⟨rfl, -⟩ := List.cons.inj heq
      exact hname hedge

theorem walks_collectEdges (hg : FieldsDotless g) :
    ∀ (l : List Selection) (node : TypeNode) (above : List Selection) (steps : List LoadStep)
      (path : Option String) (p : LoadPlan), (∀ s ∈ l, s.Proper) →
      p.InConnection c g root above steps path node →
      Walks c g root p ((Selection.trailsIn l).map (above ++ ·)) (collectEdges c g node path p l)
  | [], _, _, _, _, _, _, _ => .skip fun _ _ _ h => nomatch h
  | s :: rest, node, above, steps, path, p, hl, hin => by
    obtain ⟨hs, hrest⟩ := List.forall_mem_cons.1 hl
    rw [map_trailsIn_cons, collectEdges]
    exact (walks_collectEdge hg s node above steps path p hs hin).bind fun p₁ hpart =>
      walks_collectEdges hg rest node above steps path p₁ hrest (hin.mono hpart)

theorem walks_collectNode (hg : FieldsDotless g) :
    ∀ (s : Selection) (node : TypeNode) (above : List Selection) (steps : List LoadStep)
      (path : Option String) (p : LoadPlan), s.Proper →
      p.InEdges c g root above steps path node →
      Walks c g root p (s.trails.map (above ++ ·)) (collectNode c g node path p s)
  | .mk key name args children, node, above, steps, path, p, hs, hin => by
    rw [collectNode]
    split_ifs with hname
    · rw [map_trails]
      refine .trans (.skip_of_not_chain fun trail htrail all hchain => ?_)
        (walks_collect hg children node _ steps path p hs.parts.2 (hin.entity _ hname))
      obtain rfl := List.mem_singleton.1 htrail
      obtain ⟨_, _, heq, -, hrest⟩ := hin.only _ all (List.cons_ne_nil _ _) hchain
      exact hrest (List.cons.inj heq).2.symm
    · refine .skip_of_not_chain fun trail htrail all hchain => ?_
      obtain ⟨t, ht, rfl⟩ := List.mem_map.1 htrail
      obtain ⟨rest, rfl⟩ := Selection.exists_eq_cons_of_mem_trails ht
      obtain ⟨entity, _, heq, hentity, -⟩ := hin.only _ all (List.cons_ne_nil _ _) hchain
      obtain ⟨rfl, -⟩ := List.cons.inj heq
      exact hname hentity

theorem walks_collectNodes (hg : FieldsDotless g) :
    ∀ (l : List Selection) (node : TypeNode) (above : List Selection) (steps : List LoadStep)
      (path : Option String) (p : LoadPlan), (∀ s ∈ l, s.Proper) →
      p.InEdges c g root above steps path node →
      Walks c g root p ((Selection.trailsIn l).map (above ++ ·)) (collectNodes c g node path p l)
  | [], _, _, _, _, _, _, _ => .skip fun _ _ _ h => nomatch h
  | s :: rest, node, above, steps, path, p, hl, hin => by
    obtain ⟨hs, hrest⟩ := List.forall_mem_cons.1 hl
    rw [map_trailsIn_cons, collectNodes]
    exact (walks_collectNode hg s node above steps path p hs hin).bind fun p₁ hpart =>
      walks_collectNodes hg rest node above steps path p₁ hrest (hin.mono hpart)

end

end Collect

theorem fieldsDotless_of_builtFrom {c : Catalog} {g : TypeGraph} (hg : g.BuiltFrom c)
    (hdots : c.Dotless) : FieldsDotless g := by
  intro n hn hkind name f hf
  have hname : f.name = name := by simpa using List.find?_some hf
  obtain ⟨p, hp, -⟩ := hg.faithful n hn hkind f (List.mem_of_find?_eq_some hf)
  exact hname ▸ hdots.property hp

/-- At the root nothing has been passed. -/
theorem at_root {c : Catalog} {g : TypeGraph} {root : TypeNode} {m : ModelId}
    (hg : FieldsDotless g) (hroot : g.object m = .ok root) (p : LoadPlan) :
    p.At c g root [] [] none root := by
  obtain ⟨hmem, hkey⟩ := TypeGraph.object_eq_ok hroot
  refine ⟨rfl, fun t all _ => ?_, fun part hpart hne => absurd (List.prefix_nil.1 hpart) hne,
    nofun, hg root hmem (by rw [hkey])⟩
  simp

/-- The plan for selections has recorded all ways that there are. -/
theorem records_of_ofSelections {c : Catalog} {g : TypeGraph} {root : TypeNode} {m : ModelId}
    {selections : List Selection} {p : LoadPlan} (hg : FieldsDotless g)
    (hroot : g.object m = .ok root)
    (hproper : ∀ s ∈ selections.flatMap (·.children), s.Proper)
    (h : ofSelections c g root selections = .ok p) :
    Records c g root p (Selection.trailsIn (selections.flatMap (·.children))) p := by
  suffices hfold : ∀ (l : List Selection) (p : LoadPlan),
      (∀ s ∈ l.flatMap (·.children), s.Proper) →
      Walks c g root p (Selection.trailsIn (l.flatMap (·.children)))
        (l.foldlM (fun p s => collect c g root none p s.children) p) by
    exact (hfold selections [] hproper p h).2 p [] List.prefix_rfl .nil
  intro l
  induction l with
  | nil => exact fun p _ => .skip fun _ _ _ h => nomatch h
  | cons s l ih =>
    intro p hl
    rw [List.flatMap_cons] at hl
    obtain ⟨hs, hl⟩ := List.forall_mem_append.1 hl
    have hfirst :=
      walks_collect (c := c) hg s.children root [] [] none p hs (at_root hg hroot p)
    simp only [List.nil_append, List.map_id'] at hfirst
    rw [List.flatMap_cons, Selection.trailsIn_append, List.foldlM_cons]
    exact hfirst.bind fun p₁ _ => ih p₁ hl

/-! ### Plans without arguments -/

section Bare

variable {c : Catalog} {g : TypeGraph} {root : TypeNode} {p : LoadPlan} {l : List Selection}

/-- The names of a chain are those of fields, which hold no dot. -/
theorem dotless_of_chain (hg : FieldsDotless g) {node : TypeNode} {t : List Selection}
    {steps : List LoadStep} (h : Selection.Chain g node t steps)
    (hnode : ∀ name f, node.field? name = some f → '.' ∉ name.toList) :
    ∀ step ∈ steps, '.' ∉ step.name.toList := by
  have hname : ∀ {node : TypeNode} {s : Selection} {target paged},
      (∀ name f, node.field? name = some f → '.' ∉ name.toList) → node.Goes s target paged →
      '.' ∉ (s.step target).name.toList := fun hnode hgoes => by
    obtain ⟨f, -, hf, -⟩ := hgoes
    exact hnode _ f hf
  have hobject : ∀ {target : ModelId} {targetNode : TypeNode}, g.object target = .ok targetNode →
      ∀ name f, targetNode.field? name = some f → '.' ∉ name.toList := fun hobject => by
    obtain ⟨hmem, hkey⟩ := TypeGraph.object_eq_ok hobject
    exact hg _ hmem (by rw [hkey])
  induction h with
  | last hgoes _ => exact List.forall_mem_singleton.2 (hname hnode hgoes)
  | inside hgoes htarget _ ih =>
    exact List.forall_mem_cons.2 ⟨hname hnode hgoes, ih (hobject htarget)⟩
  | entry hgoes _ _ htarget _ ih =>
    exact List.forall_mem_cons.2 ⟨hname hnode hgoes, ih (hobject htarget)⟩

/-- Names without a dot form a path. -/
theorem exists_segments {names : List String} (h : ∀ name ∈ names, '.' ∉ name.toList)
    (hne : names ≠ []) : ∃ q, Loader.segments q = names := by
  induction names using List.reverseRecOn with
  | nil => exact absurd rfl hne
  | append_singleton names name ih =>
    obtain ⟨hnames, hname⟩ := List.forall_mem_append.1 h
    have hname := hname name (List.mem_singleton.2 rfl)
    rcases eq_or_ne names [] with rfl | hnil
    · exact ⟨extend none name, Loader.segments_extend none hname⟩
    · obtain ⟨q, rfl⟩ := ih hnames hnil
      exact ⟨extend (some q) name, Loader.segments_extend (some q) hname⟩

/-- A plan for selections without arguments has a path for every chain. The induction is on the
length of the chain: the plan agrees with its beginnings, since it restricts nothing. -/
theorem agrees_of_bare (hg : FieldsDotless g)
    (hroot : ∀ name f, root.field? name = some f → '.' ∉ name.toList)
    (h : Records c g root p (Selection.trailsIn l) p) (hbare : Selection.Bare l) {n : Nat}
    {trail : List Selection} {steps : List LoadStep} (hlength : steps.length = n)
    (htrail : trail ∈ Selection.trailsIn l) (hchain : Selection.Chain g root trail steps) :
    p.Agrees c steps ∧ ∀ q, Loader.segments q = steps.map (·.name) →
      p.Admits c g root q trail := by
  induction n using Nat.strong_induction_on generalizing trail steps with
  | _ n ih =>
    have hparts : ∀ part, part <+: steps → part ≠ [] → part ≠ steps → p.Agrees c part := by
      intro part hpart hne hproper
      obtain ⟨trail', htrail', hchain'⟩ := hchain.exists_part htrail hpart hne
      have hlt : part.length < n := hlength ▸
        Nat.lt_of_le_of_ne hpart.length_le fun heq => hproper (hpart.eq_of_length heq)
      exact (ih _ hlt rfl htrail' hchain').1
    have hadmits : ∀ q, Loader.segments q = steps.map (·.name) → p.Admits c g root q trail :=
      fun q hq => ⟨steps, hchain, hq, hparts⟩
    refine ⟨?_, hadmits⟩
    have hnone : ∀ {t : List Selection} {all : List LoadStep}, t ∈ Selection.trailsIn l →
        Selection.Chain g root t all → ∀ step ∈ all, step.args = [] := by
      intro t all ht hall step hstep
      obtain ⟨s, hs, target, rfl⟩ := hall.exists_step hstep
      exact hbare t ht s hs
    have hne : steps ≠ [] := by
      rintro rfl
      cases hchain
    have hdotless := dotless_of_chain hg hchain hroot
    obtain ⟨q, hq⟩ := exists_segments
      (List.forall_mem_map.2 hdotless) (List.map_eq_nil_iff.not.2 hne)
    -- the path is planned without restrictions
    obtain ⟨x, hx, rfl⟩ := List.mem_map.1 (h.complete trail htrail q (hadmits q hq))
    obtain ⟨t, ⟨before, after, htrails, -⟩, above, last, hlast, hargs⟩ := h.first x hx
    have ht : t ∈ Selection.trailsIn l :=
      htrails ▸ List.mem_append_right _ List.mem_cons_self
    rw [hnone ht hlast last (List.mem_append_right _ (List.mem_singleton.2 rfl))] at hargs
    obtain ⟨init, final, rfl⟩ := List.eq_nil_or_concat steps |>.resolve_left hne
    rw [List.concat_eq_append] at hq hchain ⊢
    have hfinal := hnone htrail hchain final (List.mem_append_right _ (List.mem_singleton.2 rfl))
    refine ⟨x.1, init, final, ListArgs.none, x.2, rfl, hq, by rw [hfinal]; rfl, ?_, ?_⟩
    · exact Dict.lookup_of_nodup h.distinct hx
    · rw [parse_nil hargs]
      rfl

/-- A plan for selections without arguments has the paths that chains spell. -/
theorem mem_paths_iff_of_bare (hg : FieldsDotless g)
    (hroot : ∀ name f, root.field? name = some f → '.' ∉ name.toList)
    (h : Records c g root p (Selection.trailsIn l) p) (hbare : Selection.Bare l) {q : String} :
    q ∈ p.paths ↔ ∃ trail ∈ Selection.trailsIn l, ∃ steps,
      Selection.Chain g root trail steps ∧ Loader.segments q = steps.map (·.name) := by
  constructor
  · intro hq
    obtain ⟨x, hx, rfl⟩ := List.mem_map.1 hq
    obtain ⟨trail, ⟨before, after, htrails, ⟨steps, hchain, hsegments, -⟩, -⟩, -⟩ := h.first x hx
    exact ⟨trail, htrails ▸ List.mem_append_right _ List.mem_cons_self, steps, hchain, hsegments⟩
  · rintro ⟨trail, htrail, steps, hchain, hsegments⟩
    exact h.complete trail htrail q
      ((agrees_of_bare hg hroot h hbare rfl htrail hchain).2 q hsegments)

mutual

/-- Without arguments there is nothing improper. -/
theorem proper_of_bare : ∀ s : Selection, (∀ t ∈ s.trails, ∀ x ∈ t, x.args = []) → s.Proper
  | .mk key name args children, h => by
    rw [Selection.trails] at h
    obtain ⟨hself, hbelow⟩ := List.forall_mem_cons.1 h
    have hargs : args = [] := hself _ List.mem_cons_self
    refine .mk (by simp [hargs]) (proper_of_bareIn children fun t ht x hx => ?_)
    exact hbelow _ (List.mem_map_of_mem ht) x (List.mem_cons_of_mem _ hx)

theorem proper_of_bareIn : ∀ l : List Selection, Selection.Bare l → ∀ s ∈ l, s.Proper
  | [], _, _, hs => nomatch hs
  | s :: rest, h, s', hs' => by
    rcases List.mem_cons.1 hs' with heq | hs'
    · exact heq ▸ proper_of_bare s fun t ht => h t (List.mem_append_left _ ht)
    · exact proper_of_bareIn rest (fun t ht => h t (List.mem_append_right _ ht)) s' hs'

end

end Bare

/-- The ways inside some selections are those from them, without the first. -/
theorem mem_trailsIn_flatMap {l : List Selection} {t : List Selection} :
    t ∈ Selection.trailsIn (l.flatMap (·.children)) ↔
      t ≠ [] ∧ ∃ s, s :: t ∈ Selection.trailsIn l := by
  constructor
  · intro ht
    obtain ⟨s', hs', hform⟩ := Selection.mem_trailsIn.1 ht
    obtain ⟨s, hs, hchild⟩ := List.mem_flatMap.1 hs'
    exact ⟨Selection.ne_nil_of_mem_trailsIn ht, s, Selection.mem_trailsIn.2
      ⟨s, hs, .inr ⟨t, Selection.mem_trailsIn.2 ⟨s', hchild, hform⟩, rfl⟩⟩⟩
  · rintro ⟨hne, s, hmem⟩
    obtain ⟨hs, hinside⟩ := Selection.mem_trailsIn_children hmem hne
    obtain ⟨s', hs', hform⟩ := Selection.mem_trailsIn.1 hinside
    exact Selection.mem_trailsIn.2 ⟨s', List.mem_flatMap.2 ⟨s, hs, hs'⟩, hform⟩

/-- What is inside rearranged selections has the same ways, but for keys. -/
theorem exists_trail_inside {l l' : List Selection} (h : Selection.Rearranged l l') :
    ∀ t ∈ Selection.trailsIn (l.flatMap (·.children)),
      ∃ t' ∈ Selection.trailsIn (l'.flatMap (·.children)), List.Forall₂ Selection.Alike t t' := by
  intro t ht
  obtain ⟨hne, s, hmem⟩ := mem_trailsIn_flatMap.1 ht
  obtain ⟨_, hmem', hall⟩ := h.exists_trail _ hmem
  cases hall with
  | cons hs hall =>
    refine ⟨_, mem_trailsIn_flatMap.2 ⟨?_, _, hmem'⟩, hall⟩
    rintro rfl
    cases hall
    exact hne rfl

/-- A plan is exact. Each path is there once, after the path that it continues. There is a path for
each chain of selections that spells it, passing through relations which the plan restricts as the
chain does, and for no other; its restrictions are those of the first such chain of the document.
For selections without arguments, neither their order nor their keys matter. -/
theorem exact_of_ofSelections {c : Catalog} {g : TypeGraph} {m : ModelId} {root : TypeNode}
    {selections : List Selection} {plan : LoadPlan} (hg : g.BuiltFrom c) (hdots : c.Dotless)
    (hroot : g.object m = .ok root)
    (hproper : ∀ s ∈ selections.flatMap (·.children), s.Proper)
    (hplan : ofSelections c g root selections = .ok plan) :
    let trails := Selection.trailsIn (selections.flatMap (·.children))
    plan.paths.Nodup ∧ plan.ParentsFirst ∧
      (∀ path, path ∈ plan.paths ↔ ∃ trail ∈ trails, plan.Admits c g root path trail) ∧
      (∀ path args, plan.argsOf path = some args →
        ∃ trail, plan.First c g root path trails trail ∧ Restricts c g root trail args) ∧
      (Selection.Bare (selections.flatMap (·.children)) → ∀ selections' plan',
        Selection.Rearranged selections selections' →
        ofSelections c g root selections' = .ok plan' →
        ∀ path, path ∈ plan'.paths ↔ path ∈ plan.paths) := by
  have hfields := fieldsDotless_of_builtFrom hg hdots
  obtain ⟨hmem, hkey⟩ := TypeGraph.object_eq_ok hroot
  have hrootFields := hfields root hmem (by rw [hkey])
  have hrecords := records_of_ofSelections hfields hroot hproper hplan
  refine ⟨hrecords.distinct, hrecords.parentsFirst, fun path => ⟨fun hpath => ?_, ?_⟩,
    fun path args hargs => ?_, fun hbare selections' plan' hrearranged hplan' path => ?_⟩
  · obtain ⟨x, hx, rfl⟩ := List.mem_map.1 hpath
    obtain ⟨trail, ⟨before, after, htrails, hadmits, -⟩, -⟩ := hrecords.first x hx
    exact ⟨trail, htrails ▸ List.mem_append_right _ List.mem_cons_self, hadmits⟩
  · rintro ⟨trail, htrail, hadmits⟩
    exact hrecords.complete trail htrail path hadmits
  · obtain ⟨before, after, rfl, -⟩ := List.lookup_eq_some_iff.1 hargs
    exact hrecords.first (path, args) (List.mem_append_right _ List.mem_cons_self)
  · -- without arguments a path is planned if some chain spells it, and rearranging keeps chains
    have hinside := exists_trail_inside hrearranged
    have hinside' := exists_trail_inside hrearranged.symm
    have hbare' : Selection.Bare (selections'.flatMap (·.children)) := by
      intro t' ht' s' hs'
      obtain ⟨t, ht, hall⟩ := hinside' t' ht'
      obtain ⟨s, hs, hss⟩ := exists_of_forall₂_right hall.flip hs'
      exact hss.args.trans (hbare t ht s hs)
    have hrecords' := records_of_ofSelections hfields hroot (proper_of_bareIn _ hbare') hplan'
    rw [mem_paths_iff_of_bare hfields hrootFields hrecords hbare,
      mem_paths_iff_of_bare hfields hrootFields hrecords' hbare']
    constructor
    · rintro ⟨t', ht', steps, hchain, hsegments⟩
      obtain ⟨t, ht, hall⟩ := hinside' t' ht'
      exact ⟨t, ht, steps, hchain.congr hall, hsegments⟩
    · rintro ⟨t, ht, steps, hchain, hsegments⟩
      obtain ⟨t', ht', hall⟩ := hinside t ht
      exact ⟨t', ht', steps, hchain.congr hall, hsegments⟩

section Shelf

open Sample

/-- The types of authors and what they lead to. -/
def authorTypes : TypeGraph :=
  ((Building.node Shelf.catalog ⟨Shelf.author, .object⟩).run .empty).2

/-- A selection of authors with the first of their books, and of all books with their authors. -/
def twiceBooks : Selection :=
  .mk "authors" "authors" [] [
    .mk "first" "books" [("limit", .int 1)] [.mk "author" "author" [] []],
    .mk "books" "books" [] [.mk "author" "author" [] [.mk "books" "books" [] []]]]

/-- The paths that are planned for it. -/
def twiceBooksPaths : Option (List String) :=
  (authorTypes.object Shelf.author).toOption.bind fun root =>
    (ofSelections Shelf.catalog authorTypes root [twiceBooks]).toOption.map paths

theorem proper_twiceBooks : ∀ s ∈ [twiceBooks].flatMap (·.children), s.Proper := by
  have hleaf : ∀ key name, (Selection.mk key name [] []).Proper := fun _ _ => .mk nofun nofun
  refine List.forall_mem_cons.2 ⟨.mk ?_ ?_, List.forall_mem_singleton.2 (.mk nofun ?_)⟩
  · exact List.forall_mem_singleton.2 (.int 1)
  · exact List.forall_mem_singleton.2 (hleaf _ _)
  · exact List.forall_mem_singleton.2 (.mk nofun (List.forall_mem_singleton.2 (hleaf _ _)))

/-- The books are restricted by the selection that comes first, and only what it selects is planned
below them. -/
theorem exact_of_ofSelections_twiceBooks : ∃ root plan,
    authorTypes.object Shelf.author = .ok root ∧
      ofSelections Shelf.catalog authorTypes root [twiceBooks] = .ok plan ∧
      plan.paths = ["books", "books.author"] ∧ plan.ParentsFirst ∧
      let trails := Selection.trailsIn twiceBooks.children
      (∀ path, path ∈ ["books", "books.author"] ↔ ∃ trail ∈ trails,
        plan.Admits Shelf.catalog authorTypes root path trail) ∧
      ∀ path args, plan.argsOf path = some args →
        ∃ trail, plan.First Shelf.catalog authorTypes root path trails trail ∧
          Restricts Shelf.catalog authorTypes root trail args := by
  have hdots : Shelf.catalog.Dotless := Catalog.dotless_of_all (by decide +kernel)
  have hpaths : twiceBooksPaths = some ["books", "books.author"] := by decide +kernel
  obtain ⟨root, hroot, hplanned⟩ := Option.bind_eq_some_iff.1 hpaths
  obtain ⟨plan, hplan, hnames⟩ := Option.map_eq_some_iff.1 hplanned
  have hroot := eq_ok_of_toOption hroot
  have hplan := eq_ok_of_toOption hplan
  obtain ⟨-, hparents, hexact, hfirst, -⟩ :=
    exact_of_ofSelections (.node ⟨Shelf.author, .object⟩ .empty) hdots hroot proper_twiceBooks hplan
  exact ⟨root, plan, hroot, hplan, hnames, hparents, hnames ▸ hexact, hfirst⟩

end Shelf

end LoadPlan

end EntityGraph
