import EntityGraph.Proofs.Access.Selections
import EntityGraph.Proofs.Faults.Arguments
import EntityGraph.Proofs.Request.Plan

/-!
# Faults in planning

A plan keeps the order of a relation with a path of names. Loading follows the path through the
relations of the catalog, so that the order is applied to the model at its end: the model on which
it was read, if names hold no dot.

* `Selection.Each` is a condition on the fields of a selection, at any depth;
* `TypeGraph.Leads` and `TypeGraph.Relates` say where the fields of types lead;
* `LoadPlan.ends_ofSelections` says that planning finds no other faults, and that the orders of the
  plan can be applied.
-/

namespace EntityGraph

/-! ### The fields of a selection -/

/-- A condition on the name and the arguments of a selected field and of all inside it. -/
inductive Selection.Each (P : String → List (String × Literal) → Prop) : Selection → Prop where
  | mk {key name : String} {args : List (String × Literal)} {children : List Selection} :
    P name args → (∀ s ∈ children, Each P s) → Each P (.mk key name args children)

namespace Selection

variable {P : String → List (String × Literal) → Prop} {s : Selection}

theorem Each.field (h : s.Each P) : P s.name s.args := by
  cases h with
  | mk hfield _ => exact hfield

theorem Each.children (h : s.Each P) : ∀ t ∈ s.children, t.Each P := by
  cases h with
  | mk _ hchildren => exact hchildren

mutual

/-- What holds of all fields inside some selections holds of each of these at any depth. -/
theorem each_of_inside {top : List Selection} (h : ∀ s, Inside top s → P s.name s.args) :
    ∀ s, Inside top s → s.Each P
  | .mk _ _ _ children, hs =>
    .mk (h _ hs) (each_of_forall_inside h children fun _ ht => hs.child ht)

theorem each_of_forall_inside {top : List Selection} (h : ∀ s, Inside top s → P s.name s.args) :
    ∀ l : List Selection, (∀ s ∈ l, Inside top s) → ∀ s ∈ l, s.Each P
  | [], _ => fun _ hs => nomatch hs
  | s :: rest, hl => List.forall_mem_cons.2 ⟨each_of_inside h s (hl s List.mem_cons_self),
      each_of_forall_inside h rest fun t ht => hl t (List.mem_cons_of_mem s ht)⟩

end

mutual

/-- A selection that is cut off at a depth keeps its fields. -/
theorem Each.upTo : ∀ (depth : Nat) (s : Selection), s.Each P → (s.upTo depth).Each P
  | depth, .mk key name args children, .mk hfield hchildren => by
    rw [Selection.upTo]
    refine .mk hfield ?_
    split_ifs
    · exact fun _ ht => nomatch ht
    · exact Each.childrenUpTo (depth - 1) children hchildren

theorem Each.childrenUpTo : ∀ (depth : Nat) (l : List Selection), (∀ s ∈ l, s.Each P) →
    ∀ s ∈ Selection.childrenUpTo depth l, s.Each P
  | _, [], _ => fun _ hs => nomatch hs
  | depth, s :: rest, hl => by
    obtain ⟨hs, hrest⟩ := List.forall_mem_cons.1 hl
    rw [Selection.childrenUpTo]
    exact List.forall_mem_cons.2 ⟨Each.upTo depth s hs, Each.childrenUpTo depth rest hrest⟩

end

theorem Each.descend (h : s.Each P) (path : List String) : ∀ t ∈ s.descend path, t.Each P := by
  suffices hfold : ∀ found : List Selection, (∀ t ∈ found, t.Each P) → ∀ t ∈
      path.foldl (fun found name => found.flatMap (·.childrenNamed name)) found, t.Each P from
    hfold [s] (List.forall_mem_singleton.2 h)
  induction path with
  | nil => exact fun _ hfound => hfound
  | cons name path ih =>
    refine fun found hfound => ih _ fun t ht => ?_
    obtain ⟨parent, hparent, ht⟩ := List.mem_flatMap.1 ht
    exact (hfound parent hparent).children t (List.mem_filter.1 ht).1

end Selection

/-- What planning relies on in a selected field: that relations to many which reading its arguments
finds in an order are known, and that its name holds no dot, unless internal errors do not
matter. -/
structure Selection.Readable (c : Catalog) (known : Error → Prop) (name : String)
    (args : List (String × Literal)) : Prop where
  parse : ∀ m property, ListArgs.parse c m args = .error (.badInput (.orderByMany property)) →
    known (.badInput (.orderByMany property))
  dotless : Tolerant known ∨ '.' ∉ name.toList

theorem Selection.readable_of_tolerant {c : Catalog} {known : Error → Prop} (h : Tolerant known)
    (name : String) (args : List (String × Literal)) : Readable c known name args :=
  ⟨fun _ _ _ => h _ rfl, .inl h⟩

/-! ### Where fields and paths lead -/

/-- The property of a name is a relation to a model. -/
def Catalog.LeadsTo (c : Catalog) (m : ModelId) (name : String) (target : ModelId) : Prop :=
  ∃ p, c.property m name = .ok p ∧ p.target = some target

/-- The fields of the types of a graph lead to models among some, whose objects are there. -/
def TypeGraph.Leads (g : TypeGraph) (S : ModelId → Prop) : Prop :=
  ∀ n ∈ g.nodes, ∀ f ∈ n.fields, ∀ target, f.shape.target = some target →
    S target ∧ ∃ n', g.object target = .ok n'

/-- The fields of the types of a graph show relations of the models of the types, which are lists
unless the fields lead to one entity; those of connections and edges lead to the models
themselves. -/
structure TypeGraph.Relates (g : TypeGraph) (c : Catalog) : Prop where
  relation : ∀ n ∈ g.nodes, ∀ f ∈ n.fields, ∀ target, f.shape.related = some target →
    ∃ p, c.property n.key.model f.name = .ok p ∧ p.target = some target ∧
      f.shape.isToOne = !p.isList
  own : ∀ n ∈ g.nodes, ∀ f ∈ n.fields, ∀ target,
    f.shape = .edges target ∨ f.shape = .node target → target = n.key.model

/-- What planning and resolvers rely on: faults of the catalog are known, and the fields of the
graph lead to models among those, along relations. -/
structure TypeGraph.Covers (g : TypeGraph) (c : Catalog) (S : ModelId → Prop)
    (known : Error → Prop) : Prop where
  catalog : c.Covers S known
  leads : g.Leads S
  relates : g.Relates c

section

variable {c : Catalog} {g : TypeGraph} {S : ModelId → Prop} {known : Error → Prop}
  {m target : ModelId} {name : String}

theorem Catalog.leadsTo_of_relation {r : Relation} (h : c.relation m name = .ok r) :
    c.LeadsTo m name r.target := by
  obtain ⟨-, -, p, hp, htarget, -⟩ := relation_eq_ok h
  exact ⟨p, hp, htarget⟩

theorem Catalog.LeadsTo.eq {target' : ModelId} (h : c.LeadsTo m name target)
    (h' : c.LeadsTo m name target') : target = target' := by
  obtain ⟨p, hp, htarget⟩ := h
  obtain ⟨p', hp', htarget'⟩ := h'
  obtain rfl := Except.ok.inj (hp.symm.trans hp')
  exact Option.some.inj (htarget.symm.trans htarget')

theorem TypeGraph.Relates.leadsTo (hg : g.Relates c) {n : TypeNode} (hn : n ∈ g.nodes)
    {f : FieldNode} (hf : f ∈ n.fields) (htarget : f.shape.related = some target) :
    c.LeadsTo n.key.model f.name target := by
  obtain ⟨p, hp, hp', -⟩ := hg.relation n hn f hf target htarget
  exact ⟨p, hp, hp'⟩

namespace LoadPlan

/-- A path from a model leads to another one, if it leads anywhere, or internal errors do not
matter. -/
def ArrivesAt (c : Catalog) (known : Error → Prop) (m : ModelId) (path : Option String)
    (target : ModelId) : Prop :=
  Tolerant known ∨ ∀ model, c.follow m (path.elim [] Loader.segments) = .ok model → model = target

theorem ArrivesAt.extend {path : Option String} {owner : ModelId}
    (h : ArrivesAt c known m path owner) (hname : Tolerant known ∨ '.' ∉ name.toList)
    (hlead : c.LeadsTo owner name target) :
    ArrivesAt c known m (some (extend path name)) target := by
  rcases h with ht | h
  · exact .inl ht
  refine hname.imp_right fun hdotless model hmodel => ?_
  rw [Option.elim_some, Loader.segments_extend path hdotless] at hmodel
  obtain ⟨above, r, habove, hr, rfl⟩ := Catalog.follow_append_eq_ok.1 hmodel
  obtain rfl := h above habove
  exact (Catalog.leadsTo_of_relation hr).eq hlead

/-- The orders in a plan for entities of a model apply to queries on the models to which their paths
lead. -/
def Sorts (c : Catalog) (S : ModelId → Prop) (known : Error → Prop) (m : ModelId) (p : LoadPlan) :
    Prop :=
  ∀ x ∈ p, ∀ model, S model → c.follow m (Loader.segments x.1) = .ok model →
    x.2.Sorts c known model

variable {p : LoadPlan}

theorem Sorts.addPath (hp : p.Sorts c S known m) (path : String) {args : ListArgs}
    (hargs : ∀ model, S model → c.follow m (Loader.segments path) = .ok model →
      args.Sorts c known model) : (p.addPath path args).1.Sorts c S known m := by
  unfold LoadPlan.addPath
  split
  · exact List.forall_mem_append.2 ⟨hp, List.forall_mem_singleton.2 hargs⟩
  · exact hp

/-- The relation that a selection goes through is one of the type. -/
theorem related_of_step? {node : TypeNode} {s : Selection} {paged : Bool}
    (h : step? node s = some (target, paged)) :
    ∃ f ∈ node.fields, f.name = s.name ∧ f.shape.related = some target := by
  obtain ⟨f, hfield, hshape⟩ := step?_eq_some h
  obtain ⟨hf, hname⟩ := TypeNode.field?_eq_some hfield
  refine ⟨f, hf, hname, ?_⟩
  rcases hshape with ⟨-, hshape | hshape⟩ | ⟨-, hshape⟩ <;> rw [hshape] <;> rfl

mutual

/-- Planning a field finds no other faults, and the orders of the plan can be applied. -/
theorem ends_collectField (h : g.Covers c S known) : ∀ (s : Selection) (node : TypeNode)
    (path : Option String) (p : LoadPlan), node ∈ g.nodes →
    ArrivesAt c known m path node.key.model → s.Each (Selection.Readable c known) →
    p.Sorts c S known m → Ends known (collectField c g node path p s) (Sorts c S known m)
  | .mk key name args children, node, path, p, hnode, hat, .mk hreadable hchildren, hp => by
    rw [collectField]
    split
    · exact .pure hp
    next target paged hstep =>
      obtain ⟨f, hf, (hname : f.name = name), hrelated⟩ := related_of_step? hstep
      obtain ⟨hS, hobject⟩ := h.leads node hnode f hf target (FieldShape.target_of_related hrelated)
      have hbelow : ArrivesAt c known m (some (extend path name)) target :=
        hat.extend hreadable.dotless (hname ▸ h.relates.leadsTo hnode hf hrelated)
      refine (ListArgs.ends_parse h.catalog hS args (hreadable.parse target)).bind
        fun listArgs _ hread => ?_
      have hadded := hp.addPath (extend path name) fun model hm hfollow =>
        hread.sorts h.catalog hS hm (hbelow.imp_right fun harrives => harrives model hfollow)
      rcases hadd : p.addPath (extend path name) listArgs with ⟨p₁, isNew⟩
      rw [hadd] at hadded
      cases isNew with
      | false => exact .pure hadded
      | true =>
        obtain ⟨targetNode, hobject⟩ := hobject
        obtain ⟨hmem, hkey⟩ := TypeGraph.object_eq_ok hobject
        have hat : ArrivesAt c known m (some (extend path name)) targetNode.key.model :=
          hkey ▸ hbelow
        simp only [hobject, bind, Except.bind]
        split_ifs
        · exact ends_collectEdges h children targetNode _ p₁ hmem hat hchildren hadded
        · exact ends_collect h children targetNode _ p₁ hmem hat hchildren hadded

theorem ends_collect (h : g.Covers c S known) : ∀ (l : List Selection) (node : TypeNode)
    (path : Option String) (p : LoadPlan), node ∈ g.nodes →
    ArrivesAt c known m path node.key.model → (∀ s ∈ l, s.Each (Selection.Readable c known)) →
    p.Sorts c S known m → Ends known (collect c g node path p l) (Sorts c S known m)
  | [], _, _, _, _, _, _, hp => .pure hp
  | s :: rest, node, path, p, hnode, hat, hl, hp => by
    obtain ⟨hs, hrest⟩ := List.forall_mem_cons.1 hl
    rw [collect]
    exact (ends_collectField h s node path p hnode hat hs hp).bind fun p₁ _ hp₁ =>
      ends_collect h rest node path p₁ hnode hat hrest hp₁

theorem ends_collectEdge (h : g.Covers c S known) : ∀ (s : Selection) (node : TypeNode)
    (path : Option String) (p : LoadPlan), node ∈ g.nodes →
    ArrivesAt c known m path node.key.model → s.Each (Selection.Readable c known) →
    p.Sorts c S known m → Ends known (collectEdge c g node path p s) (Sorts c S known m)
  | .mk key name args children, node, path, p, hnode, hat, .mk _ hchildren, hp => by
    rw [collectEdge]
    split_ifs
    · exact ends_collectNodes h children node path p hnode hat hchildren hp
    · exact .pure hp

theorem ends_collectEdges (h : g.Covers c S known) : ∀ (l : List Selection) (node : TypeNode)
    (path : Option String) (p : LoadPlan), node ∈ g.nodes →
    ArrivesAt c known m path node.key.model → (∀ s ∈ l, s.Each (Selection.Readable c known)) →
    p.Sorts c S known m → Ends known (collectEdges c g node path p l) (Sorts c S known m)
  | [], _, _, _, _, _, _, hp => .pure hp
  | s :: rest, node, path, p, hnode, hat, hl, hp => by
    obtain ⟨hs, hrest⟩ := List.forall_mem_cons.1 hl
    rw [collectEdges]
    exact (ends_collectEdge h s node path p hnode hat hs hp).bind fun p₁ _ hp₁ =>
      ends_collectEdges h rest node path p₁ hnode hat hrest hp₁

theorem ends_collectNode (h : g.Covers c S known) : ∀ (s : Selection) (node : TypeNode)
    (path : Option String) (p : LoadPlan), node ∈ g.nodes →
    ArrivesAt c known m path node.key.model → s.Each (Selection.Readable c known) →
    p.Sorts c S known m → Ends known (collectNode c g node path p s) (Sorts c S known m)
  | .mk key name args children, node, path, p, hnode, hat, .mk _ hchildren, hp => by
    rw [collectNode]
    split_ifs
    · exact ends_collect h children node path p hnode hat hchildren hp
    · exact .pure hp

theorem ends_collectNodes (h : g.Covers c S known) : ∀ (l : List Selection) (node : TypeNode)
    (path : Option String) (p : LoadPlan), node ∈ g.nodes →
    ArrivesAt c known m path node.key.model → (∀ s ∈ l, s.Each (Selection.Readable c known)) →
    p.Sorts c S known m → Ends known (collectNodes c g node path p l) (Sorts c S known m)
  | [], _, _, _, _, _, _, hp => .pure hp
  | s :: rest, node, path, p, hnode, hat, hl, hp => by
    obtain ⟨hs, hrest⟩ := List.forall_mem_cons.1 hl
    rw [collectNodes]
    exact (ends_collectNode h s node path p hnode hat hs hp).bind fun p₁ _ hp₁ =>
      ends_collectNodes h rest node path p₁ hnode hat hrest hp₁

end

/-- Planning finds no other faults, and the orders of the plan can be applied. -/
theorem ends_ofSelections (h : g.Covers c S known) {root : TypeNode} (hroot : root ∈ g.nodes)
    {selections : List Selection}
    (hselections : ∀ s ∈ selections, s.Each (Selection.Readable c known)) :
    Ends known (ofSelections c g root selections) (Sorts c S known root.key.model) :=
  .foldlM (fun p hp s hs => ends_collect h s.children root none p hroot
    (.inr fun _ hmodel => (Except.ok.inj hmodel).symm) (hselections s hs).children hp)
    fun _ hx => nomatch hx

end LoadPlan

end

end EntityGraph
