import EntityGraph.Proofs.Filter.Levels
import EntityGraph.Proofs.Filter.Same
import EntityGraph.Proofs.Resolve.Inputs

/-!
# The limit on the depth of filters

The depth of a filter is the largest number of relations on one of its branches; combinations of
filters do not count. A filter is compiled where its depth is within the limit, and fails with the
first number beyond it otherwise.

* `Limited limit e n x` says this of a computation `x` of depth `n` that fails with `e`; it holds of
  a computation of two steps with the larger of their depths;
* `FilterExpr.depth_of_same` says that equal filters are equally deep, so that leaving one out hides
  no relation;
* `FilterExpr.limited_compile` is the result for filters that were read.
-/

namespace EntityGraph

/-- A computation succeeds where a number is within a limit, and fails with an error beyond it. -/
def Limited {α : Type} (limit : Nat) (e : Error) (n : Nat) (x : Except Error α) : Prop :=
  (n ≤ limit → ∃ a, x = .ok a) ∧ (limit < n → x = .error e)

namespace Limited

variable {α β : Type} {limit n k : Nat} {e : Error} {x : Except Error α}

theorem ok (h : n ≤ limit) (a : α) : Limited limit e n (.ok a) :=
  ⟨fun _ => ⟨a, rfl⟩, fun hlimit => absurd h (Nat.not_le.2 hlimit)⟩

theorem error (h : limit < n) : Limited limit e n (.error e : Except Error α) :=
  ⟨fun hlimit => absurd hlimit (Nat.not_le.2 h), fun _ => rfl⟩

/-- What takes place after a first step depends on it only if that succeeds. -/
theorem bind {f : α → Except Error β} (hx : Limited limit e n x)
    (hf : n ≤ limit → ∀ a, Limited limit e k (f a)) : Limited limit e (max n k) (x >>= f) := by
  by_cases hn : n ≤ limit
  · obtain ⟨a, rfl⟩ := hx.1 hn
    have ha := hf hn a
    exact ⟨fun hmax => ha.1 (by omega), fun hmax => ha.2 (by omega)⟩
  · rw [hx.2 (by omega)]
    exact error (by omega)

theorem map {f : α → β} (hx : Limited limit e n x) :
    Limited limit e n (x >>= fun a => pure (f a)) := by
  constructor
  · intro hn
    obtain ⟨a, rfl⟩ := hx.1 hn
    exact ⟨f a, rfl⟩
  · intro hn
    rw [hx.2 hn]
    rfl

/-- A step that would stay within the limit can be left out. -/
theorem skip (hn : n ≤ limit) (hx : Limited limit e k x) : Limited limit e (max n k) x :=
  ⟨fun hmax => hx.1 (by omega), fun hmax => hx.2 (by omega)⟩

theorem isOk_iff (hx : Limited limit e n x) : (∃ a, x = .ok a) ↔ n ≤ limit := by
  refine ⟨fun ⟨a, ha⟩ => Nat.not_lt.1 fun hn => ?_, hx.1⟩
  cases ha.symm.trans (hx.2 hn)

end Limited

theorem Property.type_eq_of_target {p : Property} {target : ModelId}
    (h : p.target = some target) : p.type = .model target := by
  unfold Property.target at h
  split at h
  next htype => rw [htype, Option.some.inj h]
  · cases h

namespace FilterExpr

mutual

/-- The largest number of relations on a branch of a filter. -/
def depth : FilterExpr → Nat
  | mk fields conjuncts alternatives none =>
    max (depthFields fields) (max (depthAll conjuncts) (depthAll alternatives))
  | mk fields conjuncts alternatives (some negated) =>
    max (depthFields fields) (max (depthAll conjuncts) (max (depthAll alternatives)
      (depth negated)))

/-- The largest number of relations on a branch of some filters. -/
def depthAll : List FilterExpr → Nat
  | [] => 0
  | f :: rest => max (depth f) (depthAll rest)

/-- The largest number of relations on a branch of a condition on a property. -/
def depthField : FieldFilter → Nat
  | .predicate _ _ _ => 0
  | .relation _ _ filter => depth filter + 1

/-- The largest number of relations on a branch of some conditions on properties. -/
def depthFields : List FieldFilter → Nat
  | [] => 0
  | x :: rest => max (depthField x) (depthFields rest)

end

mutual

/-- The comparisons in a filter on a model, with the models that they are about. -/
def predicates (model : ModelId) : FilterExpr → List (ModelId × FieldFilter)
  | mk fields conjuncts alternatives none => fieldPredicates model fields ++
    allPredicates model conjuncts ++ allPredicates model alternatives
  | mk fields conjuncts alternatives (some negated) => fieldPredicates model fields ++
    allPredicates model conjuncts ++ allPredicates model alternatives ++ predicates model negated

/-- The comparisons in filters on a model. -/
def allPredicates (model : ModelId) : List FilterExpr → List (ModelId × FieldFilter)
  | [] => []
  | f :: rest => predicates model f ++ allPredicates model rest

/-- The comparisons in a condition on a property of a model. -/
def ownPredicates (model : ModelId) : FieldFilter → List (ModelId × FieldFilter)
  | .predicate property op operand => [(model, .predicate property op operand)]
  | .relation _ target filter => predicates target filter

/-- The comparisons in conditions on properties of a model. -/
def fieldPredicates (model : ModelId) : List FieldFilter → List (ModelId × FieldFilter)
  | [] => []
  | x :: rest => ownPredicates model x ++ fieldPredicates model rest

end

/-- Every comparison in a filter has a condition on its own. -/
def PredicatesCompile (c : Catalog) (model : ModelId) (f : FilterExpr) : Prop :=
  ∀ x ∈ f.predicates model, ∃ clause, (mk [x.2] [] [] none).compile c 0 x.1 = .ok clause

section Same

theorem depthAll_congr {fs gs : List FilterExpr}
    (h : List.Forall₂ (fun f g => f.depth = g.depth) fs gs) : depthAll fs = depthAll gs := by
  induction h with
  | nil => rfl
  | cons hfg _ ih => rw [depthAll, depthAll, hfg, ih]

theorem depthFields_congr {xs ys : List FieldFilter}
    (h : List.Forall₂ (fun x y => depthField x = depthField y) xs ys) :
    depthFields xs = depthFields ys := by
  induction h with
  | nil => rfl
  | cons hxy _ ih => rw [depthFields, depthFields, hxy, ih]

/-- Equal filters are equally deep. -/
theorem depth_of_same {f g : FilterExpr} (h : f.same g = true) : f.depth = g.depth := by
  induction f using nested_induction generalizing g with
  | step fields conjuncts alternatives negated ihfields ihall ihany ihnot =>
    obtain ⟨fields', conjuncts', alternatives', negated'⟩ := g
    simp only [same, Bool.and_eq_true] at h
    obtain ⟨⟨⟨hfields, hall⟩, hany⟩, hnot⟩ := h
    have hfields : depthFields fields = depthFields fields' := by
      refine depthFields_congr
        (forall₂_imp_of_mem (sameFields_iff.1 hfields) fun x hx y _ hxy => ?_)
      cases x with
      | predicate property op operand =>
        cases y with
        | predicate property' op' operand' => rfl
        | relation property' target' filter' => cases hxy
      | relation property target filter =>
        cases y with
        | predicate property' op' operand' => cases hxy
        | relation property' target' filter' =>
          simp only [sameField, Bool.and_eq_true] at hxy
          rw [depthField, depthField, ihfields property target filter hx hxy.2]
    have hall : depthAll conjuncts = depthAll conjuncts' :=
      depthAll_congr (forall₂_imp_of_mem (sameAll_iff.1 hall) fun a ha b _ hab => ihall a ha hab)
    have hany : depthAll alternatives = depthAll alternatives' :=
      depthAll_congr (forall₂_imp_of_mem (sameAll_iff.1 hany) fun a ha b _ hab => ihany a ha hab)
    cases negated with
    | none =>
      cases negated' with
      | none => rw [depth, depth, hfields, hall, hany]
      | some n' => cases hnot
    | some n =>
      cases negated' with
      | none => cases hnot
      | some n' =>
        have hn : n.depth = n'.depth := ihnot n rfl hnot
        rw [depth, depth, hfields, hall, hany, hn]

end Same

section Predicates

variable {c : Catalog} {m : ModelId}

theorem allPredicates_eq (filters : List FilterExpr) :
    allPredicates m filters = filters.flatMap (predicates m) := by
  induction filters with
  | nil => rfl
  | cons f rest ih => rw [allPredicates, ih, List.flatMap_cons]

theorem fieldPredicates_eq (fields : List FieldFilter) :
    fieldPredicates m fields = fields.flatMap (ownPredicates m) := by
  induction fields with
  | nil => rfl
  | cons x rest ih => rw [fieldPredicates, ih, List.flatMap_cons]

/-- The comparisons in a filter are those in its parts. -/
theorem mem_predicates {fields : List FieldFilter} {conjuncts alternatives : List FilterExpr}
    {negated : Option FilterExpr} {x : ModelId × FieldFilter} :
    x ∈ (mk fields conjuncts alternatives negated).predicates m ↔
      (∃ y ∈ fields, x ∈ ownPredicates m y) ∨ (∃ g ∈ conjuncts, x ∈ g.predicates m) ∨
        (∃ g ∈ alternatives, x ∈ g.predicates m) ∨ ∃ g ∈ negated, x ∈ g.predicates m := by
  cases negated with
  | none => simp [predicates, allPredicates_eq, fieldPredicates_eq]
  | some n => simp [predicates, allPredicates_eq, fieldPredicates_eq]

/-- A comparison that has a condition on its own has one on the table of its model. -/
theorem exists_compilePredicate {property : String} {op : FilterOperator} {operand : Literal}
    {clause : Condition} {table : String} (htable : c.table m = .ok table)
    (h : (mk [.predicate property op operand] [] [] none).compile c 0 m = .ok clause) :
    ∃ condition, compilePredicate c m table property op operand = .ok condition := by
  obtain ⟨table', htable', h⟩ := compile_eq_ok.1 h
  obtain rfl := Except.ok.inj (htable.symm.trans htable')
  obtain ⟨own, _, _, _, hown, -⟩ := compileAt_eq_ok.1 h
  cases compileFields_eq_ok.1 hown with
  | cons hcondition _ => exact ⟨_, hcondition⟩

end Predicates

section Compile

variable {c : Catalog} {m : ModelId} {table : String} {limit k : Nat}

theorem limited_compileFields {fields : List FieldFilter} (hk : k ≤ limit)
    (h : ∀ x ∈ fields, Limited limit (.filterTooDeep (limit + 1)) (k + depthField x)
      (compileField c limit m table k x)) :
    Limited limit (.filterTooDeep (limit + 1)) (k + depthFields fields)
      (compileFields c limit m table k fields) := by
  induction fields with
  | nil => exact .ok hk []
  | cons x rest ih =>
    rw [compileFields, depthFields, ← Nat.add_max_add_left]
    exact (h x List.mem_cons_self).bind fun _ condition =>
      (ih fun y hy => h y (List.mem_cons_of_mem x hy)).map

/-- A filter that is left out is no deeper than the one that comes earlier. -/
theorem limited_compileAll {filters earlier : List FilterExpr} (hk : k ≤ limit)
    (h : ∀ g ∈ filters, Limited limit (.filterTooDeep (limit + 1)) (k + g.depth)
      (g.compileAt c limit m table k))
    (hearlier : ∀ g ∈ earlier, k + g.depth ≤ limit) :
    Limited limit (.filterTooDeep (limit + 1)) (k + depthAll filters)
      (compileAll c limit m table k earlier filters) := by
  induction filters generalizing earlier with
  | nil => exact .ok hk []
  | cons f rest ih =>
    have hrest := fun g hg => h g (List.mem_cons_of_mem f hg)
    rw [compileAll, depthAll, ← Nat.add_max_add_left]
    by_cases hf : earlier.any (·.same f) = true
    · rw [if_pos hf]
      obtain ⟨g, hg, hsame⟩ := List.any_eq_true.1 hf
      have hdepth : g.depth = f.depth := depth_of_same hsame
      exact (ih hrest hearlier).skip (hdepth ▸ hearlier g hg)
    · rw [if_neg hf]
      refine (h f List.mem_cons_self).bind fun hdepth condition => (ih hrest fun g hg => ?_).map
      rcases List.mem_append.1 hg with hg | hg
      · exact hearlier g hg
      · rw [List.mem_singleton.1 hg]
        exact hdepth

/-- The filter on a relation is one level deeper. -/
theorem limited_compileField {x : FieldFilter} (hk : k ≤ limit) (htable : c.table m = .ok table)
    (hc : ∀ m, c.Resolves m) (hread : FieldRead c m x)
    (hpredicates : ∀ y ∈ ownPredicates m x, ∃ clause,
      (mk [y.2] [] [] none).compile c 0 y.1 = .ok clause)
    (hbelow : ∀ property target g, x = .relation property target g → ∀ table,
      c.table target = .ok table → k + 1 ≤ limit →
        Limited limit (.filterTooDeep (limit + 1)) (k + 1 + g.depth)
          (g.compileAt c limit target table (k + 1))) :
    Limited limit (.filterTooDeep (limit + 1)) (k + depthField x)
      (compileField c limit m table k x) := by
  cases x with
  | predicate property op operand =>
    obtain ⟨clause, hclause⟩ := hpredicates _ List.mem_cons_self
    obtain ⟨condition, hcondition⟩ := exists_compilePredicate htable hclause
    rw [compileField, hcondition]
    exact .ok hk condition
  | relation property target g =>
    rw [compileField, depthField]
    by_cases hdeep : limit < k + 1
    · rw [if_pos hdeep, show k + 1 = limit + 1 by omega]
      exact .error (by omega)
    · rw [if_neg hdeep]
      obtain ⟨p, hp, -, htarget, -⟩ := hread
      obtain ⟨r, hr⟩ := hc m property p target hp (Property.type_eq_of_target htarget)
      obtain ⟨-, hrelated, p', hp', htarget', -⟩ := Catalog.relation_eq_ok hr
      obtain rfl := Except.ok.inj (hp.symm.trans hp')
      obtain rfl := Option.some.inj (htarget.symm.trans htarget')
      have hinner := (hbelow property _ g rfl r.targetTable hrelated (by omega)).map
        (f := fun inner => linked r inner)
      rw [hr, show k + (g.depth + 1) = k + 1 + g.depth by omega]
      exact hinner

/-- A filter that was read is compiled within the limit, and fails beyond it. -/
theorem limited_compileAt (hc : ∀ m, c.Resolves m) {f : FilterExpr} (hk : k ≤ limit)
    (htable : c.table m = .ok table) (hread : ∃ l, parse c m l = .ok f)
    (hpredicates : f.PredicatesCompile c m) :
    Limited limit (.filterTooDeep (limit + 1)) (k + f.depth)
      (f.compileAt c limit m table k) := by
  induction f using nested_induction generalizing m table k with
  | step fields conjuncts alternatives negated ihfields ihall ihany ihnot =>
    obtain ⟨l, hl⟩ := hread
    obtain ⟨hfields, hall, hany, hnot⟩ := read_of_parse hl
    have hown := limited_compileFields hk fun x hx =>
      limited_compileField hk htable hc (hfields x hx)
        (fun y hy => hpredicates y (mem_predicates.2 (.inl ⟨x, hx, hy⟩)))
        (by
          rintro property target g rfl table htable hk'
          obtain ⟨-, -, -, -, hg⟩ := hfields _ hx
          exact ihfields property target g hx hk' htable hg fun y hy =>
            hpredicates y (mem_predicates.2 (.inl ⟨_, hx, hy⟩)))
    -- combined filters nest no deeper by themselves, only relations do
    have hcombined : ∀ filters : List FilterExpr, (∀ g ∈ filters,
        Limited limit (.filterTooDeep (limit + 1)) (k + g.depth) (g.compileAt c limit m table k)) →
        Limited limit (.filterTooDeep (limit + 1)) (k + depthAll filters)
          (compileAll c limit m table k [] filters) :=
      fun filters h => limited_compileAll hk h (by simp)
    have hconjuncts := hcombined conjuncts fun g hg => ihall g hg hk htable (hall g hg) fun y hy =>
      hpredicates y (mem_predicates.2 (.inr (.inl ⟨g, hg, hy⟩)))
    have halternatives := hcombined alternatives fun g hg =>
      ihany g hg hk htable (hany g hg) fun y hy =>
        hpredicates y (mem_predicates.2 (.inr (.inr (.inl ⟨g, hg, hy⟩))))
    cases negated with
    | none =>
      rw [compileAt, depth, ← Nat.add_max_add_left, ← Nat.add_max_add_left]
      exact hown.bind fun _ own => hconjuncts.bind fun _ all => halternatives.map
    | some n =>
      have hn := ihnot n rfl hk htable (hnot n rfl) fun y hy =>
        hpredicates y (mem_predicates.2 (.inr (.inr (.inr ⟨n, rfl, hy⟩))))
      rw [compileAt, depth, ← Nat.add_max_add_left, ← Nat.add_max_add_left,
        ← Nat.add_max_add_left]
      exact hown.bind fun _ own => hconjuncts.bind fun _ all =>
        halternatives.bind fun _ any => hn.map

/-- A filter on a known model is compiled where its depth is within the limit. -/
theorem limited_compile (hc : ∀ m, c.Resolves m) (hm : c.contains m = true) {f : FilterExpr}
    {l : Literal} (hread : parse c m l = .ok f) (hpredicates : f.PredicatesCompile c m) :
    Limited limit (.filterTooDeep (limit + 1)) f.depth (f.compile c limit m) := by
  obtain ⟨d, hd⟩ := Catalog.exists_definition_of_contains hm
  have htable : c.table m = .ok d.tableName := bind_eq_ok.2 ⟨d, hd, rfl⟩
  have h := limited_compileAt (k := 0) hc (Nat.zero_le limit) htable ⟨l, hread⟩ hpredicates
  rw [Nat.zero_add] at h
  rw [compile, htable]
  exact h

end Compile

end FilterExpr

end EntityGraph
