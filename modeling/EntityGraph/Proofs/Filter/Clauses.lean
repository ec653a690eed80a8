import EntityGraph.Proofs.Outcome
import EntityGraph.Filter.Compile

/-!
# The parts of a compiled filter

A filter is compiled from the conditions of its fields, its conjuncts, its alternatives and the
filter that it negates.

* `FilterExpr.nested_induction` is induction over the filters inside a filter;
* `FilterExpr.compileAt_eq_ok` says of which conditions a compiled filter is made;
* `FilterExpr.exists_kept` says which filters of a list are compiled: from each of the others, an
  equal one comes earlier.
-/

namespace EntityGraph

namespace FilterExpr

/-- Induction over the filters inside a filter: those of its relations, its conjuncts, its
alternatives and the one that it negates. -/
theorem nested_induction {P : FilterExpr → Prop}
    (step : ∀ fields conjuncts alternatives negated,
      (∀ p t g, FieldFilter.relation p t g ∈ fields → P g) → (∀ g ∈ conjuncts, P g) →
      (∀ g ∈ alternatives, P g) → (∀ g ∈ negated, P g) →
      P (mk fields conjuncts alternatives negated))
    (f : FilterExpr) : P f := by
  -- fields, lists of filters and an optional filter are the other types of the recursion
  refine FilterExpr.rec (motive_1 := P) (motive_2 := fun x => ∀ p t g, x = .relation p t g → P g)
    (motive_3 := fun fields => ∀ p t g, FieldFilter.relation p t g ∈ fields → P g)
    (motive_4 := fun filters => ∀ g ∈ filters, P g) (motive_5 := fun negated => ∀ g ∈ negated, P g)
    step ?_ ?_ ?_ ?_ ?_ ?_ ?_ ?_ f
  · rintro p op v q t g ⟨⟩
  · rintro p t g hg q u g' ⟨⟩
    exact hg
  · intro p t g hg
    simp at hg
  · intro x fields hx hfields p t g hg
    rcases List.mem_cons.1 hg with rfl | hg
    · exact hx p t g rfl
    · exact hfields p t g hg
  · intro g hg
    simp at hg
  · intro a filters ha hfilters g hg
    rcases List.mem_cons.1 hg with rfl | hg
    · exact ha
    · exact hfilters g hg
  · intro g hg
    simp at hg
  · rintro a ha g ⟨⟩
    exact ha

variable {c : Catalog} {maxDepth depth : Nat} {model : ModelId} {table : String}

theorem compileFields_eq_mapM (fields : List FieldFilter) :
    compileFields c maxDepth model table depth fields
      = fields.mapM (compileField c maxDepth model table depth) := by
  induction fields with
  | nil => rfl
  | cons x fields ih => rw [compileFields, ih, List.mapM_cons]

theorem compileFields_eq_ok {fields : List FieldFilter} {conditions : List Condition} :
    compileFields c maxDepth model table depth fields = .ok conditions ↔
      List.Forall₂ (fun x condition => compileField c maxDepth model table depth x = .ok condition)
        fields conditions := by
  rw [compileFields_eq_mapM, mapM_eq_ok]

/-- The condition of a negated filter, none for none. -/
def NegatedCondition (c : Catalog) (maxDepth : Nat) (model : ModelId) (table : String)
    (depth : Nat) : Option FilterExpr → List Condition → Prop
  | none, conditions => conditions = []
  | some g, conditions => ∃ condition,
    g.compileAt c maxDepth model table depth = .ok condition ∧ conditions = [.not condition]

/-- A compiled filter joins the conditions of its parts. -/
theorem compileAt_eq_ok {fields : List FieldFilter} {conjuncts alternatives : List FilterExpr}
    {negated : Option FilterExpr} {clause : Condition} :
    (mk fields conjuncts alternatives negated).compileAt c maxDepth model table depth = .ok clause ↔
      ∃ own all any not,
        compileFields c maxDepth model table depth fields = .ok own ∧
        compileAll c maxDepth model table depth [] conjuncts = .ok all ∧
        compileAll c maxDepth model table depth [] alternatives = .ok any ∧
        NegatedCondition c maxDepth model table depth negated not ∧
        clause = Condition.conjunction (own ++ all ++ alternativesCondition any ++ not) := by
  cases negated with
  | none =>
    simp only [compileAt, bind_eq_ok, pure_eq_ok, NegatedCondition]
    constructor
    · rintro ⟨own, hown, all, hall, any, hany, rfl⟩
      exact ⟨own, all, any, [], hown, hall, hany, rfl, by simp⟩
    · rintro ⟨own, all, any, not, hown, hall, hany, rfl, rfl⟩
      exact ⟨own, hown, all, hall, any, hany, by simp⟩
  | some g =>
    simp only [compileAt, bind_eq_ok, pure_eq_ok, NegatedCondition]
    constructor
    · rintro ⟨own, hown, all, hall, any, hany, not, hnot, rfl⟩
      exact ⟨own, all, any, [.not not], hown, hall, hany, ⟨not, hnot, rfl⟩, rfl⟩
    · rintro ⟨own, all, any, not, hown, hall, hany, ⟨condition, hnot, rfl⟩, rfl⟩
      exact ⟨own, hown, all, hall, any, hany, condition, hnot, rfl⟩

/-- The conditions of a list are those of filters that are kept; a filter that is left out equals
one that is kept or comes earlier. -/
theorem exists_kept {earlier filters : List FilterExpr} {conditions : List Condition}
    (h : compileAll c maxDepth model table depth earlier filters = .ok conditions) :
    ∃ kept, kept ⊆ filters ∧
      List.Forall₂ (fun g condition => compileAt c maxDepth model table depth g = .ok condition)
        kept conditions ∧
      ∀ f ∈ filters, f ∈ kept ∨ ∃ g ∈ earlier ++ kept, g.same f = true := by
  induction filters generalizing earlier conditions with
  | nil =>
    simp only [compileAll, Except.ok.injEq] at h
    subst h
    exact ⟨[], by simp, .nil, by simp⟩
  | cons f rest ih =>
    simp only [compileAll] at h
    -- the first filter equals an earlier one and is left out, or it is compiled and kept
    split_ifs at h with hf
    · obtain ⟨kept, hsub, hkept, hrest⟩ := ih h
      refine ⟨kept, List.subset_cons_of_subset f hsub, hkept, ?_⟩
      intro g hg
      rcases List.mem_cons.1 hg with rfl | hg
      · obtain ⟨e, he, hsame⟩ := List.any_eq_true.1 hf
        exact .inr ⟨e, List.mem_append_left kept he, hsame⟩
      · exact hrest g hg
    · simp only [bind_eq_ok, pure_eq_ok] at h
      obtain ⟨condition, hcondition, conditions, hconditions, rfl⟩ := h
      obtain ⟨kept, hsub, hkept, hrest⟩ := ih hconditions
      refine ⟨f :: kept, List.cons_subset_cons f hsub, .cons hcondition hkept, ?_⟩
      intro g hg
      rcases List.mem_cons.1 hg with rfl | hg
      · exact .inl List.mem_cons_self
      · rcases hrest g hg with hmem | ⟨e, he, hsame⟩
        · exact .inl (List.mem_cons_of_mem f hmem)
        · exact .inr ⟨e, by simpa [List.append_assoc] using he, hsame⟩

theorem compileField_relation_eq_ok {property : String} {target : ModelId} {filter : FilterExpr}
    {condition : Condition} :
    compileField c maxDepth model table depth (.relation property target filter) = .ok condition ↔
      depth + 1 ≤ maxDepth ∧ ∃ r inner, c.relation model property = .ok r ∧
        filter.compileAt c maxDepth r.target r.targetTable (depth + 1) = .ok inner ∧
        condition = linked r inner := by
  simp only [compileField]
  split_ifs with hdepth
  · simp [Nat.not_le.2 hdepth]
  · simp only [bind_eq_ok, pure_eq_ok, Nat.not_lt.1 hdepth, true_and]
    constructor
    · rintro ⟨r, hr, inner, hinner, rfl⟩
      exact ⟨r, inner, hr, hinner, rfl⟩
    · rintro ⟨r, inner, hr, hinner, rfl⟩
      exact ⟨r, hr, inner, hinner, rfl⟩

theorem compilePredicate_eq_ok {property : String} {op : FilterOperator} {operand : Literal}
    {condition : Condition} :
    compilePredicate c model table property op operand = .ok condition ↔
      ∃ p kind datum, c.property model property = .ok p ∧ p.scalarKind = some kind ∧
        Datum.ofLiteral kind operand = .ok datum ∧
        predicateCondition (propertyColumn table property) op datum = .ok condition := by
  simp only [compilePredicate, bind_eq_ok, elim_error_eq_ok]
  constructor
  · rintro ⟨p, hp, kind, hkind, datum, hdatum, h⟩
    exact ⟨p, kind, datum, hp, hkind, hdatum, h⟩
  · rintro ⟨p, kind, datum, hp, hkind, hdatum, h⟩
    exact ⟨p, hp, kind, hkind, datum, hdatum, h⟩

/-- What a compiled filter on a model is made from, in the terms of the model. -/
theorem compile_eq_ok {f : FilterExpr} {clause : Condition} :
    f.compile c maxDepth model = .ok clause ↔
      ∃ table, c.table model = .ok table ∧
        f.compileAt c maxDepth model table 0 = .ok clause := by
  simp only [compile, bind_eq_ok]

end FilterExpr

end EntityGraph
