import EntityGraph.Proofs.Filter.Clauses
import EntityGraph.Proofs.Filter.References
import EntityGraph.Proofs.Relation.Link

/-!
# What the arguments of a list add to a query

The filter of a list adds a condition on the table of the model, and the order adds joins and a
term. Which ones does not depend on the query: `ListArgs.Added` says what is added to a query
whatever it holds already, and `ListArgs.added_of_refine` that successful arguments add something of
this kind.
-/

namespace EntityGraph

namespace FilterExpr

variable {c : Catalog} {maxDepth depth : Nat} {model : ModelId} {T : String}

theorem scopeAll_alternativesCondition (cs : List Condition) :
    Condition.scopeAll (alternativesCondition cs) = Condition.scopeAll cs := by
  cases cs with
  | nil => rfl
  | cons c cs => simp [alternativesCondition, Condition.scopeAll, Condition.scope_disjunction]

theorem scope_compileField {x : FieldFilter} {clause : Condition} (hT : c.table model = .ok T)
    (h : compileField c maxDepth model T depth x = .ok clause) :
    ∀ column ∈ clause.scope, column.table = some T := by
  cases x with
  | predicate property op operand =>
    obtain ⟨p, kind, datum, -, -, -, hclause⟩ := compilePredicate_eq_ok.1 h
    rw [(reads_predicateCondition hclause).2]
    simp [propertyColumn]
  | relation property target g =>
    obtain ⟨-, r, inner, hr, -, rfl⟩ := compileField_relation_eq_ok.1 h
    obtain rfl : r.ownerTable = T := Except.ok.inj ((Catalog.relation_eq_ok hr).1.symm.trans hT)
    rw [linked_eq, Condition.scope]
    simp

theorem scope_compileAll {filters : List FilterExpr} {conditions : List Condition}
    (h : compileAll c maxDepth model T depth [] filters = .ok conditions)
    (heach : ∀ g ∈ filters, ∀ clause, g.compileAt c maxDepth model T depth = .ok clause →
      ∀ column ∈ clause.scope, column.table = some T) :
    ∀ column ∈ Condition.scopeAll conditions, column.table = some T := by
  intro column hcolumn
  obtain ⟨kept, hsub, hkept, -⟩ := exists_kept h
  obtain ⟨clause, hclause, hmem⟩ := Condition.mem_scopeAll.1 hcolumn
  obtain ⟨g, hg, hcompile⟩ := exists_of_forall₂_right hkept hclause
  exact heach g (hsub hg) clause hcompile column hmem

/-- Of the tested row itself a compiled filter looks at columns of the model's table only. -/
theorem scope_compileAt {f : FilterExpr} {clause : Condition} (hT : c.table model = .ok T)
    (h : f.compileAt c maxDepth model T depth = .ok clause) :
    ∀ column ∈ clause.scope, column.table = some T := by
  induction f using nested_induction generalizing clause with
  | step fields conjuncts alternatives negated _ ihall ihany ihnot =>
    obtain ⟨own, all, any, not, hown, hall, hany, hnot, rfl⟩ := compileAt_eq_ok.1 h
    intro column hcolumn
    rw [Condition.scope_conjunction, Condition.scopeAll_append, Condition.scopeAll_append,
      Condition.scopeAll_append, scopeAll_alternativesCondition] at hcolumn
    simp only [List.mem_append] at hcolumn
    rcases hcolumn with ((hcolumn | hcolumn) | hcolumn) | hcolumn
    · obtain ⟨clause, hclause, hmem⟩ := Condition.mem_scopeAll.1 hcolumn
      obtain ⟨x, -, hx⟩ := exists_of_forall₂_right (compileFields_eq_ok.1 hown) hclause
      exact scope_compileField hT hx column hmem
    · exact scope_compileAll hall (fun g hg _ => ihall g hg) column hcolumn
    · exact scope_compileAll hany (fun g hg _ => ihany g hg) column hcolumn
    · cases negated with
      | none =>
        rw [NegatedCondition] at hnot
        subst hnot
        simp [Condition.scopeAll] at hcolumn
      | some g =>
        obtain ⟨condition, hcondition, rfl⟩ := hnot
        simp only [Condition.scopeAll, Condition.scope, List.append_nil] at hcolumn
        exact ihnot g rfl hcondition column hcolumn

end FilterExpr

namespace Query

/-- The query with several further joins. -/
def joinAll (q : Query) (js : List Join) : Query :=
  js.foldl join q

variable {q q' : Query} {js : List Join}

theorem join_eq (q : Query) (j : Join) : q.join j = { q with joins := (q.join j).joins } := by
  unfold join
  split_ifs <;> rfl

theorem mem_joins_join {j k : Join} : k ∈ (q.join j).joins ↔ k ∈ q.joins ∨ k = j := by
  unfold join
  split_ifs with hj
  · constructor
    · exact .inl
    · rintro (hk | rfl)
      · exact hk
      · exact hj
  · simp

theorem joinAll_eq (q : Query) (js : List Join) :
    q.joinAll js = { q with joins := (q.joinAll js).joins } := by
  induction js generalizing q with
  | nil => rfl
  | cons j js ih =>
    change (q.join j).joinAll js = { q with joins := ((q.join j).joinAll js).joins }
    rw [ih, join_eq]

theorem mem_joins_joinAll {k : Join} : k ∈ (q.joinAll js).joins ↔ k ∈ q.joins ∨ k ∈ js := by
  induction js generalizing q with
  | nil => simp [joinAll]
  | cons j js ih =>
    change k ∈ ((q.join j).joinAll js).joins ↔ _
    rw [ih, mem_joins_join, List.mem_cons, or_assoc]

/-- Different joins that a query does not have are all added to it. -/
theorem joins_joinAll_of_nodup (hjs : js.Nodup) (hnew : ∀ j ∈ js, j ∉ q.joins) :
    (q.joinAll js).joins = q.joins ++ js := by
  induction js generalizing q with
  | nil => exact (List.append_nil _).symm
  | cons j js ih =>
    obtain ⟨hj, hjs⟩ := List.nodup_cons.1 hjs
    have hjoin : (q.join j).joins = q.joins ++ [j] := by
      rw [join, if_neg (hnew j List.mem_cons_self)]
    have hrest := ih (q := q.join j) hjs fun k hk => by
      rw [hjoin, List.mem_append, List.mem_singleton, not_or]
      exact ⟨hnew k (List.mem_cons_of_mem j hk), fun hkj => hj (hkj ▸ hk)⟩
    rw [hjoin, List.append_assoc] at hrest
    exact hrest

/-- Joins are added behind others that they do not repeat. -/
theorem joins_joinAll {pre : List Join} (hpre : ∀ j ∈ js, j ∉ pre)
    (h : q.joins = pre ++ q'.joins) : (q.joinAll js).joins = pre ++ (q'.joinAll js).joins := by
  induction js generalizing q q' with
  | nil => exact h
  | cons j js ih =>
    suffices hstep : (q.join j).joins = pre ++ (q'.join j).joins from
      ih (fun k hk => hpre k (List.mem_cons_of_mem j hk)) hstep
    have hj : j ∈ q.joins ↔ j ∈ q'.joins := by
      rw [h, List.mem_append, or_iff_right (hpre j List.mem_cons_self)]
    unfold join
    split_ifs with h₁ h₂ h₂
    · exact h
    · exact absurd (hj.1 h₁) h₂
    · exact absurd (hj.2 h₂) h₁
    · simp [h]

end Query

namespace OrderExpr

variable {c : Catalog} {maxDepth depth : Nat} {model : ModelId} {T : String}

/-- A column is one of a table or of the tables of some joins. -/
def Within (T : String) (js : List Join) (column : Column) : Prop :=
  column.table = some T ∨ ∃ j ∈ js, column.table = some j.table

theorem joinAlong_eq_some {r : Relation} {j : Join} (h : joinAlong T r = some j) :
    j.table = r.targetTable ∧ ∀ column ∈ j.reads,
      column.table = some r.targetTable ∨ column.table = some T := by
  obtain ⟨property, ownerTable, target, targetTable, link⟩ := r
  cases link <;> simp only [joinAlong, Option.some.injEq, reduceCtorEq] at h
  all_goals
    subst h
    simp [Join.reads, idColumn]

/-- The direction of an order. -/
def direction : OrderExpr → Direction
  | field _ direction => direction
  | relation _ _ order => order.direction

/-- The joins of an order on a model, from the model's table along its relations. -/
def joins (c : Catalog) : OrderExpr → ModelId → String → List Join
  | field _ _, _, _ => []
  | relation property target order, model, T => match c.relation model property with
    | .error _ => []
    | .ok r => (joinAlong T r).toList ++ order.joins c target r.targetTable

/-- The column at the end of an order on a model. -/
def sortColumn (c : Catalog) : OrderExpr → ModelId → String → Column
  | field property _, _, T => propertyColumn T property
  | relation property target order, model, T => match c.relation model property with
    | .error _ => propertyColumn T property
    | .ok r => order.sortColumn c target r.targetTable

/-- An order adds its joins and its term to every query. They look at the table of the model and at
the tables that are joined. -/
theorem applyAt_eq_ok {order : OrderExpr} {q q' : Query}
    (h : order.applyAt c maxDepth q model T depth = .ok q') :
    (∀ q : Query, order.applyAt c maxDepth q model T depth
      = .ok ((q.joinAll (order.joins c model T)).orderBy (order.sortColumn c model T)
        order.direction)) ∧
    (∀ j ∈ order.joins c model T, ∀ column ∈ j.reads, Within T (order.joins c model T) column) ∧
    Within T (order.joins c model T) (order.sortColumn c model T) := by
  induction order generalizing q model T depth with
  | field property direction => exact ⟨fun q => rfl, by simp [joins], .inl rfl⟩
  | relation property target order ih =>
    simp only [applyAt] at h
    split_ifs at h with hdepth
    obtain ⟨r, hr, h⟩ := bind_eq_ok.1 h
    cases hjoin : joinAlong T r with
    | none => simp [hjoin] at h
    | some j =>
      simp only [hjoin] at h
      obtain ⟨hadd, hreads, hterm⟩ := ih h
      obtain ⟨htable, hj⟩ := joinAlong_eq_some hjoin
      have hjoins : (relation property target order).joins c model T
          = j :: order.joins c target r.targetTable := by
        simp only [joins, hr, hjoin]
        rfl
      have hcolumn : (relation property target order).sortColumn c model T
          = order.sortColumn c target r.targetTable := by
        simp only [sortColumn, hr]
      rw [hjoins, hcolumn]
      -- what lies within the target's table and later joins lies within these and the first join
      have hwithin : ∀ {js : List Join} {column}, Within r.targetTable js column →
          Within T (j :: js) column := by
        rintro js column (hcolumn | ⟨k, hk, hcolumn⟩)
        · exact .inr ⟨j, List.mem_cons_self, htable ▸ hcolumn⟩
        · exact .inr ⟨k, List.mem_cons_of_mem j hk, hcolumn⟩
      refine ⟨fun q => ?_, ?_, hwithin hterm⟩
      · simp only [applyAt, if_neg hdepth]
        refine bind_eq_ok.2 ⟨r, hr, ?_⟩
        simp only [hjoin]
        exact hadd (q.join j)
      · intro k hk column hcolumn
        rcases List.mem_cons.1 hk with rfl | hk
        · rcases hj column hcolumn with htarget | hT
          · exact hwithin (.inl htarget)
          · exact .inl hT
        · exact hwithin (hreads k hk column hcolumn)

end OrderExpr

namespace ListArgs

variable {c : Catalog} {maxDepth : Nat} {model : ModelId} {T : String} {args : ListArgs}

/-- What the arguments of a list add to queries on a model's table. -/
structure Added (args : ListArgs) (c : Catalog) (maxDepth : Nat) (model : ModelId) (T : String)
    where
  joins : List Join
  clauses : List Condition
  order : List OrderTerm
  /-- The same is added to every query that has none of the joins. -/
  refine_eq : ∀ pre filters, (∀ j ∈ joins, j ∉ pre) →
    args.refine c maxDepth model ⟨T, pre, filters, [], .none, .none⟩
      = .ok ⟨T, pre ++ joins, filters ++ clauses, order, .none, .none⟩
  scope : ∀ column ∈ Condition.scopeAll clauses, column.table = some T
  reads : ∀ j ∈ joins, ∀ column ∈ j.reads, OrderExpr.Within T joins column
  sorted : ∀ term ∈ order, OrderExpr.Within T joins term.column
  length_order : order.length ≤ 1

theorem refine_eq_bind (q : Query) : args.refine c maxDepth model q
    = (match args.filter with
      | some f => q.restrict c maxDepth model f
      | .none => pure q) >>= fun q =>
      match args.order with
      | some order => q.sort c maxDepth model order
      | .none => return q := by
  rw [refine]
  cases args.filter <;> rfl

theorem exists_clauses {filter : Option FilterExpr} {q q' : Query} (hT : c.table model = .ok T)
    (h : (match filter with
      | some f => q.restrict c maxDepth model f
      | .none => pure q) = .ok q') :
    ∃ clauses, (∀ q : Query, (match filter with
        | some f => q.restrict c maxDepth model f
        | .none => pure q) = .ok { q with filters := q.filters ++ clauses }) ∧
      ∀ column ∈ Condition.scopeAll clauses, column.table = some T := by
  cases filter with
  | none => exact ⟨[], fun q => by rw [List.append_nil]; rfl, by simp [Condition.scopeAll]⟩
  | some f =>
    simp only [Query.restrict, bind_eq_ok, pure_eq_ok] at h
    obtain ⟨clause, hclause, -⟩ := h
    obtain ⟨table, htable, hcompile⟩ := FilterExpr.compile_eq_ok.1 hclause
    obtain rfl : T = table := Except.ok.inj (hT.symm.trans htable)
    refine ⟨if clause.isTrivial then [] else [clause], fun q => ?_, ?_⟩
    · simp only [Query.restrict, hclause]
      change Except.ok (q.filter clause) = _
      rw [Query.filter]
      split_ifs <;> simp
    · split_ifs
      · simp [Condition.scopeAll]
      · simpa [Condition.scopeAll] using FilterExpr.scope_compileAt hT hcompile

theorem exists_order {order : Option OrderExpr} {q q' : Query} (hT : c.table model = .ok T)
    (h : (match order with
      | some order => q.sort c maxDepth model order
      | .none => return q) = .ok q') :
    ∃ (js : List Join) (terms : List OrderTerm),
      (∀ q : Query, (match order with
          | some order => q.sort c maxDepth model order
          | .none => return q) = .ok { q.joinAll js with order := q.order ++ terms }) ∧
      (∀ j ∈ js, ∀ column ∈ j.reads, OrderExpr.Within T js column) ∧
      (∀ term ∈ terms, OrderExpr.Within T js term.column) ∧ terms.length ≤ 1 := by
  cases order with
  | none => exact ⟨[], [], fun q => by rw [List.append_nil]; rfl, by simp, by simp, by simp⟩
  | some order =>
    simp only [Query.sort, bind_eq_ok] at h
    obtain ⟨table, htable, h⟩ := h
    obtain rfl : T = table := Except.ok.inj (hT.symm.trans htable)
    obtain ⟨hadd, hreads, hterm⟩ := OrderExpr.applyAt_eq_ok h
    refine ⟨order.joins c model T, [⟨order.sortColumn c model T, order.direction⟩],
      fun q => bind_eq_ok.2 ⟨T, hT, ?_⟩, hreads, by simpa using hterm, by simp⟩
    have horder : (q.joinAll (order.joins c model T)).order = q.order := by rw [Query.joinAll_eq]
    rw [hadd q, Query.orderBy, horder]

/-- Arguments that restrict one query add the same to all. -/
theorem added_of_refine {q q' : Query} (hT : c.table model = .ok T)
    (h : args.refine c maxDepth model q = .ok q') :
    Nonempty (args.Added c maxDepth model T) := by
  rw [refine_eq_bind] at h
  obtain ⟨q₁, hfilter, horder⟩ := bind_eq_ok.1 h
  obtain ⟨clauses, hclauses, hscope⟩ := exists_clauses hT hfilter
  obtain ⟨js, terms, hterms, hreads, hsorted, hlength⟩ := exists_order hT horder
  have hmem : ∀ {j}, j ∈ ((Query.all T).joinAll js).joins ↔ j ∈ js := by
    simp [Query.mem_joins_joinAll, Query.all]
  have hwithin : ∀ {column}, OrderExpr.Within T js column →
      OrderExpr.Within T ((Query.all T).joinAll js).joins column := by
    rintro column (hcolumn | ⟨j, hj, hcolumn⟩)
    · exact .inl hcolumn
    · exact .inr ⟨j, hmem.2 hj, hcolumn⟩
  refine ⟨⟨((Query.all T).joinAll js).joins, clauses, terms, fun pre filters hpre => ?_, hscope,
    fun j hj column hcolumn => hwithin (hreads j (hmem.1 hj) column hcolumn),
    fun term hterm => hwithin (hsorted term hterm), hlength⟩⟩
  rw [refine_eq_bind]
  refine bind_eq_ok.2 ⟨_, hclauses _, (hterms _).trans ?_⟩
  have hjoins : (Query.joinAll ⟨T, pre, filters ++ clauses, [], .none, .none⟩ js).joins
      = pre ++ ((Query.all T).joinAll js).joins :=
    Query.joins_joinAll (fun j hj => hpre j (hmem.2 hj)) (by simp [Query.all])
  rw [Query.joinAll_eq, hjoins]
  rfl

end ListArgs

end EntityGraph
