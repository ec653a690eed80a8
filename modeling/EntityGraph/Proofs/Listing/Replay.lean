import EntityGraph.Proofs.Access.Filtering
import EntityGraph.Proofs.Listing.Pages
import EntityGraph.Proofs.Order.Again

/-!
# Replaying the restrictions of a list

A list is restricted step by step, by windows, filters and orders. Its query gathers all filters and
orders; its arguments, which are replayed to load the same entities elsewhere, keep the last of each
kind.

* `Restriction.Takes` is what a successful step makes of the query, and `ListArgs.record` what it
  makes of the arguments;
* `Restriction.TakeAll.recorded` says that the arguments can be replayed;
* `Gathered` is the invariant of steps whose filters are alike and whose orders are: the query
  repeats what the replay has once;
* `Paginator.replay_args` is the result.
-/

namespace EntityGraph

/-- A step by which a list is restricted. -/
inductive Restriction where
  | limit (n : Option Nat)
  | offset (n : Option Nat)
  | filter (f : FilterExpr)
  | order (o : Option OrderExpr)

namespace Restriction

/-- The limit that a step sets. -/
def limit? : Restriction → Option (Option Nat)
  | limit n => some n
  | _ => none

/-- The offset that a step sets. -/
def offset? : Restriction → Option (Option Nat)
  | offset n => some n
  | _ => none

/-- The filter of a step, unless it is empty. -/
def filter? : Restriction → Option FilterExpr
  | filter f => if f.isEmpty then none else some f
  | _ => none

/-- The order of a step. -/
def order? : Restriction → Option OrderExpr
  | order o => o
  | _ => none

end Restriction

/-- The arguments after a further step: of each kind of restriction the last one counts. -/
def ListArgs.record (args : ListArgs) (r : Restriction) : ListArgs :=
  ⟨r.filter?.or args.filter, r.order?.or args.order, r.limit?.getD args.limit,
    r.offset?.getD args.offset⟩

/-- The arguments after several steps are the last restrictions of each kind. -/
theorem ListArgs.foldl_record (rs : List Restriction) (args : ListArgs) :
    rs.foldl ListArgs.record args = ⟨(rs.reverse.findSome? Restriction.filter?).or args.filter,
      (rs.reverse.findSome? Restriction.order?).or args.order,
      (rs.reverse.findSome? Restriction.limit?).getD args.limit,
      (rs.reverse.findSome? Restriction.offset?).getD args.offset⟩ := by
  induction rs generalizing args with
  | nil => rfl
  | cons r rs ih =>
    rw [List.foldl_cons, ih]
    simp [ListArgs.record, List.findSome?_append, Option.or_assoc]

namespace Guard

/-- A policy allows to filter a model, and by each property that the filter looks at. -/
def AllowsFilter (g : Guard) (caller : Caller) (model : ModelId) (f : FilterExpr) : Prop :=
  g.policy.allows caller { plain .filter model with filter := some f } = true ∧
    ∀ r ∈ f.references model, g.policy.allows caller (propertyCheck r) = true

variable {g : Guard} {caller : Caller} {model : ModelId} {f : FilterExpr} {w w' : World}

theorem runIn_requireAll_of_allowed {checks : List Reference}
    (h : ∀ r ∈ checks, g.policy.allows caller (propertyCheck r) = true) (w : World) :
    ∃ w', w'.store = w.store ∧
      (checks.forM fun r => g.require caller (propertyCheck r)).runIn w = (.ok (), w') := by
  induction checks generalizing w with
  | nil => exact ⟨w, rfl, rfl⟩
  | cons r rest ih =>
    obtain ⟨hr, hrest⟩ := List.forall_mem_cons.1 h
    obtain ⟨w', hstore, hrun⟩ := ih hrest (w.note (.check caller (propertyCheck r) true))
    refine ⟨w', hstore, ?_⟩
    rw [List.forM, Action.runIn_bind_ok (runIn_require_eq_ok.2 ⟨hr, rfl⟩), hrun]

/-- The guard lets a filter pass in one world exactly if it does in all. -/
theorem runIn_requireFilter_of_allowed (h : g.AllowsFilter caller model f) (w : World) :
    ∃ w', w'.store = w.store ∧ (g.requireFilter caller model f).runIn w = (.ok (), w') := by
  obtain ⟨w', hstore, hrun⟩ := runIn_requireAll_of_allowed h.2
    (w.note (.check caller { plain .filter model with filter := some f } true))
  refine ⟨w', hstore, ?_⟩
  rw [requireFilter, Action.runIn_bind_ok (runIn_require_eq_ok.2 ⟨h.1, rfl⟩), hrun]

theorem allowsFilter_of_runIn (h : (g.requireFilter caller model f).runIn w = (.ok (), w')) :
    g.AllowsFilter caller model f := by
  unfold requireFilter at h
  obtain ⟨_, w₁, hfilter, hrefs⟩ := Action.runIn_bind_eq_ok.1 h
  exact ⟨(runIn_require_eq_ok.1 hfilter).1, (runIn_requireAll hrefs).1⟩

end Guard

namespace Restriction

variable {c : Catalog} {maxDepth : Nat} {model : ModelId} {g : Guard} {caller : Caller}

/-- What a step that succeeds makes of the query of a list. -/
inductive Takes (c : Catalog) (maxDepth : Nat) (model : ModelId) (g : Guard) (caller : Caller) :
    Restriction → Query → Query → Prop where
  | keep {r : Restriction} (q : Query) : r.filter? = none → r.order? = none →
      Takes c maxDepth model g caller r q q
  | filter {f : FilterExpr} {q q' : Query} : f.isEmpty = false → g.AllowsFilter caller model f →
      q.restrict c maxDepth model f = .ok q' → Takes c maxDepth model g caller (.filter f) q q'
  | order {o : OrderExpr} {q q' : Query} : q.sort c maxDepth model o = .ok q' →
      Takes c maxDepth model g caller (.order (some o)) q q'

/-- What several steps make of the query of a list. -/
inductive TakeAll (c : Catalog) (maxDepth : Nat) (model : ModelId) (g : Guard) (caller : Caller) :
    List Restriction → Query → Query → Prop where
  | nil (q : Query) : TakeAll c maxDepth model g caller [] q q
  | cons {r : Restriction} {rs : List Restriction} {q q₁ q' : Query} :
      r.Takes c maxDepth model g caller q q₁ → TakeAll c maxDepth model g caller rs q₁ q' →
      TakeAll c maxDepth model g caller (r :: rs) q q'

end Restriction

namespace Paginator

variable {c : Catalog} {maxDepth : Nat} {model : ModelId} {g : Guard} {caller : Caller}
  {q : Query} {args : ListArgs} {p : Paginator} {w w' : World}

/-- A list after a further step. -/
def step (g : Guard) (caller : Caller) (p : Paginator) : Restriction → Action Paginator
  | .limit n => pure (p.withLimit n)
  | .offset n => pure (p.withOffset n)
  | .filter f => p.restrict g caller f
  | .order o => Action.ofExcept (p.sort o)

/-- A list after several steps. -/
def steps (g : Guard) (caller : Caller) : Paginator → List Restriction → Action Paginator
  | p, [] => pure p
  | p, r :: rs => do
    let p ← p.step g caller r
    p.steps g caller rs

/-- The list of a query that was restricted by some arguments. -/
def listing (c : Catalog) (maxDepth : Nat) (model : ModelId) (q : Query) (args : ListArgs) :
    Paginator :=
  ⟨c, maxDepth, model, .query q, args.limit, args.offset, none, args.filter, args.order⟩

/-- What one step does to the query of a list and to its arguments. -/
theorem exists_takes {r : Restriction}
    (h : ((listing c maxDepth model q args).step g caller r).runIn w = (.ok p, w')) :
    ∃ q', r.Takes c maxDepth model g caller q q' ∧
      p = listing c maxDepth model q' (args.record r) := by
  cases r with
  | limit n =>
    cases h
    exact ⟨q, .keep q rfl rfl, rfl⟩
  | offset n =>
    cases h
    exact ⟨q, .keep q rfl rfl, rfl⟩
  | filter f =>
    change ((listing c maxDepth model q args).restrict g caller f).runIn w = _ at h
    unfold restrict at h
    split_ifs at h with hempty
    · cases h
      have hnone : Restriction.filter? (.filter f) = none := if_pos hempty
      refine ⟨q, .keep q hnone rfl, ?_⟩
      rw [ListArgs.record, hnone]
      rfl
    · -- a filter that is not empty was allowed, since the step went on
      have hsome : Restriction.filter? (.filter f) = some f := if_neg hempty
      rw [Action.runIn_bind_eq_ok] at h
      obtain ⟨_, w₁, hrequire, h⟩ := h
      rw [Action.runIn_ofExcept_bind_eq_ok] at h
      obtain ⟨q₀, hq₀, h⟩ := h
      rw [Action.runIn_ofExcept_bind_eq_ok] at h
      obtain ⟨q', hq', h⟩ := h
      cases hq₀
      cases h
      refine ⟨q', .filter (by simpa using hempty) (Guard.allowsFilter_of_runIn hrequire) hq', ?_⟩
      rw [ListArgs.record, hsome]
      rfl
  | order o =>
    cases o with
    | none =>
      cases h
      exact ⟨q, .keep q rfl rfl, rfl⟩
    | some o =>
      have hsort : (listing c maxDepth model q args).sort (some o) = .ok p := by
        rw [step, Action.runIn_ofExcept] at h
        exact congrArg Prod.fst h
      obtain ⟨q₀, hq₀, hsort⟩ := bind_eq_ok.1 hsort
      obtain ⟨q', hq', hp⟩ := bind_eq_ok.1 hsort
      cases hq₀
      cases hp
      exact ⟨q', .order hq', rfl⟩

/-- What several steps do to the query of a list and to its arguments. -/
theorem exists_takeAll {rs : List Restriction}
    (h : ((listing c maxDepth model q args).steps g caller rs).runIn w = (.ok p, w')) :
    ∃ q', Restriction.TakeAll c maxDepth model g caller rs q q' ∧
      p = listing c maxDepth model q' (rs.foldl ListArgs.record args) := by
  induction rs generalizing q args w with
  | nil =>
    cases h
    exact ⟨q, .nil q, rfl⟩
  | cons r rs ih =>
    obtain ⟨p₁, w₁, hfirst, hrest⟩ := Action.runIn_bind_eq_ok.1 h
    obtain ⟨q₁, htakes, rfl⟩ := exists_takes hfirst
    obtain ⟨q', htakeAll, rfl⟩ := ih hrest
    exact ⟨q', .cons htakes htakeAll, rfl⟩

end Paginator

namespace Query

variable {c : Catalog} {maxDepth : Nat} {model : ModelId} {f : FilterExpr} {o : OrderExpr}
  {q q' : Query}

/-- A query restricted by a filter, if there is one. -/
def restrictBy (c : Catalog) (maxDepth : Nat) (model : ModelId) (q : Query) :
    Option FilterExpr → Except Error Query
  | none => .ok q
  | some f => q.restrict c maxDepth model f

/-- A query in an order, if there is one. -/
def sortBy (c : Catalog) (maxDepth : Nat) (model : ModelId) (q : Query) :
    Option OrderExpr → Except Error Query
  | none => .ok q
  | some o => q.sort c maxDepth model o

/-- A query with the conditions that were added to it, and with the joins and the order. -/
def combine (base filtered sorted : Query) : Query :=
  { base with joins := sorted.joins, filters := filtered.filters, order := sorted.order }

/-- What a filter adds to one query it adds to all. -/
theorem restrict_adds (h : q.restrict c maxDepth model f = .ok q') :
    ∃ clause, ∀ p : Query, p.restrict c maxDepth model f = .ok (p.filter clause) := by
  obtain ⟨clause, hclause, -⟩ := bind_eq_ok.1 h
  exact ⟨clause, fun p => bind_eq_ok.2 ⟨clause, hclause, rfl⟩⟩

theorem filter_eq (q : Query) (clause : Condition) :
    q.filter clause = { q with filters := (q.filter clause).filters } := by
  unfold filter
  split_ifs <;> rfl

/-- The same joins are added to the joins that two queries have in common. -/
theorem joins_joinAll_congr (h : q.joins = q'.joins) (js : List Join) :
    (q.joinAll js).joins = (q'.joinAll js).joins := by
  have hnew : ∀ j ∈ js, j ∉ ([] : List Join) := fun _ _ => List.not_mem_nil
  exact joins_joinAll hnew h

/-- A condition is added to a list of conditions and to one that repeats it. -/
theorem repeats_filter (h : Repeats [] q.filters q'.filters) (clause : Condition) :
    Repeats [] (q.filter clause).filters (q'.filter clause).filters := by
  unfold filter
  split_ifs
  · exact h
  · exact h.append clause

/-- A condition is added to a list of conditions that repeats it already. -/
theorem repeats_filter_again {clause : Condition}
    (h : Repeats [] (q.filter clause).filters q'.filters) :
    Repeats [] (q.filter clause).filters (q'.filter clause).filters := by
  unfold filter at h ⊢
  split_ifs at h ⊢
  · exact h
  · exact h.append_again (.inr (by simp))

end Query

/-- A query that holds what a filter and an order make of another one, with some of the conditions
and terms again. -/
structure Gathered (c : Catalog) (maxDepth : Nat) (model : ModelId) (base : Query)
    (filter : Option FilterExpr) (order : Option OrderExpr) (q : Query) : Prop where
  table : q.table = base.table
  filters : ∃ qf, base.restrictBy c maxDepth model filter = .ok qf ∧
    Repeats [] qf.filters q.filters
  order : ∃ qo, base.sortBy c maxDepth model order = .ok qo ∧ q.joins = qo.joins ∧
    Repeats [] qo.order q.order

namespace Gathered

variable {c : Catalog} {maxDepth : Nat} {model : ModelId} {base q q' : Query}
  {filter : Option FilterExpr} {order : Option OrderExpr}

/-- Nothing is gathered at the start. -/
theorem start (base : Query) : Gathered c maxDepth model base none none base :=
  ⟨rfl, ⟨base, rfl, .refl [] _⟩, base, rfl, rfl, .refl [] _⟩

/-- A filter is the first one, or does what the one before does. -/
theorem filter_step (h : Gathered c maxDepth model base filter order q) {f : FilterExpr}
    (hf : q.restrict c maxDepth model f = .ok q') (halike : ∀ f' ∈ filter,
      base.restrict c maxDepth model f' = base.restrict c maxDepth model f) :
    Gathered c maxDepth model base (some f) order q' := by
  obtain ⟨clause, hadd⟩ := Query.restrict_adds hf
  obtain rfl := Except.ok.inj ((hadd q).symm.trans hf)
  obtain ⟨qf, hqf, hrepeats⟩ := h.filters
  have hjoins : (q.filter clause).joins = q.joins := by rw [Query.filter_eq]
  have horder : (q.filter clause).order = q.order := by rw [Query.filter_eq]
  have htable : (q.filter clause).table = q.table := by rw [Query.filter_eq]
  refine ⟨htable.trans h.table, ⟨base.filter clause, hadd base, ?_⟩, hjoins ▸ horder ▸ h.order⟩
  cases filter with
  | none =>
    cases hqf
    exact Query.repeats_filter hrepeats clause
  | some f' =>
    obtain rfl := Except.ok.inj (hqf.symm.trans ((halike f' rfl).trans (hadd base)))
    exact Query.repeats_filter_again hrepeats

/-- An order is the first one, or does what the one before does. -/
theorem order_step (h : Gathered c maxDepth model base filter order q) {o : OrderExpr}
    (ho : q.sort c maxDepth model o = .ok q') (halike : ∀ o' ∈ order,
      base.sort c maxDepth model o' = base.sort c maxDepth model o) :
    Gathered c maxDepth model base filter (some o) q' := by
  obtain ⟨js, term, hadd⟩ := OrderExpr.sort_adds ho
  obtain rfl := Except.ok.inj ((hadd q).symm.trans ho)
  obtain ⟨qo, hqo, hjoins, hrepeats⟩ := h.order
  have hfilters : (q.joinAll js).filters = q.filters := by rw [Query.joinAll_eq]
  have htable : (q.joinAll js).table = q.table := by rw [Query.joinAll_eq]
  refine ⟨htable.trans h.table, ?_, _, hadd base, ?_⟩
  · dsimp only
    rw [hfilters]
    exact h.filters
  · cases order with
    | none =>
      cases hqo
      exact ⟨Query.joins_joinAll_congr hjoins js, hrepeats.append term⟩
    | some o' =>
      obtain rfl := Except.ok.inj (hqo.symm.trans ((halike o' rfl).trans (hadd base)))
      have hjoined : q.joinAll js = q := Query.joinAll_of_mem fun j hj => by
        rw [hjoins]
        exact Query.mem_joins_joinAll.2 (.inr hj)
      refine ⟨?_, hrepeats.append_again (.inr (by simp))⟩
      change (q.joinAll js).joins = _
      rw [hjoined]
      exact hjoins

/-- Databases do not tell what a query gathered from what the filter and the order make. -/
theorem select_eq (h : Gathered c maxDepth model base filter order q) {qf qo : Query}
    (hqf : base.restrictBy c maxDepth model filter = .ok qf)
    (hqo : base.sortBy c maxDepth model order = .ok qo) (s : Store) :
    s.select q.withoutWindow.toSelect
      = s.select (base.combine qf qo).withoutWindow.toSelect := by
  obtain ⟨htable, ⟨_, hfilter, hfilters⟩, _, hsort, hjoins, horder⟩ := h
  obtain rfl := Except.ok.inj (hfilter.symm.trans hqf)
  obtain rfl := Except.ok.inj (hsort.symm.trans hqo)
  rw [← (Store.select_repeats (q := (base.combine _ _).withoutWindow.toSelect) hfilters horder).1]
  simp only [Query.withoutWindow, Query.toSelect, Query.combine, htable, hjoins]

end Gathered

/-- Items with one image each have a common image. -/
theorem exists_common {α β : Type} {F : α → Except Error β} {l : List α}
    (h : ∀ a ∈ l, ∀ b ∈ l, F a = F b) : ∃ x, ∀ a ∈ l, F a = x := by
  cases l with
  | nil => exact ⟨.error .filteringUnsupported, by simp⟩
  | cons b l => exact ⟨F b, fun a ha => h a ha b List.mem_cons_self⟩

namespace Restriction.TakeAll

variable {c : Catalog} {maxDepth : Nat} {model : ModelId} {g : Guard} {caller : Caller}
  {rs : List Restriction} {base q q' : Query}

/-- A filter that was applied may be used, and applies to all queries. -/
theorem filters (h : TakeAll c maxDepth model g caller rs q q') :
    ∀ f ∈ rs.filterMap filter?, f.isEmpty = false ∧ g.AllowsFilter caller model f ∧
      ∀ p : Query, ∃ p', p.restrict c maxDepth model f = .ok p' := by
  induction h with
  | nil q => simp
  | cons htakes _ ih =>
    cases htakes with
    | keep _ hnone _ => rwa [List.filterMap_cons_none hnone]
    | @filter f _ _ hempty hallowed hq =>
      obtain ⟨clause, hadd⟩ := Query.restrict_adds hq
      have hsome : filter? (.filter f) = some f := if_neg (by simp [hempty])
      rw [List.filterMap_cons_some hsome, List.forall_mem_cons]
      exact ⟨⟨hempty, hallowed, fun p => ⟨_, hadd p⟩⟩, ih⟩
    | order _ => exact ih

/-- An order that was applied applies to all queries. -/
theorem orders (h : TakeAll c maxDepth model g caller rs q q') :
    ∀ o ∈ rs.filterMap order?, ∀ p : Query, ∃ p', p.sort c maxDepth model o = .ok p' := by
  induction h with
  | nil q => simp
  | cons htakes _ ih =>
    cases htakes with
    | keep _ _ hnone => rwa [List.filterMap_cons_none hnone]
    | filter _ _ _ => exact ih
    | @order o _ _ ho =>
      obtain ⟨js, term, hadd⟩ := OrderExpr.sort_adds ho
      have hsome : order? (.order (some o)) = some o := rfl
      rw [List.filterMap_cons_some hsome, List.forall_mem_cons]
      exact ⟨fun p => ⟨_, hadd p⟩, ih⟩

/-- The arguments that several steps leave are admitted by the guard and by every query. -/
theorem recorded (h : TakeAll c maxDepth model g caller rs q q') (base : Query) :
    let args := rs.foldl ListArgs.record ⟨none, none, none, none⟩
    (∀ f ∈ args.filter, f.isEmpty = false ∧ g.AllowsFilter caller model f) ∧
      (∃ qf, base.restrictBy c maxDepth model args.filter = .ok qf) ∧
      ∃ qo, base.sortBy c maxDepth model args.order = .ok qo := by
  intro args
  have hlast : ∀ {α : Type} {pick : Restriction → Option α},
      ∀ a ∈ (rs.reverse.findSome? pick).or none, a ∈ rs.filterMap pick := by
    intro α pick a ha
    obtain ⟨r, hr, ha⟩ := List.exists_of_findSome?_eq_some (Option.or_none ▸ ha)
    exact List.mem_filterMap.2 ⟨r, List.mem_reverse.1 hr, ha⟩
  have hargs := ListArgs.foldl_record rs ⟨none, none, none, none⟩
  have hfilter : ∀ f ∈ args.filter, f ∈ rs.filterMap filter? := by
    rw [show args = _ from hargs]
    exact hlast
  have horder : ∀ o ∈ args.order, o ∈ rs.filterMap order? := by
    rw [show args = _ from hargs]
    exact hlast
  refine ⟨fun f hf => ?_, ?_, ?_⟩
  · obtain ⟨hempty, hallowed, -⟩ := h.filters f (hfilter f hf)
    exact ⟨hempty, hallowed⟩
  · cases hargs : args.filter with
    | none => exact ⟨base, rfl⟩
    | some f => exact (h.filters f (hfilter f hargs)).2.2 base
  · cases hargs : args.order with
    | none => exact ⟨base, rfl⟩
    | some o => exact h.orders o (horder o hargs) base

/-- What counts after a step counted before or belongs to the step. -/
theorem mem_of_record {α : Type} {pick : Restriction → Option α} {r : Restriction} {x : Option α}
    {a : α} (h : a ∈ (pick r).or x ∨ a ∈ rs.filterMap pick) :
    a ∈ x ∨ a ∈ (r :: rs).filterMap pick := by
  rcases h with h | h
  · rcases Option.or_eq_some_iff.1 h with h | ⟨-, h⟩
    · exact .inr (List.mem_filterMap.2 ⟨r, List.mem_cons_self, h⟩)
    · exact .inl h
  · obtain ⟨r', hr', h⟩ := List.mem_filterMap.1 h
    exact .inr (List.mem_filterMap.2 ⟨r', List.mem_cons_of_mem r hr', h⟩)

/-- Steps whose filters and orders are alike gather what the last ones make of the query. -/
theorem gathered (h : TakeAll c maxDepth model g caller rs q q') {args : ListArgs}
    (hq : Gathered c maxDepth model base args.filter args.order q) {X Y : Except Error Query}
    (hX : ∀ f, f ∈ args.filter ∨ f ∈ rs.filterMap filter? → base.restrict c maxDepth model f = X)
    (hY : ∀ o, o ∈ args.order ∨ o ∈ rs.filterMap order? → base.sort c maxDepth model o = Y) :
    Gathered c maxDepth model base (rs.foldl ListArgs.record args).filter
      (rs.foldl ListArgs.record args).order q' := by
  induction h generalizing args with
  | nil q => exact hq
  | @cons r rs q q₁ q' htakes _ ih =>
    rw [List.foldl_cons]
    have hq₁ : Gathered c maxDepth model base (args.record r).filter (args.record r).order q₁ := by
      cases htakes with
      | keep _ hf ho =>
        rw [ListArgs.record, hf, ho]
        exact hq
      | @filter f _ _ hempty _ hf =>
        have hsome : filter? (.filter f) = some f := if_neg (by simp [hempty])
        have hmem : f ∈ (Restriction.filter f :: rs).filterMap filter? :=
          List.mem_filterMap.2 ⟨_, List.mem_cons_self, hsome⟩
        rw [ListArgs.record, hsome]
        exact hq.filter_step hf fun f' hf' => (hX f' (.inl hf')).trans (hX f (.inr hmem)).symm
      | @order o _ _ ho =>
        have hmem : o ∈ (Restriction.order (some o) :: rs).filterMap order? :=
          List.mem_filterMap.2 ⟨_, List.mem_cons_self, rfl⟩
        exact hq.order_step ho fun o' ho' => (hY o' (.inl ho')).trans (hY o (.inr hmem)).symm
    exact ih hq₁ (fun f hf => hX f (mem_of_record hf)) fun o ho => hY o (mem_of_record ho)

end Restriction.TakeAll

namespace ListArgs

variable {c : Catalog} {maxDepth : Nat} {model : ModelId} {args : ListArgs} {base qf qo : Query}

theorem refine_eq_sortBy (args : ListArgs) (q : Query) : args.refine c maxDepth model q
    = q.restrictBy c maxDepth model args.filter >>= fun q =>
      q.sortBy c maxDepth model args.order := by
  rw [refine_eq_bind]
  cases args.filter <;> cases args.order <;> rfl

/-- The filter and the order of arguments restrict a query apart from each other. -/
theorem refine_eq (hf : base.restrictBy c maxDepth model args.filter = .ok qf)
    (ho : base.sortBy c maxDepth model args.order = .ok qo) :
    args.refine c maxDepth model base = .ok (base.combine qf qo) := by
  have hfilter : qf = { base with filters := qf.filters } := by
    cases hargs : args.filter with
    | none =>
      rw [hargs] at hf
      cases hf
      rfl
    | some f =>
      rw [hargs] at hf
      obtain ⟨clause, hadd⟩ := Query.restrict_adds hf
      obtain rfl := Except.ok.inj ((hadd base).symm.trans hf)
      exact Query.filter_eq base clause
  have hsort : qf.sortBy c maxDepth model args.order
      = .ok { qf with joins := qo.joins, order := qo.order } := by
    cases hargs : args.order with
    | none =>
      rw [hargs] at ho
      cases ho
      rw [hfilter]
      rfl
    | some o =>
      rw [hargs] at ho
      obtain ⟨js, term, hadd⟩ := OrderExpr.sort_adds ho
      obtain rfl := Except.ok.inj ((hadd base).symm.trans ho)
      -- the order adds its joins to those of the base, which the filter has not touched
      have hjoins : (qf.joinAll js).joins = (base.joinAll js).joins :=
        Query.joins_joinAll_congr (by rw [hfilter]) js
      refine (hadd qf).trans ?_
      rw [Query.joinAll_eq, hjoins, hfilter]
  rw [refine_eq_sortBy, hf]
  refine hsort.trans ?_
  rw [hfilter]
  rfl

end ListArgs

namespace Paginator

variable {c : Catalog} {maxDepth : Nat} {model : ModelId} {g : Guard} {caller : Caller}
  {base q q' : Query} {args : ListArgs} {p : Paginator} {w w' : World}

/-- A list can be restricted by a filter that its query and the guard admit. -/
theorem runIn_restrict {f : FilterExpr} (hempty : f.isEmpty = false)
    (hallowed : g.AllowsFilter caller model f) (hq : q.restrict c maxDepth model f = .ok q')
    (limit offset : Option Nat) (w : World) : ∃ w', w'.store = w.store ∧
      ((listing c maxDepth model q ⟨none, none, limit, offset⟩).restrict g caller f).runIn w
        = (.ok (listing c maxDepth model q' ⟨some f, none, limit, offset⟩), w') := by
  obtain ⟨w', hstore, hrequire⟩ := Guard.runIn_requireFilter_of_allowed hallowed w
  refine ⟨w', hstore, ?_⟩
  rw [restrict, if_neg (by simp [hempty])]
  refine (Action.runIn_bind_ok hrequire).trans ?_
  refine Action.runIn_ofExcept_bind_eq_ok.2 ⟨q, rfl, ?_⟩
  exact Action.runIn_ofExcept_bind_eq_ok.2 ⟨q', hq, rfl⟩

/-- A list can be ordered as its query can. -/
theorem runIn_sort {o : Option OrderExpr} (hq : q.sortBy c maxDepth model o = .ok q')
    (filter : Option FilterExpr) (limit offset : Option Nat) (w : World) :
    (Action.ofExcept ((listing c maxDepth model q ⟨filter, none, limit, offset⟩).sort o)).runIn w
      = (.ok (listing c maxDepth model q' ⟨filter, o, limit, offset⟩), w) := by
  rw [Action.runIn_ofExcept]
  cases o with
  | none =>
    cases hq
    rfl
  | some o =>
    have hsort : (listing c maxDepth model q ⟨filter, none, limit, offset⟩).sort (some o)
        = .ok (listing c maxDepth model q' ⟨filter, some o, limit, offset⟩) :=
      bind_eq_ok.2 ⟨q, rfl, bind_eq_ok.2 ⟨q', hq, rfl⟩⟩
    rw [hsort]

/-- Arguments that a query and the guard admit restrict the list of the query in every world. -/
theorem runIn_restricted (hallowed : ∀ f ∈ args.filter,
      f.isEmpty = false ∧ g.AllowsFilter caller model f)
    (hrefine : args.refine c maxDepth model base = .ok q) (w : World) :
    ∃ w', w'.store = w.store ∧ (restricted c maxDepth g caller model (.query base) args).runIn w
      = (.ok (listing c maxDepth model q args), w') := by
  rw [ListArgs.refine_eq_sortBy] at hrefine
  obtain ⟨q₁, hrestrict, hsort⟩ := bind_eq_ok.1 hrefine
  obtain ⟨filter, order, limit, offset⟩ := args
  cases filter with
  | none =>
    cases hrestrict
    exact ⟨w, rfl, runIn_sort hsort none limit offset w⟩
  | some f =>
    obtain ⟨hempty, hf⟩ := hallowed f rfl
    obtain ⟨w', hstore, hrun⟩ := runIn_restrict hempty hf hrestrict limit offset w
    exact ⟨w', hstore, (Action.runIn_bind_ok hrun).trans
      (runIn_sort hsort (some f) limit offset w')⟩

/-- Lists of one window whose queries have the same answers have the same entities and count as
many. -/
theorem listing_congr (h : ∀ s : Store, s.select q.withoutWindow.toSelect
      = s.select q'.withoutWindow.toSelect) (w : World) :
    ((listing c maxDepth model q args).get.runIn w).1
        = ((listing c maxDepth model q' args).get.runIn w).1 ∧
      ((listing c maxDepth model q args).count.runIn w).1
        = ((listing c maxDepth model q' args).count.runIn w).1 := by
  have hanswer : (listing c maxDepth model q args).answer q w.store
      = (listing c maxDepth model q' args).answer q' w.store := by
    rw [answer, answer, h]
    rfl
  obtain ⟨_, -, hget⟩ := runIn_get (p := listing c maxDepth model q args) (w := w) rfl rfl
    args.limit args.offset
  obtain ⟨_, -, hget'⟩ := runIn_get (p := listing c maxDepth model q' args) (w := w) rfl rfl
    args.limit args.offset
  obtain ⟨_, -, hcount⟩ := runIn_count (p := listing c maxDepth model q args) (w := w) rfl
    args.limit args.offset
  obtain ⟨_, -, hcount'⟩ := runIn_count (p := listing c maxDepth model q' args) (w := w) rfl
    args.limit args.offset
  rw [hanswer] at hget hcount
  exact ⟨(congrArg Prod.fst hget).trans (congrArg Prod.fst hget').symm,
    (congrArg Prod.fst hcount).trans (congrArg Prod.fst hcount').symm⟩

/-- The arguments of a list that was restricted step by step are the last limit, offset, order and
filter that is not empty. They can be replayed on the query that the list began with, in every
world, and the replay has the same arguments. Where all these filters make the same query of the
one at the beginning, as one filter does that comes again and again, and all orders do, every world
gives the replay the same entities and the same count, or fails in the same way. -/
theorem replay_args {rs : List Restriction}
    (h : ((of c maxDepth model (.query base)).steps g caller rs).runIn w = (.ok p, w')) :
    p.args = ⟨rs.reverse.findSome? Restriction.filter?, rs.reverse.findSome? Restriction.order?,
      (rs.reverse.findSome? Restriction.limit?).getD none,
      (rs.reverse.findSome? Restriction.offset?).getD none⟩ ∧
    ∃ p' : Paginator, p'.args = p.args ∧
      (∀ v : World, ∃ v', v'.store = v.store ∧
        (restricted c maxDepth g caller model (.query base) p.args).runIn v = (.ok p', v')) ∧
      ((∀ f ∈ rs.filterMap Restriction.filter?, ∀ f' ∈ rs.filterMap Restriction.filter?,
          base.restrict c maxDepth model f = base.restrict c maxDepth model f') →
        (∀ o ∈ rs.filterMap Restriction.order?, ∀ o' ∈ rs.filterMap Restriction.order?,
          base.sort c maxDepth model o = base.sort c maxDepth model o') →
        ∀ v : World, (p'.get.runIn v).1 = (p.get.runIn v).1 ∧
          (p'.count.runIn v).1 = (p.count.runIn v).1) := by
  let unrestricted : ListArgs := ⟨none, none, none, none⟩
  have hsteps : ((listing c maxDepth model base unrestricted).steps g caller rs).runIn w
      = (.ok p, w') := h
  obtain ⟨q, htakes, rfl⟩ := exists_takeAll hsteps
  obtain ⟨hallowed, ⟨qf, hqf⟩, qo, hqo⟩ := htakes.recorded base
  have hargs := ListArgs.foldl_record rs unrestricted
  simp only [unrestricted, Option.or_none] at hargs
  refine ⟨hargs, listing c maxDepth model (base.combine qf qo) _, rfl,
    runIn_restricted hallowed (ListArgs.refine_eq hqf hqo),
    fun hfilters horders v => listing_congr (fun s => ?_) v⟩
  -- all filters add one condition and all orders one term, so repeating them changes no answer
  obtain ⟨X, hX⟩ := exists_common hfilters
  obtain ⟨Y, hY⟩ := exists_common horders
  have hstart : Gathered c maxDepth model base unrestricted.filter unrestricted.order base :=
    .start base
  have hgathered := htakes.gathered hstart
    (fun f hf => hX f (hf.resolve_left (Option.not_mem_none f)))
    fun o ho => hY o (ho.resolve_left (Option.not_mem_none o))
  exact (hgathered.select_eq hqf hqo s).symm

section Shelf

open Sample

/-- All books of the shelf. -/
def shelfBooks : Paginator :=
  of Shelf.catalog 3 Shelf.book (.query (Query.all "books"))

/-- The filter by which books have another title. -/
def notTitled (title : String) : FilterExpr :=
  .mk [.predicate "title" .ne (.string title)] [] [] none

/-- A filter and an order that come twice, the empty filter between them, and a window. -/
def repeatedSteps : List Restriction :=
  [.filter (notTitled "Untitled"), .order (some (.field "title" .desc)), .limit (some 1),
    .filter (.mk [] [] [] none), .order none, .filter (notTitled "Untitled"),
    .order (some (.field "title" .desc)), .offset (some 1)]

/-- Two filters. -/
def narrowingSteps : List Restriction :=
  [.filter (notTitled "Untitled"), .filter (notTitled "Learning!")]

/-- The guard of the policy that allows everything. -/
def openGuard : Guard :=
  ⟨Policy.allowAll, .english⟩

/-- The replay of what was repeated finds the same book and counts as many. -/
theorem replay_args_shelf : ∃ (p p' : Paginator) (w : World),
    (shelfBooks.steps openGuard none repeatedSteps).runIn ⟨Shelf.store, []⟩ = (.ok p, w) ∧
    ((restricted Shelf.catalog 3 openGuard none Shelf.book (.query (Query.all "books"))
      p.args).runIn w).1 = .ok p' ∧
    (p'.get.runIn w).1.map (List.map (·.id?)) = .ok [some 2] ∧
    (p'.count.runIn w).1 = .ok 2 := by
  let steps := shelfBooks.steps openGuard none repeatedSteps
  have hget : ((steps >>= get).runIn ⟨Shelf.store, []⟩).1.map (List.map (·.id?))
      = .ok [some 2] := rfl
  have hcount : ((steps >>= count).runIn ⟨Shelf.store, []⟩).1 = .ok 2 := rfl
  have hok : (steps.runIn ⟨Shelf.store, []⟩).1.isOk = true := rfl
  obtain ⟨p, hp⟩ := exists_of_isOk hok
  have hrun : steps.runIn ⟨Shelf.store, []⟩
      = (.ok p, (steps.runIn ⟨Shelf.store, []⟩).2) := Prod.ext hp rfl
  rw [Action.runIn_bind_ok hrun] at hget hcount
  obtain ⟨-, p', -, hreplays, halike⟩ := replay_args hrun
  obtain ⟨w', -, hreplay⟩ := hreplays (steps.runIn ⟨Shelf.store, []⟩).2
  have hfilters : repeatedSteps.filterMap Restriction.filter?
      = [notTitled "Untitled", notTitled "Untitled"] := rfl
  have horders : repeatedSteps.filterMap Restriction.order?
      = [.field "title" .desc, .field "title" .desc] := rfl
  obtain ⟨hgets, hcounts⟩ := halike (by simp [hfilters]) (by simp [horders])
    (steps.runIn ⟨Shelf.store, []⟩).2
  refine ⟨p, p', _, hrun, congrArg Prod.fst hreplay, ?_, hcounts.trans hcount⟩
  rw [hgets]
  exact hget

/-- Of two filters the second one is replayed: the list is one book, and the replay two. -/
theorem replay_forgets_filter : ((do
    let p ← shelfBooks.steps openGuard none narrowingSteps
    let p' ← restricted Shelf.catalog 3 openGuard none Shelf.book
      (.query (Query.all "books")) p.args
    return ((← p.get).map Entity.id?, ← p.count, (← p'.get).map Entity.id?, ← p'.count)).runIn
      ⟨Shelf.store, []⟩).1 = .ok ([some 1], 1, [some 1, some 3], 2) := by
  rfl

end Shelf

end Paginator

end EntityGraph
