import EntityGraph.Proofs.Store.Answer
import EntityGraph.Proofs.Store.Test

/-!
# Conditions and terms that stand again

A selection tests its conditions in order and sorts by the first term that tells two rows apart. So
a condition or a term that stands in it already, and is added once more, decides nothing: where it
is reached, it has been passed or has tied before, and where it cannot be read, it failed before.

* `Repeats` says that a list is another with items again that stand in it already;
* `Store.testAll_repeats` and `Select.compareKeys_repeats` are the tests and the comparison;
* `Store.select_repeats` is the result for selections, faults included.
-/

namespace EntityGraph

/-- The second list is the first one with further items, each of which was seen or stands before. -/
inductive Repeats {α : Type} : List α → List α → List α → Prop where
  | nil (seen : List α) : Repeats seen [] []
  | keep {a : α} {seen l l' : List α} : Repeats (a :: seen) l l' → Repeats seen (a :: l) (a :: l')
  | again {a : α} {seen l l' : List α} : a ∈ seen → Repeats seen l l' → Repeats seen l (a :: l')

namespace Repeats

variable {α : Type} {a : α} {seen l l' : List α}

theorem refl (seen l : List α) : Repeats seen l l := by
  induction l generalizing seen with
  | nil => exact .nil seen
  | cons a l ih => exact .keep (ih (a :: seen))

/-- A new item at the end of both lists. -/
theorem append (h : Repeats seen l l') (a : α) : Repeats seen (l ++ [a]) (l' ++ [a]) := by
  induction h with
  | nil seen => exact .keep (.nil _)
  | keep _ ih => exact .keep ih
  | again hmem _ ih => exact .again hmem ih

/-- An item at the end that was there already. -/
theorem append_again (h : Repeats seen l l') (ha : a ∈ seen ∨ a ∈ l) :
    Repeats seen l (l' ++ [a]) := by
  induction h with
  | nil seen =>
    rcases ha with ha | ha
    · exact .again ha (.nil seen)
    · cases ha
  | @keep b seen l l' _ ih =>
    refine .keep (ih ?_)
    rcases ha with ha | ha
    · exact .inl (List.mem_cons_of_mem b ha)
    · rcases List.mem_cons.1 ha with rfl | ha
      · exact .inl List.mem_cons_self
      · exact .inr ha
  | again hmem _ ih => exact .again hmem (ih ha)

end Repeats

section Outcomes

variable {ε α β γ : Type}

/-- Whether a computation succeeds, and if not how it fails. -/
def outcome (x : Except ε α) : Except ε Unit :=
  x.map fun _ => ()

/-- What follows a step of whose result nothing is needed depends on its outcome only. -/
theorem bind_of_outcome_eq {x : Except ε α} {y : Except ε β} (h : outcome x = outcome y)
    (z : Except ε γ) : (x >>= fun _ => z) = (y >>= fun _ => z) := by
  cases x <;> cases y <;> simp_all [outcome, Except.map, bind, Except.bind]

theorem outcome_bind (x : Except ε α) (f : α → Except ε β) :
    outcome (x >>= f) = x >>= fun a => outcome (f a) := by
  cases x <;> rfl

theorem outcome_mapM_cons (f : α → Except ε β) (a : α) (l : List α) :
    outcome ((a :: l).mapM f) = (f a >>= fun _ => outcome (l.mapM f)) := by
  rw [List.mapM_cons, outcome_bind]
  refine bind_congr fun b => ?_
  cases l.mapM f <;> rfl

/-- Steps with the same outcomes, one after the other, have the same outcome. -/
theorem outcome_mapM_congr {f : α → Except ε β} {g : α → Except ε γ}
    (h : ∀ a, outcome (f a) = outcome (g a)) (l : List α) :
    outcome (l.mapM f) = outcome (l.mapM g) := by
  induction l with
  | nil => rfl
  | cons a l ih => rw [outcome_mapM_cons, outcome_mapM_cons, ih, bind_of_outcome_eq (h a)]

/-- A step that has succeeded succeeds again, and one that has failed was the last. -/
theorem outcome_mapM_repeats {f : α → Except ε β} {seen l l' : List α} (h : Repeats seen l l')
    (hseen : ∀ a ∈ seen, ∃ b, f a = .ok b) : outcome (l'.mapM f) = outcome (l.mapM f) := by
  induction h with
  | nil seen => rfl
  | @keep a seen l l' _ ih =>
    rw [outcome_mapM_cons, outcome_mapM_cons]
    cases ha : f a with
    | error e => rfl
    | ok b => exact ih (List.forall_mem_cons.2 ⟨⟨b, ha⟩, hseen⟩)
  | @again a seen l l' hmem _ ih =>
    obtain ⟨b, hb⟩ := hseen a hmem
    rw [outcome_mapM_cons, hb]
    exact ih hseen

end Outcomes

namespace Select

/-- A term by which two rows tied does not tell them apart later. -/
theorem compareKeys_repeats {seen order order' : List OrderTerm} (h : Repeats seen order order')
    {f g : OrderTerm → Datum}
    (hseen : ∀ t ∈ seen, t.direction.orient ((f t).sortCompare (g t)) = .eq) :
    compareKeys order' (order'.map f) (order'.map g)
      = compareKeys order (order.map f) (order.map g) := by
  induction h with
  | nil seen => rfl
  | @keep t seen order order' _ ih =>
    simp only [List.map_cons, compareKeys]
    cases ht : t.direction.orient ((f t).sortCompare (g t)) with
    | lt => rfl
    | gt => rfl
    | eq => exact ih (List.forall_mem_cons.2 ⟨ht, hseen⟩)
  | @again t seen order order' hmem _ ih =>
    simp only [List.map_cons, compareKeys, hseen t hmem]
    exact ih hseen

/-- Whether a row precedes another by its sort keys. -/
def rowPrecedes (order : List OrderTerm) (schema : List Column) (a b : Row) : Bool :=
  compareKeys order (sortKeys order schema a) (sortKeys order schema b) == .lt

theorem rowPrecedes_repeats {order order' : List OrderTerm} (h : Repeats [] order order')
    (schema : List Column) : rowPrecedes order' schema = rowPrecedes order schema := by
  funext a b
  rw [rowPrecedes, rowPrecedes]
  refine congrArg (· == .lt) (compareKeys_repeats h ?_)
  exact fun t ht => nomatch ht

/-- The sort keys of a row can be read where those of the shorter order can. -/
theorem outcome_keyed_repeats {order order' : List OrderTerm} (h : Repeats [] order order')
    (schema : List Column) (row : Row) :
    outcome (keyed order' schema row) = outcome (keyed order schema row) := by
  unfold keyed
  rw [outcome_bind, outcome_bind]
  exact bind_of_outcome_eq (outcome_mapM_repeats h fun t ht => nomatch ht) _

end Select

namespace Store

variable {s : Store}

/-- A condition that a row has met is met again. -/
theorem testAll_repeats {seen filters filters' : List Condition}
    (h : Repeats seen filters filters') {schema : List Column} {row : Row}
    (hseen : ∀ c ∈ seen, s.test schema row c = .ok true) :
    s.testAll schema row filters' = s.testAll schema row filters := by
  induction h with
  | nil seen => rfl
  | @keep c seen filters filters' _ ih =>
    rw [testAll_cons, testAll_cons]
    cases hc : s.test schema row c with
    | error e => rfl
    | ok met =>
      cases met with
      | false => rfl
      | true => exact ih (List.forall_mem_cons.2 ⟨hc, hseen⟩)
  | @again c seen filters filters' hmem _ ih =>
    rw [testAll_cons, hseen c hmem]
    exact ih hseen

/-- The rows that a selection keeps are sorted as rows, once all their sort keys were read. -/
theorem selectRows_eq (q : Select) : s.selectRows q = (do
    let f ← s.frame q.table q.joins
    let rows ← f.rows.filterM fun row => s.testAll f.schema row q.filters
    let _ ← rows.mapM (Select.keyed q.order f.schema)
    return ⟨f.schema, Select.window q.offset q.limit
      (Select.stableSort (Select.rowPrecedes q.order f.schema) rows)⟩) := by
  unfold selectRows
  refine bind_congr fun f => bind_congr fun rows => ?_
  cases hkeyed : rows.mapM (Select.keyed q.order f.schema) with
  | error e => rfl
  | ok keyed =>
    let pair := fun row => (Select.sortKeys q.order f.schema row, row)
    have hpairs : keyed = rows.map pair :=
      eq_map_of_mapM_eq_ok hkeyed fun row x => Select.keyed_eq_ok
    have hprecedes : ∀ a b, (Select.compareKeys q.order (pair a).1 (pair b).1 == .lt)
        = Select.rowPrecedes q.order f.schema a b := fun a b => rfl
    have hsorted : (Select.stableSort (fun a b => Select.compareKeys q.order a.1 b.1 == .lt)
        keyed).map (·.2) = Select.stableSort (Select.rowPrecedes q.order f.schema) rows := by
      rw [hpairs, ← Select.map_stableSort hprecedes rows, List.map_map]
      exact List.map_id _
    refine congrArg (fun rows => (Except.ok ⟨f.schema, rows⟩ : Except StoreFailure Frame)) ?_
    exact congrArg (Select.window q.offset q.limit) hsorted

/-- A selection keeps the same rows, or fails in the same way, if conditions and terms stand in it
again. -/
theorem selectRows_repeats {q : Select} {filters : List Condition} {order : List OrderTerm}
    (hfilters : Repeats [] q.filters filters) (horder : Repeats [] q.order order) :
    s.selectRows { q with filters, order } = s.selectRows q := by
  rw [selectRows_eq, selectRows_eq]
  refine bind_congr fun f => ?_
  have htests : (fun row => s.testAll f.schema row filters)
      = fun row => s.testAll f.schema row q.filters :=
    funext fun row => testAll_repeats hfilters fun c hc => nomatch hc
  dsimp only
  rw [htests, Select.rowPrecedes_repeats horder]
  refine bind_congr fun rows => bind_of_outcome_eq (outcome_mapM_congr ?_ rows) _
  exact Select.outcome_keyed_repeats horder f.schema

/-- So does its answer, and the number of records in it. -/
theorem select_repeats {q : Select} {filters : List Condition} {order : List OrderTerm}
    (hfilters : Repeats [] q.filters filters) (horder : Repeats [] q.order order) :
    s.select { q with filters, order } = s.select q ∧
      s.count { q with filters, order } = s.count q := by
  have hselect : s.select { q with filters, order } = s.select q := by
    rw [select, select, selectRows_repeats hfilters horder]
  exact ⟨hselect, congrArg (Except.map List.length) hselect⟩

end Store

end EntityGraph
