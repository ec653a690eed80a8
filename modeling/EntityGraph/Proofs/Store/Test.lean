import EntityGraph.Proofs.Outcome
import EntityGraph.Store.Select

/-!
# Tests of lists of conditions

A list of conditions is tested up to the first that decides. Where each condition of a list answers
a question, the conjunction answers whether all of them hold and the disjunction whether some does.
-/

namespace EntityGraph

namespace Store

variable {s : Store} {schema : List Column} {row : Row}

@[simp] theorem testAll_nil : s.testAll schema row [] = .ok true := by
  rw [testAll]

theorem testAll_cons (c : Condition) (cs : List Condition) :
    s.testAll schema row (c :: cs)
      = (do if ← s.test schema row c then s.testAll schema row cs else return false) := by
  rw [testAll]

@[simp] theorem testAny_nil : s.testAny schema row [] = .ok false := by
  rw [testAny]

theorem testAny_cons (c : Condition) (cs : List Condition) :
    s.testAny schema row (c :: cs)
      = (do if ← s.test schema row c then return true else s.testAny schema row cs) := by
  rw [testAny]

@[simp] theorem testAll_singleton (c : Condition) :
    s.testAll schema row [c] = s.test schema row c := by
  rw [testAll_cons, testAll_nil]
  cases s.test schema row c with
  | error e => rfl
  | ok b => cases b <;> rfl

@[simp] theorem testAny_singleton (c : Condition) :
    s.testAny schema row [c] = s.test schema row c := by
  rw [testAny_cons, testAny_nil]
  cases s.test schema row c with
  | error e => rfl
  | ok b => cases b <;> rfl

theorem test_conjunction (cs : List Condition) :
    s.test schema row (Condition.conjunction cs) = s.testAll schema row cs := by
  unfold Condition.conjunction
  split
  · rw [testAll_singleton]
  · rw [test]

theorem test_disjunction (cs : List Condition) :
    s.test schema row (Condition.disjunction cs) = s.testAny schema row cs := by
  unfold Condition.disjunction
  split
  · rw [testAny_singleton]
  · rw [test]

theorem testAll_append (cs ds : List Condition) :
    s.testAll schema row (cs ++ ds)
      = (do if ← s.testAll schema row cs then s.testAll schema row ds else return false) := by
  induction cs with
  | nil => rfl
  | cons c cs ih =>
    rw [List.cons_append, testAll_cons, testAll_cons, ih]
    cases s.test schema row c with
    | error e => rfl
    | ok b => cases b <;> rfl

variable {α : Type} {P : α → Prop} {xs : List α} {cs : List Condition}

/-- Conditions that each decide a property decide together whether all properties hold. -/
theorem testAll_decides
    (h : List.Forall₂ (fun x c => Decides (s.test schema row c) (P x)) xs cs) :
    Decides (s.testAll schema row cs) (∀ x ∈ xs, P x) := by
  induction h with
  | nil => exact ⟨true, testAll_nil, by simp⟩
  | cons hc _ ih =>
    rw [testAll_cons, List.forall_mem_cons]
    exact hc.and fun _ => ih

/-- Conditions that each decide a property decide together whether some property holds. -/
theorem testAny_decides
    (h : List.Forall₂ (fun x c => Decides (s.test schema row c) (P x)) xs cs) :
    Decides (s.testAny schema row cs) (∃ x ∈ xs, P x) := by
  induction h with
  | nil => exact ⟨false, testAny_nil, by simp⟩
  | cons hc _ ih =>
    rw [testAny_cons, List.exists_mem_cons_iff]
    exact hc.or fun _ => ih

theorem testAll_append_decides {cs ds : List Condition} {P Q : Prop}
    (h : Decides (s.testAll schema row cs) P) (h' : Decides (s.testAll schema row ds) Q) :
    Decides (s.testAll schema row (cs ++ ds)) (P ∧ Q) := by
  rw [testAll_append]
  exact h.and fun _ => h'

end Store

end EntityGraph
