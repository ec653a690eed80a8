import EntityGraph.Proofs.Store.Test

/-!
# The columns that a condition reads

* `Condition.reads` are all columns that the test of a condition looks at, those of other tables
  included;
* `Condition.scope` are the columns of the tested row itself: two rows that agree on them are tested
  alike (`Store.test_congr`).
-/

namespace EntityGraph

/-- The columns that a join compares. -/
def Join.reads (j : Join) : List Column := [j.lhs, j.rhs]

namespace Condition

mutual

/-- All columns that the test of a condition looks at. -/
def reads : Condition → List Column
  | all cs => readsAll cs
  | any cs => readsAll cs
  | not c => reads c
  | compare column _ _ => [column]
  | oneOf column _ => [column]
  | noneOf column _ => [column]
  | isNull column => [column]
  | isNotNull column => [column]
  | like column _ _ => [column]
  | date column _ _ => [column]
  | existsRow _ joins inner outer filter =>
    outer :: inner :: joins.flatMap Join.reads ++ reads filter

/-- All columns that the tests of some conditions look at. -/
def readsAll : List Condition → List Column
  | [] => []
  | c :: rest => reads c ++ readsAll rest

end

mutual

/-- The columns of the tested row that the test of a condition looks at. -/
def scope : Condition → List Column
  | all cs => scopeAll cs
  | any cs => scopeAll cs
  | not c => scope c
  | compare column _ _ => [column]
  | oneOf column _ => [column]
  | noneOf column _ => [column]
  | isNull column => [column]
  | isNotNull column => [column]
  | like column _ _ => [column]
  | date column _ _ => [column]
  | existsRow _ _ _ outer _ => [outer]

/-- The columns of the tested row that the tests of some conditions look at. -/
def scopeAll : List Condition → List Column
  | [] => []
  | c :: rest => scope c ++ scopeAll rest

end

theorem mem_readsAll {cs : List Condition} {column : Column} :
    column ∈ readsAll cs ↔ ∃ c ∈ cs, column ∈ c.reads := by
  induction cs with
  | nil => simp [readsAll]
  | cons c cs ih => simp [readsAll, ih]

theorem mem_scopeAll {cs : List Condition} {column : Column} :
    column ∈ scopeAll cs ↔ ∃ c ∈ cs, column ∈ c.scope := by
  induction cs with
  | nil => simp [scopeAll]
  | cons c cs ih => simp [scopeAll, ih]

theorem readsAll_append (cs ds : List Condition) :
    readsAll (cs ++ ds) = readsAll cs ++ readsAll ds := by
  induction cs with
  | nil => rfl
  | cons c cs ih => simp [readsAll, ih]

theorem scopeAll_append (cs ds : List Condition) :
    scopeAll (cs ++ ds) = scopeAll cs ++ scopeAll ds := by
  induction cs with
  | nil => rfl
  | cons c cs ih => simp [scopeAll, ih]

theorem reads_conjunction (cs : List Condition) : (conjunction cs).reads = readsAll cs := by
  unfold conjunction
  split
  · simp [readsAll]
  · rw [reads]

theorem reads_disjunction (cs : List Condition) : (disjunction cs).reads = readsAll cs := by
  unfold disjunction
  split
  · simp [readsAll]
  · rw [reads]

theorem scope_conjunction (cs : List Condition) : (conjunction cs).scope = scopeAll cs := by
  unfold conjunction
  split
  · simp [scopeAll]
  · rw [scope]

theorem scope_disjunction (cs : List Condition) : (disjunction cs).scope = scopeAll cs := by
  unfold disjunction
  split
  · simp [scopeAll]
  · rw [scope]

end Condition

namespace Store

variable {s : Store} {schema schema' : List Column} {row row' : Row}

mutual

/-- Rows that hold the same data in the columns that a condition looks at are tested alike. -/
theorem test_congr : ∀ c : Condition,
    (∀ column ∈ c.scope, row.get schema column = row'.get schema' column) →
      s.test schema row c = s.test schema' row' c
  | .all cs, h => by
    rw [test, test]
    exact testAll_congr cs h
  | .any cs, h => by
    rw [test, test]
    exact testAny_congr cs h
  | .not c, h => by rw [test, test, test_congr c h]
  | .compare column op operand, h => by rw [test, test, h column (by simp [Condition.scope])]
  | .oneOf column operands, h => by rw [test, test, h column (by simp [Condition.scope])]
  | .noneOf column operands, h => by rw [test, test, h column (by simp [Condition.scope])]
  | .isNull column, h => by rw [test, test, h column (by simp [Condition.scope])]
  | .isNotNull column, h => by rw [test, test, h column (by simp [Condition.scope])]
  | .like column pattern negated, h => by rw [test, test, h column (by simp [Condition.scope])]
  | .date column op operand, h => by rw [test, test, h column (by simp [Condition.scope])]
  | .existsRow table joins inner outer filter, h => by
    rw [test, test, h outer (by simp [Condition.scope])]

theorem testAll_congr : ∀ cs : List Condition,
    (∀ column ∈ Condition.scopeAll cs, row.get schema column = row'.get schema' column) →
      s.testAll schema row cs = s.testAll schema' row' cs
  | [], _ => by rw [testAll_nil, testAll_nil]
  | c :: cs, h => by
    rw [testAll_cons, testAll_cons,
      test_congr c fun column hc => h column (List.mem_append_left _ hc),
      testAll_congr cs fun column hc => h column (List.mem_append_right _ hc)]

theorem testAny_congr : ∀ cs : List Condition,
    (∀ column ∈ Condition.scopeAll cs, row.get schema column = row'.get schema' column) →
      s.testAny schema row cs = s.testAny schema' row' cs
  | [], _ => by rw [testAny_nil, testAny_nil]
  | c :: cs, h => by
    rw [testAny_cons, testAny_cons,
      test_congr c fun column hc => h column (List.mem_append_left _ hc),
      testAny_congr cs fun column hc => h column (List.mem_append_right _ hc)]

end

end Store

end EntityGraph
