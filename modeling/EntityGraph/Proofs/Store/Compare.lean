import EntityGraph.Proofs.Outcome
import EntityGraph.Store.Frame

/-!
# Comparisons of data

Null compares with nothing, so a comparison for equality holds exactly of data that compare as
equal.
-/

namespace EntityGraph

namespace Datum

@[simp] theorem isNull_iff {d : Datum} : d.isNull = true ↔ d = .null := by
  cases d <;> simp [isNull]

theorem int?_eq_some {d : Datum} {i : Int64} : d.int? = some i ↔ d = .int i := by
  cases d <;> simp [int?]

@[simp] theorem compare?_null (d : Datum) : d.compare? .null = none := by
  cases d <;> rfl

@[simp] theorem null_compare? (d : Datum) : compare? .null d = none := by
  cases d <;> rfl

theorem equals_iff {d e : Datum} : d.equals e = true ↔ d.compare? e = some .eq := by
  unfold equals
  cases hd : d.isNull <;> cases he : e.isNull <;> simp_all

theorem satisfies_eq (d e : Datum) : d.satisfies .eq e = .ok (d.equals e) := by
  unfold satisfies equals
  cases d.isNull <;> cases e.isNull <;> rfl

theorem ne_null_of_equals {d e : Datum} (h : d.equals e = true) : d ≠ .null := by
  rintro rfl
  cases h

end Datum

end EntityGraph
