import EntityGraph.Model.Convert
import EntityGraph.Proofs.Calendar.Text
import EntityGraph.Proofs.Outcome

/-!
# Data in answers are read back

A datum is shown as a literal, and a literal is read as a datum of a scalar kind.

* `Datum.IsOf` are the data of a scalar kind: null, its values, and lists of data of the kind;
* `Datum.ofLiteral_toLiteral_iff` says that these and no others come back as they were.
-/

namespace EntityGraph

namespace Datum

/-- A datum of a scalar kind: null, a value of the kind, or a list of data of the kind. What is no
real number is not of the kind of floating point numbers. -/
inductive IsOf : ScalarKind → Datum → Prop where
  | null (kind : ScalarKind) : IsOf kind .null
  | int (i : Int64) : IsOf .int (.int i)
  | float {x : Binary64} : x.isFinite = true → IsOf .float (.float x)
  | bool (b : Bool) : IsOf .boolean (.bool b)
  | text (s : String) : IsOf .string (.text s)
  | timestamp (t : Timestamp) : IsOf .dateTime (.timestamp t)
  | list {kind : ScalarKind} {items : List Datum} : (∀ d ∈ items, IsOf kind d) →
    IsOf kind (.list items)

variable {kind : ScalarKind}

theorem IsOf.items {items : List Datum} (h : IsOf kind (.list items)) :
    ∀ d ∈ items, IsOf kind d := by
  cases h with
  | list h => exact h

/-- An integer of a database is within the bounds of an integer argument. -/
theorem int?_toInt (i : Int64) : (Literal.int i.toInt).int? = some i := by
  rw [Literal.int?, if_pos ⟨Int64.minValue_le_toInt i, Int64.toInt_le i⟩, Int64.ofInt_toInt]

mutual

/-- A datum of a kind comes back as it was. -/
theorem ofLiteral_toLiteral : ∀ d : Datum, IsOf kind d → ofLiteral kind d.toLiteral = .ok d
  | .null, _ => by rw [toLiteral, ofLiteral]
  | .bool b, h => by
    cases h
    rw [toLiteral, ofLiteral]
  | .int i, h => by
    cases h
    rw [toLiteral, ofLiteral]
    simp only [int?_toInt]
  | .float x, h => by
    cases h with
    | float hfinite => rw [toLiteral, if_pos hfinite, ofLiteral]
  | .text s, h => by
    cases h
    rw [toLiteral, ofLiteral]
  | .timestamp t, h => by
    cases h
    rw [toLiteral, ofLiteral]
    simp only [Timestamp.parse?_text]
  | .list items, h => by
    rw [toLiteral, ofLiteral, ofLiterals_toLiterals items h.items]
    rfl

/-- So do the data of a list. -/
theorem ofLiterals_toLiterals : ∀ items : List Datum, (∀ d ∈ items, IsOf kind d) →
    ofLiterals kind (toLiterals items) = .ok items
  | [], _ => by rw [toLiterals, ofLiterals]
  | d :: items, h => by
    rw [toLiterals, ofLiterals, ofLiteral_toLiteral d (h d List.mem_cons_self),
      ofLiterals_toLiterals items fun e he => h e (List.mem_cons_of_mem d he)]
    rfl

end

mutual

/-- A datum that comes back as it was is of the kind that it was read as. -/
theorem isOf_of_ofLiteral : ∀ d : Datum, ofLiteral kind d.toLiteral = .ok d → IsOf kind d
  | .null, _ => .null kind
  | .bool b, h => by
    cases kind <;> simp [toLiteral, ofLiteral] at h
    exact .bool b
  | .int i, h => by
    cases kind <;> simp [toLiteral, ofLiteral] at h
    exact .int i
  | .float x, h => by
    rw [toLiteral] at h
    split_ifs at h with hfinite
    · cases kind <;> simp [ofLiteral] at h
      exact .float hfinite
    · simp [ofLiteral] at h
  | .text s, h => by
    cases kind with
    | string => exact .text s
    | dateTime => cases ht : Timestamp.parse? s <;> simp [toLiteral, ofLiteral, ht] at h
    | int => simp [toLiteral, ofLiteral] at h
    | float => simp [toLiteral, ofLiteral] at h
    | boolean => simp [toLiteral, ofLiteral] at h
  | .timestamp t, h => by
    cases kind <;> simp [toLiteral, ofLiteral] at h
    exact .timestamp t
  | .list items, h => by
    rw [toLiteral, ofLiteral] at h
    obtain ⟨ds, hds, heq⟩ := bind_eq_ok.1 h
    have hitems : ds = items := Datum.list.inj (pure_eq_ok.1 heq)
    exact .list (isOf_of_ofLiterals items (hitems ▸ hds))

/-- So are the data of a list. -/
theorem isOf_of_ofLiterals : ∀ items : List Datum,
    ofLiterals kind (toLiterals items) = .ok items → ∀ d ∈ items, IsOf kind d
  | [], _ => fun _ hd => nomatch hd
  | d :: items, h => by
    rw [toLiterals, ofLiterals] at h
    obtain ⟨e, he, h⟩ := bind_eq_ok.1 h
    obtain ⟨es, hes, heq⟩ := bind_eq_ok.1 h
    obtain ⟨hd, hitems⟩ := List.cons.inj (pure_eq_ok.1 heq)
    exact List.forall_mem_cons.2
      ⟨isOf_of_ofLiteral d (hd ▸ he), isOf_of_ofLiterals items (hitems ▸ hes)⟩

end

/-- A datum that is shown and read as a scalar kind comes back as it was exactly if it is of that
kind, to any depth of lists. Every timestamp comes back from its text, whatever its year, leap
seconds included. -/
theorem ofLiteral_toLiteral_iff :
    (∀ kind d, ofLiteral kind (toLiteral d) = .ok d ↔ IsOf kind d) ∧
    ∀ t : Timestamp, Timestamp.parse? t.text = some t :=
  ⟨fun _ d => ⟨isOf_of_ofLiteral d, ofLiteral_toLiteral d⟩, Timestamp.parse?_text⟩

end Datum

end EntityGraph
