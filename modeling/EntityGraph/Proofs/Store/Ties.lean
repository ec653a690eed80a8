import EntityGraph.Proofs.Number.Rounding
import EntityGraph.Proofs.Store.Compare
import EntityGraph.Proofs.Store.Sort

/-!
# Data that tie

Data that do not compare tie when they are sorted, and so do an integer and the floating point
number to which it is rounded. So a datum may tie with two others of which the one comes behind the
other.

* `Datum.family?` are the data that compare with each other, and `Datum.number?` places numbers, the
  integers rounded;
* `Datum.Blurs` says which data tie with two others in that way;
* `Datum.sortCompare_preorder` says that the order of a sorted column is total, and that it fails to
  be transitive exactly there.
-/

namespace EntityGraph

namespace Binary64

variable {x y : Binary64} {o : Ordering}

theorem compare?_eq_some :
    x.compare? y = some o ↔ ∃ r s, x.rank? = some r ∧ y.rank? = some s ∧ compare r s = o := by
  unfold compare?
  cases x.rank? <;> cases y.rank? <;> simp

theorem same_iff : x.same y = true ↔ ∃ r, x.rank? = some r ∧ y.rank? = some r := by
  simp [same, compare?_eq_some]

end Binary64

/-- The families of data that compare with each other. -/
inductive Family where
  /-- Integers and floating point numbers. -/
  | number
  | text
  | bool
  | timestamp
  deriving DecidableEq

/-- The kind of the data of a family, if they are of one. -/
def Family.kind? : Family → Option String
  | number => none
  | text => some "text"
  | bool => some "bool"
  | timestamp => some "timestamp"

theorem Family.kind?_eq_none {f : Family} : f.kind? = none ↔ f = .number := by
  cases f <;> simp [kind?]

namespace Datum

variable {a b c : Datum} {o : Ordering} {r s t : Int}

/-- The family of a datum. Null, lists and what is not a number belong to none. -/
def family? : Datum → Option Family
  | .int _ => some .number
  | .float x => if x.isNaN then none else some .number
  | .text _ => some .text
  | .bool _ => some .bool
  | .timestamp _ => some .timestamp
  | .null => none
  | .list _ => none

/-- The place of a number among the floating point numbers, an integer being rounded. -/
def number? : Datum → Option Int
  | .int i => some (Binary64.place i.toInt)
  | .float x => x.rank?
  | _ => none

/-- A datum is an integer, and another the floating point number to which it is rounded. -/
def RoundsTo : Datum → Datum → Prop
  | .int i, .float x => (Binary64.ofInt i.toInt).same x = true
  | _, _ => False

/-- A datum blurs the order of two others: the first comes behind the second, and yet both tie with
it. Either it is not of their family, or they are integers and it is the floating point number to
which both are rounded. -/
structure Blurs (b a c : Datum) : Prop where
  behind : a.compare? c = some .gt
  present : b ≠ .null
  between : b.family? ≠ a.family? ∨ (a.RoundsTo b ∧ c.RoundsTo b)

section Families

theorem family?_eq_number : a.family? = some .number ↔ ∃ r, a.number? = some r := by
  cases a
  case float x =>
    rw [number?, Binary64.exists_rank?, family?]
    cases x.isNaN <;> simp
  all_goals simp [family?, number?]

/-- Data that compare are of one family. -/
theorem exists_family_of_compare? (h : a.compare? b = some o) :
    ∃ f, a.family? = some f ∧ b.family? = some f := by
  cases a <;> cases b
  case int.int i j => exact ⟨.number, rfl, rfl⟩
  case int.float i y =>
    obtain ⟨-, s, -, hs, -⟩ := Binary64.compare?_eq_some.1 h
    exact ⟨.number, rfl, family?_eq_number.2 ⟨s, hs⟩⟩
  case float.int x j =>
    obtain ⟨r, -, hr, -, -⟩ := Binary64.compare?_eq_some.1 h
    exact ⟨.number, family?_eq_number.2 ⟨r, hr⟩, rfl⟩
  case float.float x y =>
    obtain ⟨r, s, hr, hs, -⟩ := Binary64.compare?_eq_some.1 h
    exact ⟨.number, family?_eq_number.2 ⟨r, hr⟩, family?_eq_number.2 ⟨s, hs⟩⟩
  case text.text x y => exact ⟨.text, rfl, rfl⟩
  case bool.bool x y => exact ⟨.bool, rfl, rfl⟩
  case timestamp.timestamp x y => exact ⟨.timestamp, rfl, rfl⟩
  all_goals cases h

theorem compare?_eq_none (h : a.family? ≠ b.family?) : a.compare? b = none := by
  cases hcompare : a.compare? b with
  | none => rfl
  | some o =>
    obtain ⟨f, ha, hb⟩ := exists_family_of_compare? hcompare
    exact absurd (ha.trans hb.symm) h

theorem eq_number_of_float {x : Binary64} {f : Family} (h : (Datum.float x).family? = some f) :
    f = .number := by
  rw [family?] at h
  split_ifs at h
  exact (Option.some.inj h).symm

/-- Data of a family of one kind are sorted as this kind. -/
theorem sortsAs_of_family {f : Family} {kind : String} (h : a.family? = some f)
    (hkind : f.kind? = some kind) : a.SortsAs kind := by
  cases a with
  | int i =>
    cases h
    cases hkind
  | float x =>
    obtain rfl := eq_number_of_float h
    cases hkind
  | text x =>
    cases h
    cases hkind
    exact OfKind.sortsAs (.inr rfl) (by decide)
  | bool x =>
    cases h
    cases hkind
    exact OfKind.sortsAs (.inr rfl) (by decide)
  | timestamp x =>
    cases h
    cases hkind
    exact OfKind.sortsAs (.inr rfl) (by decide)
  | null => cases h
  | list items => cases h

end Families

section Sorted

theorem isNull_eq_false (ha : a ≠ .null) : a.isNull = false :=
  Bool.eq_false_iff.2 fun h => ha (isNull_iff.1 h)

theorem sortCompare_of_ne_null (ha : a ≠ .null) (hb : b ≠ .null) :
    a.sortCompare b = (a.compare? b).getD .eq := by
  rw [sortCompare, isNull_eq_false ha, isNull_eq_false hb]

theorem ne_gt_of_sortCompare (ha : a ≠ .null) (hb : b ≠ .null) (h : a.sortCompare b ≠ .gt) :
    a.compare? b ≠ some .gt := by
  intro hcompare
  rw [sortCompare_of_ne_null ha hb, hcompare] at h
  exact h rfl

/-- Null comes before all others. -/
theorem sortCompare_null (ha : a ≠ .null) : a.sortCompare .null = .gt := by
  rw [sortCompare, isNull_eq_false ha]
  rfl

theorem ne_null_of_sortCompare_eq_gt (h : a.sortCompare b = .gt) : a ≠ .null := by
  rintro rfl
  cases b <;> cases h

theorem sortCompare_self (a : Datum) : a.sortCompare a = .eq := by
  have h := sortCompare_swap a a
  cases hself : a.sortCompare a <;> simp_all

/-- A datum ties with all that are not of its family, but for null. -/
theorem sortCompare_of_family_ne (ha : a ≠ .null) (hb : b ≠ .null) (h : a.family? ≠ b.family?) :
    a.sortCompare b = .eq := by
  rw [sortCompare_of_ne_null ha hb, compare?_eq_none h]
  rfl

theorem sortCompare_of_roundsTo (h : a.RoundsTo b) : a.sortCompare b = .eq := by
  cases a <;> cases b
  case int.float i x =>
    obtain ⟨r, hi, hx⟩ := Binary64.same_iff.1 h
    have hcompare : (Binary64.ofInt i.toInt).compare? x = some .eq :=
      Binary64.compare?_eq_some.2 ⟨r, r, hi, hx, by simp⟩
    rw [sortCompare_of_ne_null (by simp) (by simp), compare?, hcompare]
    rfl
  all_goals exact h.elim

/-- The order is transitive among data that are sorted as one kind. -/
theorem sortCompare_trans {kind : String} (ha : a.SortsAs kind) (hb : b.SortsAs kind)
    (hc : c.SortsAs kind) (hab : a.sortCompare b ≠ .gt) (hbc : b.sortCompare c ≠ .gt) :
    a.sortCompare c ≠ .gt := by
  obtain ⟨α, _, _, key, hkey⟩ := exists_sortKey kind
  rw [hkey _ _ ha hb, ne_eq, Ordering.ne_gt_iff_isLE] at hab
  rw [hkey _ _ hb hc, ne_eq, Ordering.ne_gt_iff_isLE] at hbc
  rw [hkey _ _ ha hc, ne_eq, Ordering.ne_gt_iff_isLE]
  exact Std.TransCmp.isLE_trans hab hbc

end Sorted

section Numbers

theorem number?_eq_some : a.number? = some r ↔
    (∃ i, a = .int i ∧ Binary64.place i.toInt = r) ∨ ∃ x, a = .float x ∧ x.rank? = some r := by
  cases a <;> simp [number?]

/-- Two integers compare as they are, and other numbers by their places. -/
theorem compare?_number (ha : a.number? = some r) (hb : b.number? = some s) :
    (∃ i j, a = .int i ∧ b = .int j ∧ a.compare? b = some (compare i.toInt j.toInt)) ∨
      a.compare? b = some (compare r s) := by
  rcases number?_eq_some.1 ha with ⟨i, rfl, rfl⟩ | ⟨x, rfl, hx⟩ <;>
    rcases number?_eq_some.1 hb with ⟨j, rfl, rfl⟩ | ⟨y, rfl, hy⟩
  · exact .inl ⟨i, j, rfl, rfl, rfl⟩
  · exact .inr (Binary64.compare?_eq_some.2 ⟨_, _, Binary64.rank?_ofInt _, hy, rfl⟩)
  · exact .inr (Binary64.compare?_eq_some.2 ⟨_, _, hx, Binary64.rank?_ofInt _, rfl⟩)
  · exact .inr (Binary64.compare?_eq_some.2 ⟨_, _, hx, hy, rfl⟩)

/-- Places never come in another order than the numbers. -/
theorem le_of_compare? (ha : a.number? = some r) (hb : b.number? = some s)
    (h : a.compare? b ≠ some .gt) : r ≤ s := by
  rcases compare?_number ha hb with ⟨i, j, rfl, rfl, hcompare⟩ | hcompare
  · have hle : i.toInt ≤ j.toInt := by
      rw [hcompare, ne_eq, Option.some.injEq, Int.compare_eq_gt] at h
      omega
    obtain rfl : Binary64.place i.toInt = r := Option.some.inj ha
    obtain rfl : Binary64.place j.toInt = s := Option.some.inj hb
    exact Binary64.place_mono hle
  · rw [hcompare, ne_eq, Option.some.injEq, Int.compare_eq_gt] at h
    omega

/-- Where numbers come in another order than their places, both are integers. -/
theorem integers_of_compare? (ha : a.number? = some r) (hb : b.number? = some s)
    (h : a.compare? b = some .gt) (hle : r ≤ s) :
    ∃ i j, a = .int i ∧ b = .int j ∧ j.toInt < i.toInt := by
  rcases compare?_number ha hb with ⟨i, j, rfl, rfl, hcompare⟩ | hcompare
  · rw [hcompare, Option.some.injEq, Int.compare_eq_gt] at h
    exact ⟨i, j, rfl, rfl, h⟩
  · rw [hcompare, Option.some.injEq, Int.compare_eq_gt] at h
    omega

/-- Numbers that go round in a circle are two integers and the one to which both are rounded. -/
theorem roundsTo_of_circle (ha : a.number? = some r) (hb : b.number? = some s)
    (hc : c.number? = some t) (hab : a.compare? b ≠ some .gt) (hbc : b.compare? c ≠ some .gt)
    (hac : a.compare? c = some .gt) : a.RoundsTo b ∧ c.RoundsTo b := by
  have hrs := le_of_compare? ha hb hab
  have hst := le_of_compare? hb hc hbc
  obtain ⟨i, k, rfl, rfl, hlt⟩ := integers_of_compare? ha hc hac (hrs.trans hst)
  obtain rfl : Binary64.place i.toInt = r := Option.some.inj ha
  obtain rfl : Binary64.place k.toInt = t := Option.some.inj hc
  have hmono := Binary64.place_mono hlt.le
  rcases number?_eq_some.1 hb with ⟨j, rfl, rfl⟩ | ⟨x, rfl, hx⟩
  · -- the order of the integers themselves is transitive
    simp only [compare?, ne_eq, Option.some.injEq, Int.compare_eq_gt] at hab hbc
    omega
  · refine ⟨Binary64.same_iff.2 ⟨s, ?_, hx⟩, Binary64.same_iff.2 ⟨s, ?_, hx⟩⟩
    · rw [Binary64.rank?_ofInt, Option.some.injEq]
      omega
    · rw [Binary64.rank?_ofInt, Option.some.injEq]
      omega

end Numbers

theorem Blurs.sortCompare_eq (h : b.Blurs a c) :
    a.sortCompare b = .eq ∧ b.sortCompare c = .eq ∧ a.sortCompare c = .gt := by
  have ha : a ≠ .null := by
    rintro rfl
    simpa using h.behind
  have hc : c ≠ .null := by
    rintro rfl
    simpa using h.behind
  have hac : a.sortCompare c = .gt := by
    rw [sortCompare_of_ne_null ha hc, h.behind]
    rfl
  rcases h.between with hfamily | ⟨hab, hcb⟩
  · obtain ⟨f, hfa, hfc⟩ := exists_family_of_compare? h.behind
    have hfamily' : b.family? ≠ c.family? := by rwa [hfc, ← hfa]
    exact ⟨sortCompare_of_family_ne ha h.present hfamily.symm,
      sortCompare_of_family_ne h.present hc hfamily', hac⟩
  · refine ⟨sortCompare_of_roundsTo hab, ?_, hac⟩
    rw [← sortCompare_swap, sortCompare_of_roundsTo hcb]
    rfl

theorem blurs_of_circle (hab : a.sortCompare b ≠ .gt) (hbc : b.sortCompare c ≠ .gt)
    (hac : a.sortCompare c = .gt) : b.Blurs a c := by
  have ha : a ≠ .null := ne_null_of_sortCompare_eq_gt hac
  have hb : b ≠ .null := by
    rintro rfl
    exact hab (sortCompare_null ha)
  have hc : c ≠ .null := by
    rintro rfl
    exact hbc (sortCompare_null hb)
  have hbehind : a.compare? c = some .gt := by
    rw [sortCompare_of_ne_null ha hc] at hac
    cases hcompare : a.compare? c with
    | none => simp [hcompare] at hac
    | some o => rw [← hac, hcompare, Option.getD_some]
  refine ⟨hbehind, hb, ?_⟩
  by_cases hfamily : b.family? = a.family?
  · obtain ⟨f, hfa, hfc⟩ := exists_family_of_compare? hbehind
    have hfb := hfamily.trans hfa
    -- only among numbers can the order go round in a circle
    cases hkind : f.kind? with
    | none =>
      obtain rfl := Family.kind?_eq_none.1 hkind
      obtain ⟨r, hr⟩ := family?_eq_number.1 hfa
      obtain ⟨s, hs⟩ := family?_eq_number.1 hfb
      obtain ⟨t, ht⟩ := family?_eq_number.1 hfc
      exact .inr (roundsTo_of_circle hr hs ht (ne_gt_of_sortCompare ha hb hab)
        (ne_gt_of_sortCompare hb hc hbc) hbehind)
    | some kind =>
      have hsorted := sortCompare_trans (sortsAs_of_family hfa hkind)
        (sortsAs_of_family hfb hkind) (sortsAs_of_family hfc hkind) hab hbc
      exact absurd hac hsorted
  · exact .inl hfamily

/-- The order of a sorted column is total: a datum ties with itself, and two data come in one order
or the other or tie. It is transitive as well, but for data that blur the order of two others. -/
theorem sortCompare_preorder (a b c : Datum) :
    a.sortCompare a = .eq ∧ b.sortCompare a = (a.sortCompare b).swap ∧
    ((a.sortCompare b ≠ .gt → b.sortCompare c ≠ .gt → a.sortCompare c ≠ .gt) ↔
      ¬ b.Blurs a c) := by
  refine ⟨sortCompare_self a, (sortCompare_swap a b).symm, fun htrans hblurs => ?_,
    fun hclear hab hbc hac => hclear (blurs_of_circle hab hbc hac)⟩
  obtain ⟨hab, hbc, hac⟩ := hblurs.sortCompare_eq
  exact htrans (by simp [hab]) (by simp [hbc]) hac

end Datum

section Circles

/-- The least positive integer that is no floating point number, the number to which it is rounded,
and the integer that is this number. -/
def roundedKeys : List Datum :=
  [.int 9007199254740993, .float ⟨0x4340000000000000⟩, .int 9007199254740992]

/-- Two integers and a text between them. -/
def mixedKeys : List Datum :=
  [.int 2, .text "Studyology", .int 1]

/-- In both lists each datum ties with the next and the first comes behind the last, so that neither
is changed by sorting. -/
theorem keys_in_circles :
    ((Datum.int 9007199254740993).sortCompare (.float ⟨0x4340000000000000⟩) = .eq ∧
      (Datum.float ⟨0x4340000000000000⟩).sortCompare (.int 9007199254740992) = .eq ∧
      (Datum.int 9007199254740993).sortCompare (.int 9007199254740992) = .gt ∧
      Select.stableSort (fun a b => a.sortCompare b == .lt) roundedKeys = roundedKeys) ∧
    (Datum.int 2).sortCompare (.text "Studyology") = .eq ∧
      (Datum.text "Studyology").sortCompare (.int 1) = .eq ∧
      (Datum.int 2).sortCompare (.int 1) = .gt ∧
      Select.stableSort (fun a b => a.sortCompare b == .lt) mixedKeys = mixedKeys :=
  ⟨⟨by decide, by decide, by decide, rfl⟩, by decide, by decide, by decide, rfl⟩

end Circles

end EntityGraph
