import EntityGraph.Proofs.Filter.Meaning
import EntityGraph.Relation.Loader

/-!
# Equal filters

Filters that are equal mean the same, so that leaving out one of them changes nothing. Equality of
filters is coarser than identity: zeros of both signs are equal, and so are an enum value and a
string of its text.
-/

namespace EntityGraph

namespace Binary64

theorem rank?_eq_of_same {x y : Binary64} (h : x.same y = true) : x.rank? = y.rank? := by
  unfold same compare? at h
  cases hx : x.rank? <;> cases hy : y.rank? <;> simp_all

theorem same_self {x : Binary64} (h : x.isNaN = false) : x.same x = true := by
  cases hsign : x.isNegative <;> simp [same, compare?, rank?, h, hsign]

theorem magnitude_ofMagnitude {m : Nat} (negative : Bool) (hm : m < signWeight) :
    (ofMagnitude negative m).magnitude = m := by
  have hweight : signWeight = 2 ^ 63 := rfl
  unfold magnitude ofMagnitude
  rw [UInt64.toNat_ofNat']
  cases negative <;> simp only [hweight, Bool.false_eq_true, if_true, if_false] at * <;> omega

theorem isNaN_ofMagnitude {m : Nat} (negative : Bool) (hm : m ≤ infinityBits) :
    (ofMagnitude negative m).isNaN = false := by
  have hbits : infinityBits < signWeight := by decide
  rw [isNaN, magnitude_ofMagnitude negative (by omega)]
  simpa using hm

/-- A rounded quotient is a number. -/
theorem isNaN_ofRatio (negative : Bool) (n d : Nat) : (ofRatio negative n d).isNaN = false := by
  unfold ofRatio
  split
  · exact isNaN_ofMagnitude negative (Nat.zero_le _)
  · exact isNaN_ofMagnitude negative (Nat.min_le_right _ _)

end Binary64

namespace Datum

/-- Equal data compare alike with every datum. -/
theorem compare?_of_same {d e : Datum} (h : d.same e = true) (x : Datum) :
    x.compare? d = x.compare? e := by
  cases d <;> cases e <;> simp_all [same]
  case float.float a b =>
    have hrank := Binary64.rank?_eq_of_same h
    cases x <;> simp [compare?, Binary64.compare?, hrank]
  case list.list as bs => cases x <;> rfl

theorem sameItems_iff {as bs : List Datum} :
    sameItems as bs = true ↔ List.Forall₂ (fun a b => a.same b = true) as bs := by
  induction as generalizing bs with
  | nil => cases bs <;> simp [sameItems]
  | cons a as ih => cases bs <;> simp [sameItems, ih]

end Datum

section Forall₂

variable {α : Type} {R : α → α → Prop} {P Q : α → Prop} {as bs : List α}

theorem forall_mem_iff_of_forall₂ (h : List.Forall₂ R as bs)
    (hPQ : ∀ a ∈ as, ∀ b, R a b → (P a ↔ Q b)) : (∀ a ∈ as, P a) ↔ ∀ b ∈ bs, Q b := by
  induction h with
  | nil => simp
  | cons hab _ ih =>
    rw [List.forall_mem_cons, List.forall_mem_cons, hPQ _ List.mem_cons_self _ hab,
      ih fun a ha => hPQ a (List.mem_cons_of_mem _ ha)]

theorem exists_mem_iff_of_forall₂ (h : List.Forall₂ R as bs)
    (hPQ : ∀ a ∈ as, ∀ b, R a b → (P a ↔ Q b)) : (∃ a ∈ as, P a) ↔ ∃ b ∈ bs, Q b := by
  induction h with
  | nil => simp
  | cons hab _ ih =>
    rw [List.exists_mem_cons_iff, List.exists_mem_cons_iff, hPQ _ List.mem_cons_self _ hab,
      ih fun a ha => hPQ a (List.mem_cons_of_mem _ ha)]

end Forall₂

/-- Equal operands are met alike. -/
theorem FilterOperator.meets_of_same {op : FilterOperator} {x d e : Datum}
    (h : d.same e = true) : op.Meets x d ↔ op.Meets x e := by
  have hcompare := Datum.compare?_of_same h x
  cases d <;> cases e <;> simp only [Datum.same, beq_iff_eq, Bool.false_eq_true] at h
  case null.null => rfl
  case bool.bool a b => rw [h]
  case int.int a b => rw [h]
  case float.float a b => cases op <;> simp [Meets, hcompare]
  case text.text a b => rw [h]
  case timestamp.timestamp a b => rw [h]
  case list.list as bs =>
    have hitems := Datum.sameItems_iff.1 h
    have heach : ∀ a ∈ as, ∀ b, a.same b = true →
        (x.compare? a = some .eq ↔ x.compare? b = some .eq) :=
      fun a _ b hab => by rw [Datum.compare?_of_same hab x]
    cases op <;> simp only [Meets, hcompare]
    case isIn => exact exists_mem_iff_of_forall₂ hitems heach
    case notIn =>
      exact and_congr_right fun _ =>
        forall_mem_iff_of_forall₂ hitems fun a ha b hab => not_congr (heach a ha b hab)

namespace Literal

/-- Two conversions give equal data, or both fail. -/
def SameOutcome : Except Error Datum → Except Error Datum → Prop
  | .ok d, .ok e => d.same e = true
  | .error _, .error _ => True
  | _, _ => False

/-- Two conversions of lists give equal data, or both fail. -/
def SameOutcomes : Except Error (List Datum) → Except Error (List Datum) → Prop
  | .ok ds, .ok es => Datum.sameItems ds es = true
  | .error _, .error _ => True
  | _, _ => False

variable {kind : ScalarKind}

theorem sameOutcome_int (n : Int) :
    SameOutcome (Datum.ofLiteral kind (.int n)) (Datum.ofLiteral kind (.int n)) := by
  cases kind with
  | int => cases h : (Literal.int n).int? <;> simp [Datum.ofLiteral, h, SameOutcome, Datum.same]
  | float => exact Binary64.same_self (Binary64.isNaN_ofRatio (decide (n < 0)) n.natAbs 1)
  | boolean => simp [Datum.ofLiteral, SameOutcome]
  | string => simp [Datum.ofLiteral, SameOutcome]
  | dateTime => simp [Datum.ofLiteral, SameOutcome]

theorem sameOutcome_string (s : String) :
    SameOutcome (Datum.ofLiteral kind (.string s)) (Datum.ofLiteral kind (.string s)) := by
  cases kind with
  | dateTime => cases h : Timestamp.parse? s <;> simp [Datum.ofLiteral, h, SameOutcome, Datum.same]
  | string => simp [Datum.ofLiteral, SameOutcome, Datum.same]
  | int => simp [Datum.ofLiteral, SameOutcome]
  | float => simp [Datum.ofLiteral, SameOutcome]
  | boolean => simp [Datum.ofLiteral, SameOutcome]

mutual

/-- Equal literals stand for equal data. -/
theorem ofLiteral_plain_of_same :
    ∀ l l' : Literal, l.same l' = true →
      SameOutcome (Datum.ofLiteral kind l.plain) (Datum.ofLiteral kind l'.plain)
  | .list items, l', h => by
    cases l' <;> simp only [same, Bool.false_eq_true] at h
    case list items' =>
      have hitems := ofLiterals_plain_of_same items items' h
      simp only [plain, Datum.ofLiteral]
      cases hd : Datum.ofLiterals kind (plainItems items) <;>
        cases he : Datum.ofLiterals kind (plainItems items') <;>
        simp_all [SameOutcomes, SameOutcome, bind, Except.bind, pure, Except.pure, Datum.same]
  | .null, l', h => by
    cases l' <;> simp only [same, Bool.false_eq_true] at h
    case null => simp [plain, Datum.ofLiteral, SameOutcome, Datum.same]
  | .bool b, l', h => by
    cases l' <;> simp only [same, Bool.false_eq_true, beq_iff_eq] at h
    case bool b' =>
      subst h
      cases kind <;> simp [plain, Datum.ofLiteral, SameOutcome, Datum.same]
  | .int n, l', h => by
    cases l' <;> simp only [same, Bool.false_eq_true, beq_iff_eq] at h
    case int n' =>
      subst h
      exact sameOutcome_int n
  | .float x, l', h => by
    cases l' <;> simp only [same, Bool.false_eq_true] at h
    case float y => cases kind <;> simp [plain, Datum.ofLiteral, SameOutcome, Datum.same, h]
  -- a string equals an enum value of the same name, which is read as a string
  | .string s, l', h => by
    cases l' <;> simp [same, name?] at h
    case string s' =>
      subst h
      exact sameOutcome_string s'
    case enum s' =>
      subst h
      exact sameOutcome_string s'
  | .enum s, l', h => by
    cases l' <;> simp [same, name?] at h
    case string s' =>
      subst h
      exact sameOutcome_string s'
    case enum s' =>
      subst h
      exact sameOutcome_string s'
  | .object fields, l', h => by
    cases l' <;> simp only [same, Bool.false_eq_true] at h
    case object fields' => simp [plain, Datum.ofLiteral, SameOutcome]

theorem ofLiterals_plain_of_same :
    ∀ ls ls' : List Literal, sameItems ls ls' = true →
      SameOutcomes (Datum.ofLiterals kind (plainItems ls)) (Datum.ofLiterals kind (plainItems ls'))
  | [], ls', h => by
    cases ls' with
    | nil => simp [plainItems, Datum.ofLiterals, SameOutcomes, Datum.sameItems]
    | cons l' ls' => simp [sameItems] at h
  | l :: ls, ls', h => by
    cases ls' with
    | nil => simp [sameItems] at h
    | cons l' ls' =>
      rw [sameItems, Bool.and_eq_true] at h
      have hl := ofLiteral_plain_of_same l l' h.1
      have hls := ofLiterals_plain_of_same ls ls' h.2
      simp only [plainItems, Datum.ofLiterals]
      cases hd : Datum.ofLiteral kind l.plain <;> cases he : Datum.ofLiteral kind l'.plain <;>
        cases hds : Datum.ofLiterals kind (plainItems ls) <;>
        cases hes : Datum.ofLiterals kind (plainItems ls') <;>
        simp_all [SameOutcomes, SameOutcome, bind, Except.bind, pure, Except.pure, Datum.sameItems]

end

end Literal

namespace FilterExpr

variable {c : Catalog} {s : Store}

theorem sameAll_iff {fs gs : List FilterExpr} :
    sameAll fs gs = true ↔ List.Forall₂ (fun f g => f.same g = true) fs gs := by
  induction fs generalizing gs with
  | nil => cases gs <;> simp [sameAll]
  | cons f fs ih => cases gs <;> simp [sameAll, ih]

theorem sameFields_iff {xs ys : List FieldFilter} :
    sameFields xs ys = true ↔ List.Forall₂ (fun x y => sameField x y = true) xs ys := by
  induction xs generalizing ys with
  | nil => cases ys <;> simp [sameFields]
  | cons x xs ih => cases ys <;> simp [sameFields, ih]

theorem meansField_predicate_of_same {model : ModelId} {record : Record} {property : String}
    {op : FilterOperator} {v w : Literal} (h : v.same w = true) :
    MeansField c s model record (.predicate property op v) ↔
      MeansField c s model record (.predicate property op w) := by
  simp only [MeansField]
  refine exists_congr fun p => exists_congr fun kind => ?_
  have hout : Literal.SameOutcome (Datum.ofLiteral kind v.plain) (Datum.ofLiteral kind w.plain) :=
    Literal.ofLiteral_plain_of_same v w h
  cases hv : Datum.ofLiteral kind v.plain with
  | error e => cases hw : Datum.ofLiteral kind w.plain <;> simp_all [Literal.SameOutcome]
  | ok d =>
    cases hw : Datum.ofLiteral kind w.plain with
    | error e => simp [hv, hw, Literal.SameOutcome] at hout
    | ok e =>
      rw [hv, hw] at hout
      have hmeets : ∀ x, op.Meets x d ↔ op.Meets x e := fun x => FilterOperator.meets_of_same hout
      simp [hmeets]

/-- Equal filters mean the same. -/
theorem means_of_same {f g : FilterExpr} (h : f.same g = true) (model : ModelId)
    (record : Record) : Means c s model record f ↔ Means c s model record g := by
  induction f using nested_induction generalizing g model record with
  | step fields conjuncts alternatives negated ihfields ihall ihany ihnot =>
    obtain ⟨fields', conjuncts', alternatives', negated'⟩ := g
    simp only [same, Bool.and_eq_true] at h
    obtain ⟨⟨⟨hfields, hall⟩, hany⟩, hnot⟩ := h
    have heach := forall_mem_iff_of_forall₂ (P := MeansField c s model record)
      (Q := MeansField c s model record) (sameFields_iff.1 hfields) fun x hx y hxy => by
        cases x with
        | predicate property op v =>
          cases y with
          | relation property' target' g => simp [sameField] at hxy
          | predicate property' op' w =>
            simp only [sameField, Bool.and_eq_true, beq_iff_eq] at hxy
            obtain ⟨⟨rfl, rfl⟩, hvw⟩ := hxy
            exact meansField_predicate_of_same hvw
        | relation property target f =>
          cases y with
          | predicate property' op' w => simp [sameField] at hxy
          | relation property' target' g =>
            simp only [sameField, Bool.and_eq_true, beq_iff_eq] at hxy
            obtain ⟨⟨rfl, rfl⟩, hfg⟩ := hxy
            have hmeans := ihfields property target f hx hfg
            simp only [MeansField, hmeans]
    have hconjuncts := forall_mem_iff_of_forall₂ (sameAll_iff.1 hall) fun a ha b hab =>
      ihall a ha hab model record
    have halternatives := exists_mem_iff_of_forall₂ (sameAll_iff.1 hany) fun a ha b hab =>
      ihany a ha hab model record
    -- no alternatives hold, but alternatives that all fail do not
    have hempty : alternatives = [] ↔ alternatives' = [] := by
      rw [← List.length_eq_zero_iff, ← List.length_eq_zero_iff, (sameAll_iff.1 hany).length_eq]
    have hnegated : (∀ g ∈ negated, ¬ Means c s model record g) ↔
        ∀ g ∈ negated', ¬ Means c s model record g := by
      cases negated with
      | none => cases negated' <;> simp_all [sameNegated]
      | some f =>
        cases negated' with
        | none => simp [sameNegated] at hnot
        | some g =>
          have hmeans := ihnot f rfl hnot model record
          simp [hmeans]
    rw [means_mk, means_mk, heach, hconjuncts, halternatives, hempty, hnegated]

end FilterExpr

end EntityGraph
