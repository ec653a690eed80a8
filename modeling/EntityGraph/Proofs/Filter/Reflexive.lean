import EntityGraph.Proofs.Dict
import EntityGraph.Proofs.Filter.Levels
import EntityGraph.Proofs.Filter.Same

/-!
# Filters that equal themselves

Equality of filters compares operands as literals. What is not a number equals nothing, and of two
fields of one name an object shows the first; the literals of requests have neither, and filters
that are read from them equal themselves.

* `Literal.Proper` are these literals;
* `FilterExpr.reflexive_of_parse` is the result.
-/

namespace EntityGraph

/-- A literal in which every number is one and the fields of every object have distinct names. -/
inductive Literal.Proper : Literal → Prop where
  | null : Proper .null
  | bool (b : Bool) : Proper (.bool b)
  | int (n : Int) : Proper (.int n)
  | float {x : Binary64} : x.isNaN = false → Proper (.float x)
  | string (s : String) : Proper (.string s)
  | enum (name : String) : Proper (.enum name)
  | list {items : List Literal} : (∀ l ∈ items, Proper l) → Proper (.list items)
  | object {fields : List (String × Literal)} : (fields.map (·.1)).Nodup →
    (∀ f ∈ fields, Proper f.2) → Proper (.object fields)

namespace Literal

theorem Proper.items {items : List Literal} (h : Proper (.list items)) : ∀ l ∈ items, l.Proper := by
  cases h with
  | list h => exact h

theorem Proper.fields {fields : List (String × Literal)} (h : Proper (.object fields)) :
    (fields.map (·.1)).Nodup ∧ ∀ f ∈ fields, f.2.Proper := by
  cases h with
  | object hnodup h => exact ⟨hnodup, h⟩

mutual

theorem same_self : ∀ l : Literal, l.Proper → l.same l = true
  | .null, _ => by rw [same]
  | .bool b, _ => by rw [same, beq_self_eq_true]
  | .int n, _ => by rw [same, beq_self_eq_true]
  | .float x, h => by
    rw [same]
    cases h with
    | float h => exact Binary64.same_self h
  | .string s, _ => by rw [same, name?, beq_self_eq_true]
  | .enum s, _ => by rw [same, name?, beq_self_eq_true]
  | .list items, h => by
    rw [same]
    exact sameItems_self items h.items
  | .object fields, h => by
    rw [same, beq_self_eq_true, Bool.true_and]
    exact sameFields_self fields fields h.fields.2 fun f hf =>
      Dict.lookup_of_nodup h.fields.1 hf

theorem sameItems_self : ∀ items : List Literal, (∀ l ∈ items, l.Proper) →
    sameItems items items = true
  | [], _ => rfl
  | l :: items, h => by
    rw [sameItems, same_self l (h l List.mem_cons_self),
      sameItems_self items fun x hx => h x (List.mem_cons_of_mem l hx)]
    rfl

/-- Fields equal those of an object in which they are found. -/
theorem sameFields_self : ∀ fields all : List (String × Literal), (∀ f ∈ fields, f.2.Proper) →
    (∀ f ∈ fields, all.lookup f.1 = some f.2) → sameFields fields all = true
  | [], _, _, _ => rfl
  | (key, l) :: fields, all, h, hall => by
    have hkey : all.lookup key = some l := hall (key, l) List.mem_cons_self
    rw [sameFields, hkey]
    dsimp only
    rw [same_self l (h (key, l) List.mem_cons_self),
      sameFields_self fields all (fun f hf => h f (List.mem_cons_of_mem _ hf))
        fun f hf => hall f (List.mem_cons_of_mem _ hf)]
    rfl

end

end Literal

namespace FilterExpr

/-- Filters that equal themselves. -/
def Reflexive (f : FilterExpr) : Prop :=
  f.same f = true

variable {f : FilterExpr}

theorem sameAll_self {fs : List FilterExpr} : sameAll fs fs = true ↔ ∀ f ∈ fs, f.Reflexive := by
  induction fs with
  | nil => simp [sameAll]
  | cons f fs ih => simp [sameAll, ih, Reflexive]

theorem sameFields_self {xs : List FieldFilter} :
    sameFields xs xs = true ↔ ∀ x ∈ xs, sameField x x = true := by
  induction xs with
  | nil => simp [sameFields]
  | cons x xs ih => simp [sameFields, ih]

/-- A filter equals itself if its parts do. -/
theorem reflexive_iff : f.Reflexive ↔ (∀ x ∈ f.fields, sameField x x = true) ∧
    (∀ g ∈ f.conjuncts, g.Reflexive) ∧ (∀ g ∈ f.alternatives, g.Reflexive) ∧
      ∀ g, f.negated = some g → g.Reflexive := by
  obtain ⟨fields, conjuncts, alternatives, negated⟩ := f
  have hnegated : sameNegated negated negated = true ↔ ∀ g, negated = some g → g.Reflexive := by
    cases negated <;> simp [sameNegated, Reflexive]
  rw [Reflexive, same, Bool.and_eq_true, Bool.and_eq_true, Bool.and_eq_true, sameFields_self,
    sameAll_self, sameAll_self, hnegated, and_assoc, and_assoc]
  rfl

theorem Reflexive.mk {fields : List FieldFilter} {conjuncts alternatives : List FilterExpr}
    {negated : Option FilterExpr} (hfields : ∀ x ∈ fields, sameField x x = true)
    (hall : ∀ g ∈ conjuncts, g.Reflexive) (hany : ∀ g ∈ alternatives, g.Reflexive)
    (hnot : ∀ g, negated = some g → g.Reflexive) :
    (FilterExpr.mk fields conjuncts alternatives negated).Reflexive :=
  reflexive_iff.2 ⟨hfields, hall, hany, hnot⟩

theorem reflexive_empty : empty.Reflexive :=
  .mk nofun nofun nofun nofun

variable {c : Catalog}

mutual

/-- A filter that was read from a proper literal equals itself. -/
theorem reflexive_of_parse : ∀ (m : ModelId) (l : Literal) (f : FilterExpr), l.Proper →
    parse c m l = .ok f → f.Reflexive
  | m, .null, f, _, h => by
    obtain rfl : empty = f := by simpa [parse] using h
    exact reflexive_empty
  | m, .object entries, f, hl, h => by
    rw [parse] at h
    exact reflexive_of_parseEntries m entries empty f hl.fields.2 reflexive_empty h
  | _, .bool _, _, _, h => by simp [parse] at h
  | _, .int _, _, _, h => by simp [parse] at h
  | _, .float _, _, _, h => by simp [parse] at h
  | _, .string _, _, _, h => by simp [parse] at h
  | _, .enum _, _, _, h => by simp [parse] at h
  | _, .list _, _, _, h => by simp [parse] at h

theorem reflexive_of_parseMany : ∀ (m : ModelId) (l : Literal) (fs : List FilterExpr), l.Proper →
    parseMany c m l = .ok fs → ∀ f ∈ fs, f.Reflexive
  | m, .null, fs, _, h => by
    obtain rfl : [] = fs := by simpa [parseMany] using h
    exact fun _ hf => nomatch hf
  | m, .object entries, fs, hl, h => by
    simp only [parseMany, bind_eq_ok, pure_eq_ok] at h
    obtain ⟨f, hf, rfl⟩ := h
    exact List.forall_mem_singleton.2
      (reflexive_of_parseEntries m entries empty f hl.fields.2 reflexive_empty hf)
  | m, .list items, fs, hl, h => by
    rw [parseMany] at h
    exact reflexive_of_parseItems m items fs hl.items h
  | _, .bool _, _, _, h => by simp [parseMany] at h
  | _, .int _, _, _, h => by simp [parseMany] at h
  | _, .float _, _, _, h => by simp [parseMany] at h
  | _, .string _, _, _, h => by simp [parseMany] at h
  | _, .enum _, _, _, h => by simp [parseMany] at h

theorem reflexive_of_parseItems : ∀ (m : ModelId) (ls : List Literal) (fs : List FilterExpr),
    (∀ l ∈ ls, l.Proper) → parseItems c m ls = .ok fs → ∀ f ∈ fs, f.Reflexive
  | m, [], fs, _, h => by
    obtain rfl : [] = fs := by simpa [parseItems] using h
    exact fun _ hf => nomatch hf
  | m, l :: rest, fs, hls, h => by
    obtain ⟨hl, hrest⟩ := List.forall_mem_cons.1 hls
    simp only [parseItems, bind_eq_ok, pure_eq_ok] at h
    obtain ⟨f, hf, gs, hgs, rfl⟩ := h
    exact List.forall_mem_cons.2
      ⟨reflexive_of_parse m l f hl hf, reflexive_of_parseItems m rest gs hrest hgs⟩

theorem reflexive_of_parseEntries : ∀ (m : ModelId) (entries : List (String × Literal))
    (f g : FilterExpr), (∀ e ∈ entries, e.2.Proper) → f.Reflexive →
      parseEntries c m f entries = .ok g → g.Reflexive
  | m, [], f, g, _, hf, h => by
    obtain rfl : f = g := by simpa [parseEntries] using h
    exact hf
  | m, (key, value) :: rest, f, g, hentries, hf, h => by
    obtain ⟨hvalue, hrest⟩ := List.forall_mem_cons.1 hentries
    obtain ⟨hfields, hall, hany, hnot⟩ := reflexive_iff.1 hf
    simp only [parseEntries] at h
    split_ifs at h with hand hor hnull hneg
    · obtain ⟨conjuncts, hconjuncts, h⟩ := bind_eq_ok.1 h
      exact reflexive_of_parseEntries m rest _ g hrest (.mk hfields
        (reflexive_of_parseMany m value conjuncts hvalue hconjuncts) hany hnot) h
    · obtain ⟨alternatives, halternatives, h⟩ := bind_eq_ok.1 h
      exact reflexive_of_parseEntries m rest _ g hrest (.mk hfields hall
        (reflexive_of_parseMany m value alternatives hvalue halternatives) hnot) h
    · exact reflexive_of_parseEntries m rest f g hrest hf h
    · obtain ⟨negated, hnegated, h⟩ := bind_eq_ok.1 h
      refine reflexive_of_parseEntries m rest _ g hrest (.mk hfields hall hany ?_) h
      rintro _ ⟨⟩
      exact reflexive_of_parse m value negated hvalue hnegated
    · obtain ⟨p, -, h⟩ := bind_eq_ok.1 h
      -- the filters with one more condition that equals itself
      have hadd : ∀ x, sameField x x = true →
          (mk (f.fields ++ [x]) f.conjuncts f.alternatives f.negated).Reflexive := fun x hx =>
        .mk (List.forall_mem_append.2 ⟨hfields, List.forall_mem_singleton.2 hx⟩) hall hany hnot
      cases htarget : p.target with
      | none =>
        simp only [htarget, bind_eq_ok] at h
        obtain ⟨x, hx, h⟩ := h
        obtain ⟨op, operand, ⟨name, rfl, -⟩, rfl⟩ := parsePredicate_iff.1 hx
        refine reflexive_of_parseEntries m rest _ g hrest (hadd _ ?_) h
        have hoperand := hvalue.fields.2 _ List.mem_cons_self
        rw [sameField, beq_self_eq_true, beq_self_eq_true, Literal.same_self operand hoperand]
        rfl
      | some target =>
        simp only [htarget, bind_eq_ok, map_eq_ok] at h
        obtain ⟨_, ⟨inner, hinner, rfl⟩, h⟩ := h
        refine reflexive_of_parseEntries m rest _ g hrest (hadd _ ?_) h
        have hsame : inner.same inner = true :=
          reflexive_of_parse target value inner hvalue hinner
        rw [sameField, beq_self_eq_true, beq_self_eq_true, hsame]
        rfl

end

end FilterExpr

end EntityGraph
