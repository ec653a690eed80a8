import Mathlib.Data.List.Forall2
import Mathlib.Data.List.Induction
import Mathlib.Data.String.Basic
import Mathlib.Tactic.SplitIfs
import EntityGraph.Dict

/-!
# Laws of dictionaries

`Dict.get?` after each operation. A map that is built by setting entries one after the other holds
at each key what the last entry of that key gives (`Dict.get?_ofList`), and lists its keys in order
(`Dict.Sorted`). Maps that are built in step hold related values (`Dict.Matches`).
-/

namespace EntityGraph

namespace Dict

variable {α : Type}

@[simp] theorem get?_empty (k : String) : (empty : Dict α).get? k = none := rfl

theorem lookup_cons_eq_ite (k k' : String) (a : α) (l : List (String × α)) :
    ((k, a) :: l).lookup k' = if k' = k then some a else l.lookup k' := by
  by_cases h : k' = k
  · simp [h]
  · simp [List.lookup_cons, beq_false_of_ne h, h]

/-- Among entries of distinct keys each is found under its key. -/
theorem lookup_of_nodup {l : List (String × α)} (h : (l.map (·.1)).Nodup) {e : String × α}
    (he : e ∈ l) : l.lookup e.1 = some e.2 := by
  induction l with
  | nil => cases he
  | cons e' l ih =>
    obtain ⟨hnot, hrest⟩ := List.nodup_cons.1 h
    rcases List.mem_cons.1 he with rfl | hmem
    · exact List.lookup_cons_self
    · have hne : e.1 ≠ e'.1 := fun heq => hnot (List.mem_map.2 ⟨e, hmem, heq⟩)
      rw [List.lookup_cons, beq_false_of_ne hne]
      exact ih hrest hmem

theorem lookup_place (k k' : String) (a : α) (l : List (String × α)) :
    (place k a l).lookup k' = if k' = k then some a else l.lookup k' := by
  induction l with
  | nil => rw [place, lookup_cons_eq_ite]
  | cons e l ih =>
    obtain ⟨k₁, b⟩ := e
    unfold place
    split_ifs with h₁ h₂ h₃ h₃ h₃ <;> simp_all [lookup_cons_eq_ite]

@[simp] theorem get?_set (d : Dict α) (k k' : String) (a : α) :
    (d.set k a).get? k' = if k' = k then some a else d.get? k' :=
  lookup_place k k' a d.entries

/-- The entries stand in the order of their keys, each key once. -/
def Sorted (d : Dict α) : Prop := d.entries.Pairwise fun a b => a.1 < b.1

theorem mem_keys {d : Dict α} {k : String} : k ∈ d.keys ↔ d.get? k ≠ none := by
  simp [keys, get?, List.lookup_eq_none_iff]

theorem sorted_empty : (empty : Dict α).Sorted := List.Pairwise.nil

theorem mem_place {k : String} {a : α} {l : List (String × α)} {e : String × α}
    (he : e ∈ place k a l) : e = (k, a) ∨ e ∈ l := by
  induction l with
  | nil => exact .inl (List.mem_singleton.1 he)
  | cons b l ih =>
    obtain ⟨k₁, b⟩ := b
    unfold place at he
    split_ifs at he with hlt heq
    · exact List.mem_cons.1 he
    · rcases List.mem_cons.1 he with rfl | he
      · exact .inl rfl
      · exact .inr (List.mem_cons_of_mem _ he)
    · rcases List.mem_cons.1 he with rfl | he
      · exact .inr List.mem_cons_self
      · exact (ih he).imp_right (List.mem_cons_of_mem _)

theorem Sorted.set {d : Dict α} (h : d.Sorted) (k : String) (a : α) : (d.set k a).Sorted := by
  obtain ⟨l⟩ := d
  show (place k a l).Pairwise fun a b => a.1 < b.1
  have hl : l.Pairwise fun a b => a.1 < b.1 := h
  induction l with
  | nil => exact List.pairwise_singleton _ _
  | cons e l ih =>
    obtain ⟨k₁, b⟩ := e
    obtain ⟨hhead, htail⟩ := List.pairwise_cons.1 hl
    unfold place
    split_ifs with hlt heq
    · refine List.pairwise_cons.2 ⟨fun e he => ?_, hl⟩
      rcases List.mem_cons.1 he with rfl | he
      · exact hlt
      · exact lt_trans hlt (hhead e he)
    · subst heq
      exact List.pairwise_cons.2 ⟨hhead, htail⟩
    · have hgt : k₁ < k := lt_of_le_of_ne (not_lt.1 hlt) (Ne.symm heq)
      refine List.pairwise_cons.2 ⟨fun e he => ?_, ih htail htail⟩
      rcases mem_place he with rfl | he
      · exact hgt
      · exact hhead e he

theorem Sorted.nodup_keys {d : Dict α} (h : d.Sorted) : (d.entries.map (·.1)).Nodup :=
  List.pairwise_map.2 (h.imp fun hlt => ne_of_lt hlt)

/-- The entries of a sorted map are what it holds. -/
theorem Sorted.mem_entries {d : Dict α} (h : d.Sorted) {k : String} {a : α} :
    (k, a) ∈ d.entries ↔ d.get? k = some a := by
  obtain ⟨l⟩ := d
  show (k, a) ∈ l ↔ l.lookup k = some a
  have hl : l.Pairwise fun a b => a.1 < b.1 := h
  induction l with
  | nil => simp
  | cons e l ih =>
    obtain ⟨k₁, b⟩ := e
    obtain ⟨hhead, htail⟩ := List.pairwise_cons.1 hl
    have hrest : (k, a) ∈ l ↔ l.lookup k = some a := ih htail htail
    rw [lookup_cons_eq_ite, List.mem_cons]
    by_cases heq : k = k₁
    · subst heq
      have hnot : (k, a) ∉ l := by
        intro hmem
        exact lt_irrefl k (hhead (k, a) hmem)
      simp [hnot, eq_comm]
    · simp [heq, hrest]

@[simp] theorem ofList_concat (l : List (String × α)) (e : String × α) :
    ofList (l ++ [e]) = (ofList l).set e.1 e.2 :=
  List.foldl_concat ..

/-- A map that is built from a list holds at each key what the last entry of that key gives. -/
theorem get?_ofList (l : List (String × α)) (k : String) :
    (ofList l).get? k = l.reverse.lookup k := by
  induction l using List.reverseRecOn with
  | nil => rfl
  | append_singleton l e ih =>
    rw [ofList_concat, get?_set, ih, List.reverse_append, List.reverse_singleton,
      List.singleton_append, lookup_cons_eq_ite]

theorem sorted_ofList (l : List (String × α)) : (ofList l).Sorted := by
  induction l using List.reverseRecOn with
  | nil => exact sorted_empty
  | append_singleton l e ih => exact ofList_concat l e ▸ ih.set e.1 e.2

section Matches

variable {β : Type} {R : α → β → Prop} {d : Dict α} {d' : Dict β} {a : α} {b : β}

/-- Two maps have the same keys and hold related values there. -/
def Matches (R : α → β → Prop) (d : Dict α) (d' : Dict β) : Prop :=
  List.Forall₂ (fun e e' => e.1 = e'.1 ∧ R e.2 e'.2) d.entries d'.entries

theorem Matches.values (h : d.Matches R d') : List.Forall₂ R d.values d'.values :=
  List.forall₂_map_left_iff.2 (List.forall₂_map_right_iff.2 (h.imp fun _ _ he => he.2))

theorem Matches.set (h : d.Matches R d') (k : String) (hab : R a b) :
    (d.set k a).Matches R (d'.set k b) := by
  obtain ⟨l⟩ := d
  obtain ⟨l'⟩ := d'
  have hl : List.Forall₂ (fun e e' => e.1 = e'.1 ∧ R e.2 e'.2) l l' := h
  show List.Forall₂ _ (place k a l) (place k b l')
  induction hl with
  | nil => exact .cons ⟨rfl, hab⟩ .nil
  | @cons e e' l l' he hrest ih =>
    obtain ⟨k₁, a₁⟩ := e
    obtain ⟨k₂, b₁⟩ := e'
    obtain ⟨rfl, hvalue⟩ : k₁ = k₂ ∧ R a₁ b₁ := he
    unfold place
    split_ifs
    · exact .cons ⟨rfl, hab⟩ (.cons ⟨rfl, hvalue⟩ hrest)
    · exact .cons ⟨rfl, hab⟩ hrest
    · exact .cons ⟨rfl, hvalue⟩ (ih hrest)

/-- Maps that are built from related entries. -/
theorem matches_ofList {l : List (String × α)} {l' : List (String × β)}
    (h : List.Forall₂ (fun e e' => e.1 = e'.1 ∧ R e.2 e'.2) l l') :
    (ofList l).Matches R (ofList l') := by
  have hfold : ∀ {d : Dict α} {d' : Dict β}, d.Matches R d' →
      (l.foldl (fun d e => d.set e.1 e.2) d).Matches R
        (l'.foldl (fun d e => d.set e.1 e.2) d') := by
    induction h with
    | nil => exact fun hd => hd
    | @cons e e' l l' he _ ih =>
      intro d d' hd
      have hset : (d.set e.1 e.2).Matches R (d'.set e'.1 e'.2) := he.1 ▸ hd.set e.1 he.2
      exact ih hset
  exact hfold .nil

end Matches

end Dict

end EntityGraph
