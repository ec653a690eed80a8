import Mathlib.Data.List.Forall2
import Mathlib.Tactic.SplitIfs

/-!
# Outcomes of computations that may fail

What a computation in `Except` says about its parts when it succeeds.

* `bind_eq_ok`, `mapM_eq_ok` and `filterM_eq_ok` take a success apart;
* `Decides e P` says that a test succeeds and answers whether `P` holds.
-/

namespace EntityGraph

variable {ε α β : Type}

theorem bind_eq_ok {x : Except ε α} {f : α → Except ε β} {b : β} :
    x >>= f = .ok b ↔ ∃ a, x = .ok a ∧ f a = .ok b := by
  cases x with
  | error e => simp [bind, Except.bind]
  | ok a => simp [bind, Except.bind]

/-- A computation of two steps fails where the first does, or the second after the first. -/
theorem bind_eq_error {x : Except ε α} {f : α → Except ε β} {e : ε} :
    x >>= f = .error e ↔ x = .error e ∨ ∃ a, x = .ok a ∧ f a = .error e := by
  cases x with
  | error e => simp [bind, Except.bind]
  | ok a => simp [bind, Except.bind]

theorem map_eq_ok {x : Except ε α} {f : α → β} {b : β} :
    x.map f = .ok b ↔ ∃ a, x = .ok a ∧ f a = b := by
  cases x with
  | error e => simp [Except.map]
  | ok a => simp [Except.map]

theorem map_eq_error {x : Except ε α} {f : α → β} {e : ε} :
    x.map f = .error e ↔ x = .error e := by
  cases x with
  | error e => simp [Except.map]
  | ok a => simp [Except.map]

theorem pure_eq_ok {a b : α} : (pure a : Except ε α) = .ok b ↔ a = b := by
  simp [pure, Except.pure]

theorem eq_ok_of_toOption {x : Except ε α} {a : α} (h : x.toOption = some a) : x = .ok a := by
  cases x with
  | error e => cases h
  | ok b => rw [Option.some.inj h]

theorem exists_of_isOk {x : Except ε α} (h : x.isOk = true) : ∃ a, x = .ok a := by
  cases x with
  | error e => cases h
  | ok a => exact ⟨a, rfl⟩

/-- Whether an outcome is an error of some kind. -/
def fails (x : Except ε α) (kind : ε → Bool) : Bool :=
  Except.casesOn x kind fun _ => false

theorem exists_of_fails {x : Except ε α} {kind : ε → Bool} (h : fails x kind = true) :
    ∃ e, kind e = true ∧ x = .error e := by
  cases x with
  | error e => exact ⟨e, h, rfl⟩
  | ok a => cases h

theorem elim_error_eq_ok {o : Option α} {e : ε} {a : α} :
    o.elim (.error e) Except.ok = .ok a ↔ o = some a := by
  cases o <;> simp

theorem mapM_eq_ok {f : α → Except ε β} {l : List α} {bs : List β} :
    l.mapM f = .ok bs ↔ List.Forall₂ (fun a b => f a = .ok b) l bs := by
  induction l generalizing bs with
  | nil => rw [List.mapM_nil, pure_eq_ok, List.forall₂_nil_left_iff, eq_comm]
  | cons a l ih =>
    simp only [List.mapM_cons, bind_eq_ok, pure_eq_ok, ih, List.forall₂_cons_left_iff]
    constructor
    · rintro ⟨b, hb, bs, hbs, rfl⟩
      exact ⟨b, bs, hb, hbs, rfl⟩
    · rintro ⟨b, bs, hb, hbs, rfl⟩
      exact ⟨b, hb, bs, hbs, rfl⟩

/-- Items that are each related to something are related to a list of such things. -/
theorem exists_forall₂ {R : α → β → Prop} {l : List α} (h : ∀ a ∈ l, ∃ b, R a b) :
    ∃ bs, List.Forall₂ R l bs := by
  induction l with
  | nil => exact ⟨[], .nil⟩
  | cons a l ih =>
    obtain ⟨b, hb⟩ := h a List.mem_cons_self
    obtain ⟨bs, hbs⟩ := ih fun a ha => h a (List.mem_cons_of_mem _ ha)
    exact ⟨b :: bs, .cons hb hbs⟩

/-- A computation on all items of a list succeeds where it does on each. -/
theorem exists_mapM_eq_ok {f : α → Except ε β} {l : List α} (h : ∀ a ∈ l, ∃ b, f a = .ok b) :
    ∃ bs, l.mapM f = .ok bs := by
  obtain ⟨bs, hbs⟩ := exists_forall₂ h
  exact ⟨bs, mapM_eq_ok.2 hbs⟩

/-- A computation on all items of a list that is a function where it succeeds. -/
theorem eq_map_of_mapM_eq_ok {f : α → Except ε β} {g : α → β} {l : List α} {bs : List β}
    (h : l.mapM f = .ok bs) (hf : ∀ a b, f a = .ok b → b = g a) : bs = l.map g := by
  induction mapM_eq_ok.1 h with
  | nil => rfl
  | cons hab hrest ih => rw [hf _ _ hab, ih (mapM_eq_ok.2 hrest), List.map_cons]

/-- A relation between the items of two lists, sharpened for those that occur in them. -/
theorem forall₂_imp_of_mem {R S : α → β → Prop} {l : List α} {bs : List β}
    (h : List.Forall₂ R l bs) (himp : ∀ a ∈ l, ∀ b ∈ bs, R a b → S a b) : List.Forall₂ S l bs := by
  induction h with
  | nil => exact .nil
  | cons hab _ ih =>
    exact .cons (himp _ List.mem_cons_self _ List.mem_cons_self hab) (ih fun a ha b hb =>
      himp a (List.mem_cons_of_mem _ ha) b (List.mem_cons_of_mem _ hb))

theorem exists_of_forall₂_right {R : α → β → Prop} {l : List α} {bs : List β}
    (h : List.Forall₂ R l bs) {b : β} (hb : b ∈ bs) : ∃ a ∈ l, R a b := by
  induction h with
  | nil => simp at hb
  | cons hab _ ih =>
    rcases List.mem_cons.1 hb with rfl | hb
    · exact ⟨_, List.mem_cons_self, hab⟩
    · obtain ⟨a, ha, hab⟩ := ih hb
      exact ⟨a, List.mem_cons_of_mem _ ha, hab⟩

/-- Whether a test succeeds with the answer yes. -/
def holds : Except ε Bool → Bool
  | .ok b => b
  | .error _ => false

@[simp] theorem holds_ok (b : Bool) : holds (.ok b : Except ε Bool) = b := rfl

theorem filterAuxM_eq_ok {p : α → Except ε Bool} {l kept r : List α} :
    List.filterAuxM p l kept = .ok r ↔
      (∀ a ∈ l, ∃ b, p a = .ok b) ∧ r = (l.filter fun a => holds (p a)).reverse ++ kept := by
  induction l generalizing kept with
  | nil => simp [List.filterAuxM, pure_eq_ok, @eq_comm _ kept]
  | cons a l ih =>
    simp only [List.filterAuxM, bind_eq_ok, ih, List.mem_cons, forall_eq_or_imp]
    constructor
    · rintro ⟨b, hb, hl, rfl⟩
      refine ⟨⟨⟨b, hb⟩, hl⟩, ?_⟩
      cases b <;> simp [hb]
    · rintro ⟨⟨⟨b, hb⟩, hl⟩, rfl⟩
      refine ⟨b, hb, hl, ?_⟩
      cases b <;> simp [hb]

theorem filterM_eq_ok {p : α → Except ε Bool} {l r : List α} :
    l.filterM p = .ok r ↔
      (∀ a ∈ l, ∃ b, p a = .ok b) ∧ r = l.filter fun a => holds (p a) := by
  simp only [List.filterM, bind_eq_ok, pure_eq_ok, filterAuxM_eq_ok, List.append_nil]
  constructor
  · rintro ⟨_, ⟨hl, rfl⟩, rfl⟩
    exact ⟨hl, List.reverse_reverse _⟩
  · rintro ⟨hl, rfl⟩
    exact ⟨_, ⟨hl, rfl⟩, List.reverse_reverse _⟩

/-- Items marked by a test: every item is tested. -/
theorem mapM_mark_eq_ok {p : α → Except ε Bool} {l : List α} {r : List (Bool × α)} :
    (l.mapM fun a => do return (← p a, a)) = .ok r ↔
      (∀ a ∈ l, ∃ b, p a = .ok b) ∧ r = l.map fun a => (holds (p a), a) := by
  induction l generalizing r with
  | nil =>
    rw [List.mapM_nil, pure_eq_ok]
    simp [eq_comm]
  | cons a l ih =>
    simp only [List.mapM_cons, bind_eq_ok, pure_eq_ok, ih, List.mem_cons, forall_eq_or_imp]
    constructor
    · rintro ⟨_, ⟨b, hb, rfl⟩, _, ⟨hl, rfl⟩, rfl⟩
      exact ⟨⟨⟨b, hb⟩, hl⟩, by simp [hb]⟩
    · rintro ⟨⟨⟨b, hb⟩, hl⟩, rfl⟩
      exact ⟨_, ⟨b, hb, rfl⟩, _, ⟨hl, rfl⟩, by simp [hb]⟩

/-- A test succeeds and answers whether a property holds. -/
def Decides (e : Except ε Bool) (P : Prop) : Prop :=
  ∃ b, e = .ok b ∧ (b = true ↔ P)

namespace Decides

variable {e e' : Except ε Bool} {P Q : Prop}

theorem ok (b : Bool) : Decides (.ok b : Except ε Bool) (b = true) :=
  ⟨b, rfl, Iff.rfl⟩

theorem congr (h : Decides e P) (hPQ : P ↔ Q) : Decides e Q := by
  obtain ⟨b, he, hb⟩ := h
  exact ⟨b, he, hb.trans hPQ⟩

/-- Two tests of equivalent properties answer alike. -/
theorem unique (h : Decides e P) (h' : Decides e' Q) (hPQ : P ↔ Q) : e = e' := by
  obtain ⟨b, rfl, hb⟩ := h
  obtain ⟨b', rfl, hb'⟩ := h'
  rw [Bool.eq_iff_iff.2 (hb.trans (hPQ.trans hb'.symm))]

theorem and (h : Decides e P) (h' : P → Decides e' Q) :
    Decides (do if ← e then e' else return false) (P ∧ Q) := by
  obtain ⟨b, rfl, hb⟩ := h
  cases b with
  | false => exact ⟨false, rfl, by simp [← hb]⟩
  | true =>
    obtain ⟨b', rfl, hb'⟩ := h' (hb.1 rfl)
    exact ⟨b', rfl, by simp [← hb, hb']⟩

theorem or (h : Decides e P) (h' : ¬ P → Decides e' Q) :
    Decides (do if ← e then return true else e') (P ∨ Q) := by
  obtain ⟨b, rfl, hb⟩ := h
  cases b with
  | true => exact ⟨true, rfl, by simp [← hb]⟩
  | false =>
    obtain ⟨b', rfl, hb'⟩ := h' (by simp [← hb])
    exact ⟨b', rfl, by simp [← hb, hb']⟩

theorem not (h : Decides e P) : Decides (do return !(← e)) (¬ P) := by
  obtain ⟨b, rfl, hb⟩ := h
  exact ⟨!b, rfl, by simp [← hb]⟩

theorem anyM {l : List α} {p : α → Except ε Bool} {P : α → Prop}
    (h : ∀ a ∈ l, Decides (p a) (P a)) : Decides (l.anyM p) (∃ a ∈ l, P a) := by
  induction l with
  | nil => exact ⟨false, rfl, by simp⟩
  | cons a l ih =>
    have hrest := ih fun x hx => h x (List.mem_cons_of_mem a hx)
    have hor := (h a List.mem_cons_self).or fun _ => hrest
    simpa only [List.anyM_cons, List.exists_mem_cons_iff] using hor

end Decides

end EntityGraph
