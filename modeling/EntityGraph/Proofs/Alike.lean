import EntityGraph.Proofs.Outcome

/-!
# Outcomes that are alike

Two computations that run beside each other: both fail with the same error, or both succeed with
values that are related.

* `Alike R` relates such outcomes;
* `Alike.bind` and its siblings say that steps keep them alike, one after the other or over two
  lists of related items.
-/

namespace EntityGraph

variable {ε α β γ δ : Type} {R : α → β → Prop} {S : γ → δ → Prop}

/-- Two outcomes with one error, or with related values. -/
inductive Alike (R : α → β → Prop) : Except ε α → Except ε β → Prop where
  | error (e : ε) : Alike R (.error e) (.error e)
  | ok {a : α} {b : β} : R a b → Alike R (.ok a) (.ok b)

namespace Alike

theorem refl {x : Except ε α} : Alike Eq x x := by
  cases x with
  | error e => exact .error e
  | ok a => exact .ok rfl

theorem eq {x y : Except ε α} (h : Alike Eq x y) : x = y := by
  cases h with
  | error e => rfl
  | ok h => rw [h]

theorem bind {x : Except ε α} {y : Except ε β} {f : α → Except ε γ} {g : β → Except ε δ}
    (h : Alike R x y) (hfg : ∀ a b, R a b → Alike S (f a) (g b)) : Alike S (x >>= f) (y >>= g) := by
  cases h with
  | error e => exact .error e
  | ok h => exact hfg _ _ h

theorem map {x : Except ε α} {y : Except ε β} {f : α → γ} {g : β → δ} (h : Alike R x y)
    (hfg : ∀ a b, R a b → S (f a) (g b)) : Alike S (x.map f) (y.map g) := by
  cases h with
  | error e => exact .error e
  | ok h => exact .ok (hfg _ _ h)

theorem mapM {f : α → Except ε γ} {g : β → Except ε δ} {l : List α} {l' : List β}
    (h : List.Forall₂ R l l') (hfg : ∀ a b, R a b → Alike S (f a) (g b)) :
    Alike (List.Forall₂ S) (l.mapM f) (l'.mapM g) := by
  induction h with
  | nil => exact .ok .nil
  | cons hab _ ih =>
    rw [List.mapM_cons, List.mapM_cons]
    exact (hfg _ _ hab).bind fun c d hcd => ih.bind fun cs ds hcds => .ok (.cons hcd hcds)

theorem filterM {p : α → Except ε Bool} {q : β → Except ε Bool} {l : List α} {l' : List β}
    (h : List.Forall₂ R l l') (hpq : ∀ a b, R a b → p a = q b) :
    Alike (List.Forall₂ R) (l.filterM p) (l'.filterM q) := by
  have haux : ∀ kept kept', List.Forall₂ R kept kept' →
      Alike (List.Forall₂ R) (l.filterAuxM p kept) (l'.filterAuxM q kept') := by
    induction h with
    | nil => exact fun kept kept' hkept => .ok hkept
    | @cons a b l l' hab _ ih =>
      intro kept kept' hkept
      simp only [List.filterAuxM, hpq a b hab]
      refine (refl (x := q b)).bind fun answer _ heq => ?_
      subst heq
      cases answer with
      | false => exact ih _ _ hkept
      | true => exact ih _ _ (.cons hab hkept)
  exact (haux [] [] .nil).bind fun _ _ hkept => .ok (List.forall₂_reverse_iff.2 hkept)

theorem anyM {p : α → Except ε Bool} {q : β → Except ε Bool} {l : List α} {l' : List β}
    (h : List.Forall₂ R l l') (hpq : ∀ a b, R a b → p a = q b) : l.anyM p = l'.anyM q := by
  induction h with
  | nil => rfl
  | cons hab _ ih => rw [List.anyM_cons, List.anyM_cons, hpq _ _ hab, ih]

end Alike

end EntityGraph
