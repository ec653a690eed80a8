import Mathlib.Data.List.Infix
import Mathlib.Data.List.Forall2
import EntityGraph.Store.Pattern

/-!
# What a pattern matches

A text is like a pattern exactly if it can be cut into consecutive pieces, one for each character of
the pattern.

* `Pattern.Takes` says which pieces a character of a pattern takes, and `Pattern.Cuts` that a text
  can be cut along a pattern;
* `Pattern.cuts_append` cuts along two patterns one after the other, and `Pattern.Verbatim.cuts_iff`
  along a text without wildcards;
* `Pattern.accepts_iff_cuts` says that the matching finds a cut if there is one;
* `isLike_cuts` is the result.
-/

namespace EntityGraph

namespace Pattern

/-- A character of a pattern takes a piece of a text: a percent sign any piece, an underscore any
single character, and another character itself. -/
inductive Takes : Char → List Char → Prop where
  | run (piece : List Char) : Takes '%' piece
  | single (c : Char) : Takes '_' [c]
  | self {p : Char} (hrun : p ≠ '%') (hsingle : p ≠ '_') : Takes p [p]

/-- A text can be cut into consecutive pieces, one for each character of a pattern, which the
character takes. -/
def Cuts (pattern s : List Char) : Prop :=
  ∃ pieces, List.Forall₂ Takes pattern pieces ∧ pieces.flatten = s

/-- A text that holds no wildcard. -/
def Verbatim (t : List Char) : Prop :=
  '%' ∉ t ∧ '_' ∉ t

instance (t : List Char) : Decidable (Verbatim t) :=
  inferInstanceAs (Decidable (_ ∧ _))

variable {p q s t : List Char} {c : Char}

theorem takes_run_iff {piece : List Char} : Takes '%' piece ↔ True :=
  iff_true_intro (.run piece)

theorem takes_single_iff {piece : List Char} : Takes '_' piece ↔ ∃ c, piece = [c] := by
  constructor
  · intro h
    cases h with
    | single c => exact ⟨c, rfl⟩
    | self _ hsingle => exact absurd rfl hsingle
  · rintro ⟨c, rfl⟩
    exact .single c

theorem takes_self_iff {piece : List Char} (hrun : c ≠ '%') (hsingle : c ≠ '_') :
    Takes c piece ↔ piece = [c] := by
  constructor
  · intro h
    cases h with
    | run => exact absurd rfl hrun
    | single => exact absurd rfl hsingle
    | self => rfl
  · rintro rfl
    exact .self hrun hsingle

@[simp] theorem cuts_nil : Cuts [] s ↔ s = [] := by
  simp [Cuts, eq_comm]

theorem cuts_cons : Cuts (c :: p) s ↔
    ∃ piece rest, Takes c piece ∧ Cuts p rest ∧ piece ++ rest = s := by
  constructor
  · rintro ⟨_, h, rfl⟩
    cases h with
    | cons hpiece hrest => exact ⟨_, _, hpiece, ⟨_, hrest, rfl⟩, rfl⟩
  · rintro ⟨piece, _, hpiece, ⟨pieces, hrest, rfl⟩, rfl⟩
    exact ⟨piece :: pieces, .cons hpiece hrest, rfl⟩

/-- A text is cut along two patterns at some place between what the first and the second take. -/
theorem cuts_append : Cuts (p ++ q) s ↔ ∃ a b, Cuts p a ∧ Cuts q b ∧ a ++ b = s := by
  induction p generalizing s with
  | nil => simp
  | cons c p ih =>
    simp only [List.cons_append, cuts_cons, ih]
    constructor
    · rintro ⟨piece, _, hpiece, ⟨a, b, ha, hb, rfl⟩, rfl⟩
      exact ⟨piece ++ a, b, ⟨piece, a, hpiece, ha, rfl⟩, hb, List.append_assoc ..⟩
    · rintro ⟨_, b, ⟨piece, a, hpiece, ha, rfl⟩, hb, rfl⟩
      exact ⟨piece, a ++ b, hpiece, ⟨a, b, ha, hb, rfl⟩, (List.append_assoc ..).symm⟩

/-- A run of percent signs takes every text, as one of them does. -/
theorem cuts_replicate (n : Nat) (s : List Char) : Cuts (List.replicate (n + 1) '%') s := by
  induction n generalizing s with
  | zero => exact cuts_cons.2 ⟨s, [], .run s, cuts_nil.2 rfl, List.append_nil s⟩
  | succ n ih => exact cuts_cons.2 ⟨[], s, .run [], ih s, rfl⟩

theorem cuts_run (s : List Char) : Cuts ['%'] s :=
  cuts_replicate 0 s

/-- A text without wildcards takes itself and nothing else. -/
theorem Verbatim.cuts_iff (h : Verbatim t) : Cuts t s ↔ s = t := by
  induction t generalizing s with
  | nil => exact cuts_nil
  | cons c t ih =>
    simp only [Verbatim, List.mem_cons, not_or] at h
    obtain ⟨⟨hrun, htrun⟩, hsingle, htsingle⟩ := h
    simp only [cuts_cons, takes_self_iff (Ne.symm hrun) (Ne.symm hsingle), ih ⟨htrun, htsingle⟩]
    constructor
    · rintro ⟨_, _, rfl, rfl, rfl⟩
      rfl
    · rintro rfl
      exact ⟨[c], t, rfl, rfl, rfl⟩

section Accepts

theorem suffixes_eq_tails (s : List Char) : suffixes s = s.tails := by
  induction s with
  | nil => rfl
  | cons c s ih => rw [suffixes, ih, List.tails_cons]

theorem consume_eq_true {ok : Char → Bool} {rest : List Char → Bool} :
    consume ok rest s = true ↔ ∃ c s', s = c :: s' ∧ ok c = true ∧ rest s' = true := by
  cases s with
  | nil => simp [consume]
  | cons c s => simp [consume]

/-- Matching takes a piece for the first character of the pattern and goes on with the rest. -/
theorem accepts_cons : accepts (c :: p) s = true ↔
    ∃ piece rest, Takes c piece ∧ accepts p rest = true ∧ piece ++ rest = s := by
  rw [accepts]
  split_ifs with hrun hsingle
  · subst hrun
    simp only [suffixes_eq_tails, List.any_eq_true, List.mem_tails, takes_run_iff, true_and]
    constructor
    · rintro ⟨rest, ⟨piece, rfl⟩, hrest⟩
      exact ⟨piece, rest, hrest, rfl⟩
    · rintro ⟨piece, rest, hrest, rfl⟩
      exact ⟨rest, ⟨piece, rfl⟩, hrest⟩
  · subst hsingle
    simp only [consume_eq_true, takes_single_iff]
    constructor
    · rintro ⟨c, rest, rfl, -, hrest⟩
      exact ⟨[c], rest, ⟨c, rfl⟩, hrest, rfl⟩
    · rintro ⟨_, rest, ⟨c, rfl⟩, hrest, rfl⟩
      exact ⟨c, rest, rfl, trivial, hrest⟩
  · simp only [consume_eq_true, takes_self_iff hrun hsingle, beq_iff_eq]
    constructor
    · rintro ⟨_, rest, rfl, rfl, hrest⟩
      exact ⟨_, rest, rfl, hrest, rfl⟩
    · rintro ⟨_, rest, rfl, hrest, rfl⟩
      exact ⟨c, rest, rfl, rfl, hrest⟩

/-- The matching finds a cut exactly if there is one. -/
theorem accepts_iff_cuts : accepts p s = true ↔ Cuts p s := by
  induction p generalizing s with
  | nil => rw [accepts, List.isEmpty_iff, cuts_nil]
  | cons c p ih => simp only [accepts_cons, cuts_cons, ih]

end Accepts

end Pattern

open Pattern

theorem isLike_iff_cuts {s pattern : String} :
    isLike s pattern = true ↔ Cuts pattern.toList s.toList :=
  accepts_iff_cuts

/-- Patterns which cut the same texts match the same ones. -/
theorem isLike_congr {s pattern pattern' : String}
    (h : Cuts pattern.toList s.toList ↔ Cuts pattern'.toList s.toList) :
    isLike s pattern = isLike s pattern' := by
  rw [Bool.eq_iff_iff, isLike_iff_cuts, isLike_iff_cuts, h]

/-- A text is like a pattern exactly if it can be cut into consecutive pieces, one for each
character of the pattern, which the character takes. So one percent sign does what a run of them
does, and a text without wildcards, alone or with a percent sign behind it, in front of it or
around it, is a pattern for the text itself and for what starts with it, ends in it or holds it. -/
theorem isLike_cuts :
    (∀ s pattern : String, isLike s pattern = true ↔ Cuts pattern.toList s.toList) ∧
    (∀ (s before after : String) (n : Nat),
      isLike s (before ++ String.ofList (List.replicate (n + 1) '%') ++ after)
        = isLike s (before ++ "%" ++ after)) ∧
    ∀ s t : String, Verbatim t.toList →
      (isLike s t = true ↔ s = t) ∧
      (isLike s (t ++ "%") = true ↔ t.toList <+: s.toList) ∧
      (isLike s ("%" ++ t) = true ↔ t.toList <:+ s.toList) ∧
      (isLike s ("%" ++ t ++ "%") = true ↔ t.toList <:+: s.toList) := by
  have hsign : "%".toList = ['%'] := rfl
  refine ⟨fun s pattern => isLike_iff_cuts, fun s before after n => isLike_congr ?_, ?_⟩
  · simp only [String.toList_append, String.toList_ofList, hsign, cuts_append, cuts_replicate,
      cuts_run]
  · intro s t ht
    simp only [isLike_iff_cuts, String.toList_append, hsign, cuts_append, ht.cuts_iff, cuts_run]
    refine ⟨String.toList_inj, ?_, ?_, ?_⟩
    · constructor
      · rintro ⟨_, b, rfl, -, hs⟩
        exact ⟨b, hs⟩
      · rintro ⟨b, hs⟩
        exact ⟨_, b, rfl, trivial, hs⟩
    · constructor
      · rintro ⟨a, _, -, rfl, hs⟩
        exact ⟨a, hs⟩
      · rintro ⟨a, hs⟩
        exact ⟨a, _, trivial, rfl, hs⟩
    · constructor
      · rintro ⟨_, b, ⟨a, _, -, rfl, rfl⟩, -, hs⟩
        exact ⟨a, b, hs⟩
      · rintro ⟨a, b, hs⟩
        exact ⟨_, b, ⟨a, _, trivial, rfl, rfl⟩, trivial, hs⟩

/-- A title that ends in a word. -/
theorem isLike_cuts_heaven : Verbatim "Heaven".toList ∧
    isLike "Lathe of Heaven" "%Heaven" = true ∧ isLike "Lathe of Heaven" "Heaven%" = false := by
  have hverbatim : Verbatim "Heaven".toList := by decide
  obtain ⟨-, hstarts, hends, -⟩ := isLike_cuts.2.2 "Lathe of Heaven" "Heaven" hverbatim
  refine ⟨hverbatim, hends.2 ⟨"Lathe of ".toList, rfl⟩, ?_⟩
  rw [Bool.eq_false_iff]
  exact fun h => absurd (hstarts.1 h) (by decide)

end EntityGraph
