import Mathlib.Data.List.Basic
import Mathlib.Data.List.Chain
import EntityGraph.Store.Select

/-!
# Sorted selections

A sorted list is a permutation of the list, and of two neighbours in it the second does not precede
the first (`Select.isChain_stableSort`). Where the comparison is consistent on the items, as that of
one column is whose data are null or of one kind, and numbers where they are of floating point
(`Select.ranks_keys`), no item precedes one before it (`Select.pairwise_stableSort`). Sorting is
then stable, so it commutes with taking part of the items: the sorted part of a list is the part of
the sorted list (`Select.filter_stableSort`).
-/

namespace EntityGraph

namespace Select

variable {α β : Type} {less : α → α → Bool} {a : α} {sorted l : List α}

/-- A comparison is consistent on the items of a list: no two precede each other, and what precedes
one item precedes it or any other item. -/
structure Ranks (less : α → α → Bool) (l : List α) : Prop where
  asymm : ∀ a ∈ l, ∀ b ∈ l, less a b = true → less b a = false
  trans : ∀ a ∈ l, ∀ b ∈ l, ∀ c ∈ l, less a b = false → less b c = false → less a c = false

theorem Ranks.of_subset {l' : List α} (h : Ranks less l) (hsub : ∀ x ∈ l', x ∈ l) :
    Ranks less l' where
  asymm a ha b hb := h.asymm a (hsub a ha) b (hsub b hb)
  trans a ha b hb c hc := h.trans a (hsub a ha) b (hsub b hb) c (hsub c hc)

@[simp] theorem insertLast_nil : insertLast less a [] = [a] := rfl

theorem insertLast_cons (b : α) (rest : List α) : insertLast less a (b :: rest)
    = if less a b then b :: insertLast less a rest else a :: b :: rest := rfl

theorem perm_insertLast (a : α) (sorted : List α) :
    (insertLast less a sorted).Perm (a :: sorted) := by
  induction sorted with
  | nil => rfl
  | cons b rest ih =>
    rw [insertLast_cons]
    split_ifs
    · exact (ih.cons b).trans (List.Perm.swap a b rest)
    · rfl

theorem perm_stableSort (less : α → α → Bool) (l : List α) : (stableSort less l).Perm l := by
  have hfold : ∀ sorted : List α,
      (l.foldl (fun sorted a => insertLast less a sorted) sorted).Perm (sorted ++ l) := by
    induction l with
    | nil => simp
    | cons a l ih =>
      intro sorted
      rw [List.foldl_cons]
      refine (ih _).trans (((perm_insertLast a sorted).append_right l).trans ?_)
      exact List.perm_middle.symm
  exact (List.reverse_perm _).trans (hfold [])

theorem mem_insertLast {x : α} : x ∈ insertLast less a sorted ↔ x = a ∨ x ∈ sorted := by
  rw [(perm_insertLast a sorted).mem_iff, List.mem_cons]

/-- No item of a list precedes one behind it. -/
def Descending (less : α → α → Bool) (l : List α) : Prop :=
  l.Pairwise fun x y => less x y = false

theorem descending_insertLast (h : Ranks less (a :: sorted)) (hs : Descending less sorted) :
    Descending less (insertLast less a sorted) := by
  induction sorted with
  | nil => exact List.pairwise_singleton _ a
  | cons b rest ih =>
    obtain ⟨hb, hrest⟩ := List.pairwise_cons.1 hs
    rw [insertLast_cons]
    split_ifs with hab
    · refine List.pairwise_cons.2 ⟨fun x hx => ?_, ih (h.of_subset ?_) hrest⟩
      · rcases mem_insertLast.1 hx with rfl | hx
        · exact h.asymm x (by simp) b (by simp) hab
        · exact hb x hx
      · intro x hx
        rcases List.mem_cons.1 hx with rfl | hx
        · exact List.mem_cons_self
        · exact List.mem_cons_of_mem _ (List.mem_cons_of_mem _ hx)
    · have hab : less a b = false := by simpa using hab
      refine List.pairwise_cons.2 ⟨fun x hx => ?_, hs⟩
      rcases List.mem_cons.1 hx with rfl | hx
      · exact hab
      · exact h.trans a (by simp) b (by simp) x (by simp [hx]) hab (hb x hx)

/-- An item that no item of a list follows goes to the front. -/
theorem insertLast_of_forall (h : ∀ b ∈ sorted, less a b = false) :
    insertLast less a sorted = a :: sorted := by
  cases sorted with
  | nil => rfl
  | cons b rest => simp [insertLast_cons, h b List.mem_cons_self]

theorem filter_insertLast (h : Ranks less (a :: sorted)) (hs : Descending less sorted)
    (keep : α → Bool) : (insertLast less a sorted).filter keep
      = if keep a then insertLast less a (sorted.filter keep) else sorted.filter keep := by
  induction sorted with
  | nil =>
    rw [insertLast_nil, List.filter_cons, List.filter_nil]
    rfl
  | cons b rest ih =>
    obtain ⟨hb, hrest⟩ := List.pairwise_cons.1 hs
    have hih := ih (h.of_subset fun x hx => by
      rcases List.mem_cons.1 hx with rfl | hx
      · exact List.mem_cons_self
      · exact List.mem_cons_of_mem _ (List.mem_cons_of_mem _ hx)) hrest
    rw [insertLast_cons]
    split_ifs with hab hkeep hkeep
    · rw [List.filter_cons, hih, if_pos hkeep, List.filter_cons]
      split_ifs with hkeepb
      · rw [insertLast_cons, if_pos hab]
      · rfl
    · rw [List.filter_cons, hih, if_neg hkeep, List.filter_cons]
    · have hab : less a b = false := by simpa using hab
      rw [List.filter_cons_of_pos hkeep, insertLast_of_forall]
      intro x hx
      rcases List.mem_cons.1 (List.mem_of_mem_filter hx) with rfl | hx
      · exact hab
      · exact h.trans a (by simp) b (by simp) x (by simp [hx]) hab (hb x hx)
    · rw [List.filter_cons_of_neg hkeep]

/-- The sorted part of a list is the part of the sorted list. -/
theorem filter_stableSort (h : Ranks less l) (keep : α → Bool) :
    (stableSort less l).filter keep = stableSort less (l.filter keep) := by
  suffices hfold : ∀ sorted, Ranks less (sorted ++ l) → Descending less sorted →
      (l.foldl (fun sorted a => insertLast less a sorted) sorted).filter keep
        = (l.filter keep).foldl (fun sorted a => insertLast less a sorted) (sorted.filter keep) by
    rw [stableSort, List.filter_reverse, hfold [] (by simpa using h) List.Pairwise.nil]
    rfl
  clear h
  induction l with
  | nil => simp
  | cons a l ih =>
    intro sorted h hs
    have ha : Ranks less (a :: sorted) := h.of_subset fun x hx => by
      rcases List.mem_cons.1 hx with rfl | hx <;> simp_all
    rw [List.foldl_cons, ih _ _ (descending_insertLast ha hs), filter_insertLast ha hs,
      List.filter_cons]
    · split_ifs <;> rfl
    · refine h.of_subset fun x hx => ?_
      rcases List.mem_append.1 hx with hx | hx
      · rcases mem_insertLast.1 hx with rfl | hx <;> simp_all
      · simp [hx]

/-- Sorting sees nothing of an item but how it compares. -/
theorem map_stableSort {less' : β → β → Bool} {f : α → β}
    (h : ∀ a b, less' (f a) (f b) = less a b) (l : List α) :
    (stableSort less l).map f = stableSort less' (l.map f) := by
  have hinsert : ∀ a sorted,
      (insertLast less a sorted).map f = insertLast less' (f a) (sorted.map f) := by
    intro a sorted
    induction sorted with
    | nil => rfl
    | cons b rest ih =>
      rw [List.map_cons, insertLast_cons, insertLast_cons, h a b]
      split_ifs
      · rw [List.map_cons, ih]
      · rfl
  have hfold : ∀ sorted, (l.foldl (fun sorted a => insertLast less a sorted) sorted).map f
      = (l.map f).foldl (fun sorted b => insertLast less' b sorted) (sorted.map f) := by
    induction l with
    | nil => simp
    | cons a l ih =>
      intro sorted
      rw [List.foldl_cons, ih, hinsert, List.map_cons, List.foldl_cons]
  rw [stableSort, List.map_reverse, hfold []]
  rfl

theorem mem_stableSort {x : α} : x ∈ stableSort less l ↔ x ∈ l :=
  (perm_stableSort less l).mem_iff

theorem isChain_insertLast (hasymm : ∀ a b, less a b = true → less b a = false)
    (hs : sorted.IsChain fun x y => less x y = false) :
    (insertLast less a sorted).IsChain fun x y => less x y = false := by
  induction sorted with
  | nil => exact List.isChain_singleton a
  | cons b rest ih =>
    rw [insertLast_cons]
    split_ifs with hab
    · refine (ih hs.tail).cons fun y hy => ?_
      cases rest with
      | nil =>
        obtain rfl : a = y := Option.some.inj hy
        exact hasymm a b hab
      | cons c rest =>
        rw [insertLast_cons] at hy
        split_ifs at hy
        · obtain rfl : c = y := Option.some.inj hy
          exact hs.rel_head? rfl
        · obtain rfl : a = y := Option.some.inj hy
          exact hasymm a b hab
    · refine hs.cons fun y hy => ?_
      obtain rfl : b = y := Option.some.inj hy
      simpa using hab

/-- Of two neighbours in a sorted list the second does not precede the first. -/
theorem isChain_stableSort (hasymm : ∀ a b, less a b = true → less b a = false) (l : List α) :
    (stableSort less l).IsChain fun x y => less y x = false := by
  have hfold : ∀ sorted : List α, (sorted.IsChain fun x y => less x y = false) →
      (l.foldl (fun sorted a => insertLast less a sorted) sorted).IsChain
        fun x y => less x y = false := by
    induction l with
    | nil => exact fun sorted hs => hs
    | cons a l ih => exact fun sorted hs => ih _ (isChain_insertLast hasymm hs)
  exact List.isChain_reverse.2 (hfold [] List.isChain_nil)

/-- Where the comparison is consistent, no item of a sorted list precedes one before it. -/
theorem pairwise_stableSort (h : Ranks less l) :
    (stableSort less l).Pairwise fun x y => less y x = false := by
  have hfold : ∀ sorted, Ranks less (sorted ++ l) → Descending less sorted →
      Descending less (l.foldl (fun sorted a => insertLast less a sorted) sorted) := by
    clear h
    induction l with
    | nil => exact fun sorted _ hs => hs
    | cons a l ih =>
      intro sorted h hs
      have ha : Ranks less (a :: sorted) := h.of_subset fun x hx => by
        rcases List.mem_cons.1 hx with rfl | hx <;> simp_all
      refine ih _ (h.of_subset fun x hx => ?_) (descending_insertLast ha hs)
      rcases List.mem_append.1 hx with hx | hx
      · rcases mem_insertLast.1 hx with rfl | hx <;> simp_all
      · simp [hx]
  exact List.pairwise_reverse.2 (hfold [] (by simpa using h) List.Pairwise.nil)

end Select

namespace Datum

/-- A datum of a kind, or null. -/
def OfKind (kind : String) (d : Datum) : Prop :=
  d.isNull = true ∨ d.kindName = kind

/-- A datum that is sorted among those of a kind: null or one of the kind, and if that is the kind
of floating point numbers, a number. -/
structure SortsAs (kind : String) (d : Datum) : Prop where
  ofKind : d.OfKind kind
  number : ∀ x, d = .float x → x.isNaN = false

theorem OfKind.sortsAs {kind : String} {d : Datum} (h : d.OfKind kind) (hkind : kind ≠ "float") :
    d.SortsAs kind := by
  refine ⟨h, fun x hx => ?_⟩
  subst hx
  rcases h with h | h
  · cases h
  · exact absurd h.symm hkind

/-- The string of a text. -/
def text? : Datum → Option String
  | .text s => some s
  | _ => none

/-- The truth value of a datum. -/
def bool? : Datum → Option Bool
  | .bool b => some b
  | _ => none

/-- The place of a floating point number. -/
def rank? : Datum → Option Int
  | .float x => x.rank?
  | _ => none

/-- The moment of a timestamp. -/
def timestamp? : Datum → Option Timestamp
  | .timestamp t => some t
  | _ => none

/-- What is sorted of a list: that it is one. -/
def list? : Datum → Option Unit
  | .list _ => some ()
  | _ => none

theorem timestamp_transCmp : Std.TransCmp Timestamp.compare := by
  have h : Timestamp.compare = compareLex
      (compareLex (compareOn fun t : Timestamp => t.date.year)
        (compareLex (compareOn fun t => t.date.month) (compareOn fun t => t.date.day)))
      (compareLex (compareOn fun t => t.time.hour)
        (compareLex (compareOn fun t => t.time.minute) (compareOn fun t => t.time.second))) := rfl
  rw [h]
  infer_instance

theorem compare?_swap (a b : Datum) : (a.compare? b).map Ordering.swap = b.compare? a := by
  have hfloat : ∀ x y : Binary64, (x.compare? y).map Ordering.swap = y.compare? x := by
    intro x y
    unfold Binary64.compare?
    cases x.rank? <;> cases y.rank? <;> simp [Int.compare_swap]
  cases a <;> cases b
  case int.int i j => exact congrArg some (Int.compare_swap i.toInt j.toInt)
  case bool.bool i j => exact congrArg some Std.OrientedOrd.eq_swap.symm
  case text.text i j => exact congrArg some Std.OrientedOrd.eq_swap.symm
  case timestamp.timestamp i j =>
    have := timestamp_transCmp
    have hswap : Timestamp.compare j i = (Timestamp.compare i j).swap := Std.OrientedCmp.eq_swap
    exact congrArg some hswap.symm
  case int.float i x => exact hfloat _ x
  case float.int x i => exact hfloat x _
  case float.float x y => exact hfloat x y
  all_goals rfl

theorem sortCompare_swap (a b : Datum) : (a.sortCompare b).swap = b.sortCompare a := by
  unfold sortCompare
  rw [← compare?_swap a b]
  cases a.isNull <;> cases b.isNull <;> cases a.compare? b <;> rfl

theorem equals_comm (a b : Datum) : a.equals b = b.equals a := by
  unfold equals
  rw [← compare?_swap a b, Bool.and_comm (!a.isNull)]
  congr 1
  match a.compare? b with
  | none => rfl
  | some .lt => rfl
  | some .eq => rfl
  | some .gt => rfl

/-- Data that are sorted among those of one kind are sorted by keys of one type. -/
theorem exists_sortKey (kind : String) :
    ∃ (α : Type) (_ : Ord α) (_ : Std.TransOrd α) (key : Datum → Option α), ∀ a b : Datum,
      a.SortsAs kind → b.SortsAs kind → a.sortCompare b = compare (key a) (key b) := by
  by_cases hint : kind = "int"
  · refine ⟨Int, inferInstance, inferInstance, fun d => d.int?.map Int64.toInt, ?_⟩
    rintro a b ⟨ha, -⟩ ⟨hb, -⟩
    cases a <;> cases b <;> simp_all [OfKind, isNull, kindName] <;> rfl
  by_cases htext : kind = "text"
  · refine ⟨String, inferInstance, inferInstance, text?, ?_⟩
    rintro a b ⟨ha, -⟩ ⟨hb, -⟩
    cases a <;> cases b <;> simp_all [OfKind, isNull, kindName] <;> rfl
  by_cases hbool : kind = "bool"
  · refine ⟨Bool, inferInstance, inferInstance, bool?, ?_⟩
    rintro a b ⟨ha, -⟩ ⟨hb, -⟩
    cases a <;> cases b <;> simp_all [OfKind, isNull, kindName] <;> rfl
  by_cases htime : kind = "timestamp"
  · refine ⟨Timestamp, ⟨Timestamp.compare⟩, timestamp_transCmp, timestamp?, ?_⟩
    rintro a b ⟨ha, -⟩ ⟨hb, -⟩
    cases a <;> cases b <;> simp_all [OfKind, isNull, kindName] <;> rfl
  by_cases hfloat : kind = "float"
  · refine ⟨Int, inferInstance, inferInstance, rank?, ?_⟩
    -- a number has a rank, so only null goes without a key
    have hrank : ∀ x : Binary64, x.isNaN = false → ∃ i, x.rank? = some i := by
      intro x hx
      rw [Binary64.rank?, hx]
      cases x.isNegative <;> exact ⟨_, rfl⟩
    intro a b ha hb
    obtain ⟨hakind, hanumber⟩ := ha
    obtain ⟨hbkind, hbnumber⟩ := hb
    cases a <;> cases b <;> simp_all [OfKind, isNull, kindName]
    case null.null => rfl
    case null.float x =>
      obtain ⟨i, hi⟩ := hrank x hbnumber
      simp [rank?, hi]
      rfl
    case float.null x =>
      obtain ⟨i, hi⟩ := hrank x hanumber
      simp [rank?, hi]
      rfl
    case float.float x y =>
      obtain ⟨i, hi⟩ := hrank x hanumber
      obtain ⟨j, hj⟩ := hrank y hbnumber
      simp [rank?, hi, hj, sortCompare, isNull, compare?, Binary64.compare?]
      rfl
  · -- only null and lists are left, and lists tie
    refine ⟨Unit, ⟨fun _ _ => .eq⟩, ?_, list?, ?_⟩
    · exact { eq_swap := rfl, isLE_trans := fun _ _ => rfl }
    · rintro a b ⟨ha, -⟩ ⟨hb, -⟩
      cases a <;> cases b <;> simp_all [OfKind, isNull, kindName] <;> rfl

end Datum

namespace Select

variable {α : Type}

theorem orient_transCmp {β : Type} {compare : β → β → Ordering} [Std.TransCmp compare]
    (direction : Direction) : Std.TransCmp fun x y => direction.orient (compare x y) := by
  cases direction with
  | asc => exact inferInstanceAs (Std.TransCmp compare)
  | desc =>
    have hswap : (fun x y => Direction.desc.orient (compare x y)) = fun x y => compare y x := by
      funext x y
      have heq : compare y x = (compare x y).swap := Std.OrientedCmp.eq_swap
      exact heq.symm
    rw [hswap]
    infer_instance

/-- Rows are sorted consistently by at most one column whose data are sorted as one kind. -/
theorem ranks_keys {order : List OrderTerm} {l : List (List Datum × α)} (hlength : order.length ≤ 1)
    (hkind : ∀ term ∈ order, ∃ kind, ∀ x ∈ l, ∃ d : Datum, x.1 = [d] ∧ d.SortsAs kind) :
    Ranks (fun a b => compareKeys order a.1 b.1 == .lt) l := by
  match order, hlength with
  | [], _ => exact ⟨fun _ _ _ _ h => by simp [compareKeys] at h, fun _ _ _ _ _ _ _ _ => rfl⟩
  | [term], _ =>
    obtain ⟨kind, hl⟩ := hkind term List.mem_cons_self
    obtain ⟨β, _, _, key, hkey⟩ := Datum.exists_sortKey kind
    have htrans : Std.TransCmp fun x y : Option β => term.direction.orient (compare x y) :=
      orient_transCmp term.direction
    obtain ⟨compared, hcompared, _⟩ : ∃ compared : Option β → Option β → Ordering,
        (∀ x y, term.direction.orient (compare x y) = compared x y) ∧ Std.TransCmp compared :=
      ⟨_, fun _ _ => rfl, htrans⟩
    -- on these items the comparison is that of the keys
    have hless : ∀ a ∈ l, ∀ b ∈ l, compareKeys [term] a.1 b.1
        = compared (key (a.1.headD .null)) (key (b.1.headD .null)) := by
      intro a ha b hb
      obtain ⟨x, hax, hx⟩ := hl a ha
      obtain ⟨y, hby, hy⟩ := hl b hb
      rw [hax, hby, ← hcompared]
      simp [compareKeys, hkey x y hx hy]
    refine ⟨fun a ha b hb h => ?_, fun a ha b hb c hc hab hbc => ?_⟩
    · rw [beq_iff_eq, hless a ha b hb] at h
      rw [beq_eq_false_iff_ne, hless b hb a ha]
      exact Std.OrientedCmp.not_lt_of_lt h
    · rw [beq_eq_false_iff_ne, hless a ha b hb, ne_eq, Ordering.ne_lt_iff_isGE] at hab
      rw [beq_eq_false_iff_ne, hless b hb c hc, ne_eq, Ordering.ne_lt_iff_isGE] at hbc
      rw [beq_eq_false_iff_ne, hless a ha c hc, ne_eq, Ordering.ne_lt_iff_isGE]
      exact Std.TransCmp.isGE_trans hab hbc

end Select

end EntityGraph
