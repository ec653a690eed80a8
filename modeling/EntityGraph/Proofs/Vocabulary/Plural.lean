import Mathlib.Data.List.Infix
import Mathlib.Data.List.Nodup
import Mathlib.Data.String.Basic
import EntityGraph.Vocabulary.Names

/-!
# Irregular words in every order

The irregular words of German are a map, and the first of its entries that fits a name decides the
plural. Where entries fit that give different plurals, the plural hangs on the order in which the
entries come.

* `Plural.Inflects` says which plural an entry gives a name, and `Plural.byException_eq_some` that it
  is looked up so;
* `Plural.inflects_unique` says when no two entries fit one name;
* `Plural.mayTake_iff` says which plurals some order gives, and `Plural.german_perm_iff` when all
  orders give one;
* `Vocabulary.plural_orders` says which plurals a name takes in the orders of the entries, and when
  it is one.
-/

namespace EntityGraph

namespace Plural

variable {s a b word singular plural result : List Char} {n : Nat}

section Bytes

@[simp] theorem byteCount_nil : byteCount [] = 0 := rfl

theorem foldl_utf8Size (s : List Char) (n : Nat) :
    s.foldl (fun n c => n + c.utf8Size) n = n + byteCount s := by
  induction s generalizing n with
  | nil => rfl
  | cons c s ih =>
    rw [byteCount, List.foldl_cons, List.foldl_cons, ih, ih (0 + _), Nat.zero_add, Nat.add_assoc]

@[simp] theorem byteCount_cons (c : Char) (s : List Char) :
    byteCount (c :: s) = c.utf8Size + byteCount s := by
  rw [byteCount, List.foldl_cons, foldl_utf8Size, Nat.zero_add]

@[simp] theorem byteCount_append (a b : List Char) :
    byteCount (a ++ b) = byteCount a + byteCount b := by
  rw [byteCount, List.foldl_append, foldl_utf8Size]
  rfl

theorem byteCount_eq_zero : byteCount s = 0 ↔ s = [] := by
  cases s with
  | nil => simp
  | cons c s =>
    have hpos := c.utf8Size_pos
    simp only [byteCount_cons, reduceCtorEq, iff_false]
    omega

/-- Two ends of a text with as many bytes are the same. -/
theorem eq_of_suffix (ha : a <:+ s) (hb : b <:+ s) (hbytes : byteCount a = byteCount b) :
    a = b := by
  have hlonger : ∀ {a b : List Char}, a <:+ b → byteCount a = byteCount b → a = b := by
    rintro a _ ⟨front, rfl⟩ hbytes
    rw [byteCount_append] at hbytes
    rw [byteCount_eq_zero.1 (by omega : byteCount front = 0), List.nil_append]
  rcases List.suffix_or_suffix_of_suffix ha hb with h | h
  · exact hlonger h hbytes
  · exact (hlonger h hbytes.symm).symm

/-- A text is parted behind its first bytes, where a character ends there. -/
theorem splitBytes_eq_some : splitBytes n s = some (a, b) ↔ a ++ b = s ∧ byteCount a = n := by
  induction s generalizing n a b with
  | nil =>
    rw [splitBytes, List.append_eq_nil_iff]
    split_ifs with hn
    · subst hn
      simp only [Option.some.injEq, Prod.mk.injEq, byteCount_eq_zero]
      tauto
    · simp only [false_iff]
      rintro ⟨⟨rfl, -⟩, hbytes⟩
      exact hn hbytes.symm
  | cons c s ih =>
    have hpos := c.utf8Size_pos
    rw [splitBytes]
    split_ifs with hn hfits
    · subst hn
      simp only [Option.some.injEq, Prod.mk.injEq, byteCount_eq_zero]
      constructor
      · rintro ⟨rfl, rfl⟩
        exact ⟨rfl, rfl⟩
      · rintro ⟨happend, rfl⟩
        exact ⟨rfl, happend.symm⟩
    · -- the first character still fits into the bytes that are left
      cases a with
      | nil => simp [Ne.symm hn]
      | cons d a =>
        simp only [Option.map_eq_some_iff, Prod.exists, Prod.mk.injEq, List.cons.injEq, ih,
          List.cons_append, byteCount_cons]
        constructor
        · rintro ⟨_, _, ⟨happend, hbytes⟩, ⟨rfl, rfl⟩, rfl⟩
          exact ⟨⟨rfl, happend⟩, by omega⟩
        · rintro ⟨⟨rfl, happend⟩, hbytes⟩
          exact ⟨a, b, ⟨happend, by omega⟩, ⟨rfl, rfl⟩, rfl⟩
    · simp only [false_iff]
      rintro ⟨happend, hbytes⟩
      cases a with
      | nil => exact hn hbytes.symm
      | cons d a =>
        rw [List.cons_append, List.cons.injEq] at happend
        rw [happend.1, byteCount_cons] at hbytes
        omega

end Bytes

/-- An entry of an irregular word gives a name a plural: the small form of the name ends in the
word, and its last word, which has as many bytes, is the whole name or starts with a capital letter.
The plural of the entry takes its place. -/
def Inflects (word : List Char) (entry : String × String) (result : List Char) : Prop :=
  entry.1.toList <:+ Text.lower word ∧ ∃ start first rest, word = start ++ first :: rest ∧
    byteCount (first :: rest) = byteCount entry.1.toList ∧
    (start = [] ∨ Text.isCapital first = true) ∧
    result = start ++
      if Text.isCapital first then Text.capitalize entry.2.toList else entry.2.toList

theorem byException_eq_some {entry : String × String} :
    byException word entry.1.toList entry.2.toList = some result ↔ Inflects word entry result := by
  have hbound : ∀ (start : List Char) (first : Char),
      ¬ (!start.isEmpty && !Text.isCapital first) = true ↔
        start = [] ∨ Text.isCapital first = true := by
    intro start first
    simp [or_iff_not_imp_left]
  simp only [byException, Inflects, Option.bind_eq_bind, Option.pure_def,
    Option.ite_none_left_eq_some, Option.bind_eq_some_iff, Prod.exists, splitBytes_eq_some,
    List.head?_eq_some_iff, hbound, Option.some.injEq, Bool.not_eq_true', Bool.not_eq_false,
    List.isSuffixOf_iff_suffix]
  refine and_congr_right fun _ => ?_
  constructor
  · rintro ⟨hshort, start, _, ⟨rfl, hbytes⟩, first, ⟨rest, rfl⟩, hstart, rfl⟩
    rw [byteCount_append] at hbytes hshort
    exact ⟨start, first, rest, rfl, by omega, hstart, rfl⟩
  · rintro ⟨start, first, rest, rfl, hbytes, hstart, rfl⟩
    have happend := byteCount_append start (first :: rest)
    exact ⟨by omega, start, first :: rest, ⟨rfl, by omega⟩, first, ⟨rest, rfl⟩, hstart, rfl⟩

theorem Inflects.unique {entry : String × String} {result' : List Char}
    (h : Inflects word entry result) (h' : Inflects word entry result') : result = result' :=
  Option.some.inj ((byException_eq_some.2 h).symm.trans (byException_eq_some.2 h'))

/-- A name of one word: no letter behind its first is a capital. -/
def OneWord (word : List Char) : Prop :=
  ∀ c ∈ word.tail, Text.isCapital c = false

instance (word : List Char) : Decidable (OneWord word) :=
  List.decidableBAll (fun c => Text.isCapital c = false) word.tail

/-- No irregular word of a list ends in another one. -/
def Unnested (table : List (String × String)) : Prop :=
  ∀ e ∈ table, ∀ e' ∈ table, e.1.toList <:+ e'.1.toList → e.1 = e'.1

instance (table : List (String × String)) : Decidable (Unnested table) :=
  inferInstanceAs (Decidable (∀ e ∈ table, ∀ e' ∈ table, _ → _ = _))

/-- An irregular word that fits a name of one word is the whole name. -/
theorem Inflects.byteCount_eq {entry : String × String} (h : Inflects word entry result)
    (hword : OneWord word) : byteCount entry.1.toList = byteCount word := by
  obtain ⟨-, start, first, rest, rfl, hbytes, hstart, -⟩ := h
  cases start with
  | nil => exact hbytes.symm
  | cons c start =>
    have hsmall := hword first (by simp)
    rw [hsmall] at hstart
    simp at hstart

section Table

variable {table : List (String × String)} {e e' : String × String} {r r' : List Char}

/-- Of irregular words that are each listed once, no two fit a name of one word, nor any name if
none of them ends in another. -/
theorem inflects_unique (hkeys : (table.map (·.1)).Nodup)
    (h : OneWord word ∨ Unnested table) (he : e ∈ table) (he' : e' ∈ table)
    (hr : Inflects word e r) (hr' : Inflects word e' r') : e = e' := by
  refine List.inj_on_of_nodup_map hkeys he he' ?_
  rcases h with hword | hunnested
  · refine String.toList_inj.1 (eq_of_suffix hr.1 hr'.1 ?_)
    rw [hr.byteCount_eq hword, hr'.byteCount_eq hword]
  · rcases List.suffix_or_suffix_of_suffix hr.1 hr'.1 with h | h
    · exact hunnested e he e' he' h
    · exact (hunnested e' he' e he h).symm

/-- The irregular words of German with further ones. -/
def germanTable (entries : List (String × String)) : List (String × String) :=
  entries.foldl addException germanExceptions

theorem nodup_addException (h : (table.map (·.1)).Nodup) (e : String × String) :
    ((addException table e).map (·.1)).Nodup := by
  unfold addException
  dsimp only
  split_ifs with hlisted
  · -- the word keeps its place
    have hsame : (table.map fun e' => if e'.1 == String.ofList (Text.lower e.1.toList)
        then (String.ofList (Text.lower e.1.toList), e.2) else e').map (·.1) = table.map (·.1) := by
      rw [List.map_map]
      refine List.map_congr_left fun e' _ => ?_
      simp only [Function.comp_apply, beq_iff_eq]
      split_ifs with heq
      · exact heq.symm
      · rfl
    rwa [hsame]
  · rw [List.map_append, List.map_singleton, ← List.concat_eq_append, List.nodup_concat]
    refine ⟨fun hmem => ?_, h⟩
    obtain ⟨e', he', heq⟩ := List.mem_map.1 hmem
    exact hlisted (List.any_eq_true.2 ⟨e', he', beq_iff_eq.2 heq⟩)

/-- Every irregular word is listed once. -/
theorem nodup_germanTable (entries : List (String × String)) :
    ((germanTable entries).map (·.1)).Nodup := by
  have hfold : ∀ table : List (String × String), (table.map (·.1)).Nodup →
      ((entries.foldl addException table).map (·.1)).Nodup := by
    induction entries with
    | nil => exact fun table h => h
    | cons e entries ih => exact fun table h => ih _ (nodup_addException h e)
  exact hfold germanExceptions (by decide)

/-- A name may take a plural: an entry gives it, or none gives any and it is the regular one. -/
def MayTake (table : List (String × String)) (word plural : String) : Prop :=
  (∃ e ∈ table, ∃ r, Inflects word.toList e r ∧ plural = String.ofList r) ∨
    (∀ e ∈ table, ∀ r, ¬ Inflects word.toList e r) ∧
      plural = String.ofList (regularGerman word.toList)

theorem irregular_eq (table : List (String × String)) (word : List Char) :
    irregular table word = table.findSome? fun e => byException word e.1.toList e.2.toList := rfl

theorem mayTake_german (table : List (String × String)) (word : String) :
    MayTake table word (german table word) := by
  rw [german, irregular_eq]
  cases h : table.findSome? fun e => byException word.toList e.1.toList e.2.toList with
  | some r =>
    obtain ⟨e, he, hr⟩ := List.exists_of_findSome?_eq_some h
    exact .inl ⟨e, he, r, byException_eq_some.1 hr, rfl⟩
  | none =>
    refine .inr ⟨fun e he r hr => ?_, rfl⟩
    have hnone := List.findSome?_eq_none_iff.1 h e he
    rw [byException_eq_some.2 hr] at hnone
    cases hnone

/-- The plurals that a name may take are those it takes in some order of the entries. -/
theorem mayTake_iff {word plural : String} :
    MayTake table word plural ↔ ∃ order, order.Perm table ∧ german order word = plural := by
  constructor
  · rintro (⟨e, he, r, hr, rfl⟩ | ⟨hnone, rfl⟩)
    · -- the order that has the entry in front
      obtain ⟨before, after, rfl⟩ := List.append_of_mem he
      refine ⟨e :: (before ++ after), List.perm_middle.symm, ?_⟩
      rw [german, irregular_eq, List.findSome?_cons, byException_eq_some.2 hr]
      rfl
    · refine ⟨table, .refl _, ?_⟩
      have hirregular : irregular table word.toList = none :=
        List.findSome?_eq_none_iff.2 fun e he =>
          Option.eq_none_iff_forall_not_mem.2 fun r hr => hnone e he r (byException_eq_some.1 hr)
      rw [german, hirregular, Option.getD_none]
  · rintro ⟨order, hperm, rfl⟩
    refine (mayTake_german order word).imp ?_ ?_
    · rintro ⟨e, he, hr⟩
      exact ⟨e, hperm.subset he, hr⟩
    · rintro ⟨hnone, hregular⟩
      exact ⟨fun e he => hnone e (hperm.symm.subset he), hregular⟩

/-- A name takes one plural in every order of the entries exactly if all entries that fit agree. -/
theorem german_perm_iff {word : String} :
    (∀ order, order.Perm table → german order word = german table word) ↔
      ∀ e ∈ table, ∀ e' ∈ table, ∀ r r',
        Inflects word.toList e r → Inflects word.toList e' r' → r = r' := by
  constructor
  · intro h e he e' he' r r' hr hr'
    obtain ⟨order, hperm, horder⟩ := mayTake_iff.1 (.inl ⟨e, he, r, hr, rfl⟩)
    obtain ⟨order', hperm', horder'⟩ := mayTake_iff.1 (.inl ⟨e', he', r', hr', rfl⟩)
    have hsame : german order word = german order' word :=
      (h order hperm).trans (h order' hperm').symm
    exact String.ofList_inj.1 (horder.symm.trans (hsame.trans horder'))
  · intro h order hperm
    rcases mayTake_iff.2 ⟨order, hperm, rfl⟩, mayTake_german table word with
      ⟨⟨e, he, r, hr, heq⟩ | ⟨hnone, heq⟩, ⟨e', he', r', hr', heq'⟩ | ⟨hnone', heq'⟩⟩
    · exact heq.trans ((congrArg String.ofList (h e he e' he' r r' hr hr')).trans heq'.symm)
    · exact absurd hr (hnone' e he r)
    · exact absurd hr' (hnone e' he' r')
    · exact heq.trans heq'.symm

end Table

end Plural

namespace Vocabulary

open Plural

/-- The irregular words of German come in any order, and the plurals that a name takes in one of
these orders are those which some entry that fits gives it, or the regular one if none fits. So the
order does not matter, to the plural and to the name of the listing field, exactly if all entries
that fit agree, as they do for a name of one word and for every name where no irregular word ends in
another. -/
theorem plural_orders (entries : List (String × String)) (word : String) :
    (∀ plural, MayTake (germanTable entries) word plural ↔
      ∃ order, order.Perm (germanTable entries) ∧ (german order).plural word = plural) ∧
    ((∀ order, order.Perm (germanTable entries) →
        (german order).plural word = (germanWith entries).plural word ∧
        (german order).all word = (germanWith entries).all word) ↔
      ∀ e ∈ germanTable entries, ∀ e' ∈ germanTable entries, ∀ r r',
        Inflects word.toList e r → Inflects word.toList e' r' → r = r') ∧
    (OneWord word.toList ∨ Unnested (germanTable entries) →
      ∀ order, order.Perm (germanTable entries) →
        (german order).plural word = (germanWith entries).plural word ∧
        (german order).all word = (germanWith entries).all word) := by
  have hagree : (∀ order, order.Perm (germanTable entries) →
        (german order).plural word = (germanWith entries).plural word ∧
        (german order).all word = (germanWith entries).all word) ↔
      ∀ e ∈ germanTable entries, ∀ e' ∈ germanTable entries, ∀ r r',
        Inflects word.toList e r → Inflects word.toList e' r' → r = r' := by
    refine Iff.trans ⟨fun h order hperm => (h order hperm).1, fun h order hperm => ?_⟩
      german_perm_iff
    exact ⟨h order hperm, congrArg (fun plural => "alle" ++ capitalized plural) (h order hperm)⟩
  refine ⟨fun plural => mayTake_iff, hagree, fun h => hagree.2 ?_⟩
  intro e he e' he' r r' hr hr'
  obtain rfl := inflects_unique (nodup_germanTable entries) h he he' hr hr'
  exact hr.unique hr'

section Accounts

/-- A listed plural for one kind of account. -/
def accounts : List (String × String) := [("GiroKonto", "girokontos")]

/-- The name of the account takes its own plural where that comes first, and the plural of its last
word where that does. -/
theorem giroKonto_plurals :
    (germanWith accounts).plural "GiroKonto" = "GiroKonten" ∧
    ∃ order, order.Perm (germanTable accounts) ∧ (german order).plural "GiroKonto" = "Girokontos" := by
  refine ⟨by decide +kernel, (germanTable accounts).reverse, List.reverse_perm _, by decide +kernel⟩

end Accounts

section Tables

/-- A listed plural. -/
def furniture : List (String × String) := [("Tisch", "tische")]

theorem plural_orders_furniture : Unnested (germanTable furniture) ∧
    (german (germanTable furniture).reverse).all "EckTisch" = "alleEckTische" ∧
    ¬ Unnested (germanTable accounts) ∧ OneWord "Konto".toList ∧
    (german (germanTable accounts).reverse).all "Konto" = "alleKonten" := by
  have hunnested : Unnested (germanTable furniture) := by decide +kernel
  have hword : OneWord "Konto".toList := by decide +kernel
  obtain ⟨-, -, htables⟩ := plural_orders furniture "EckTisch"
  obtain ⟨-, -, haccounts⟩ := plural_orders accounts "Konto"
  refine ⟨hunnested, ?_, by decide +kernel, hword, ?_⟩
  · rw [(htables (.inr hunnested) _ (List.reverse_perm _)).2]
    decide +kernel
  · rw [(haccounts (.inl hword) _ (List.reverse_perm _)).2]
    decide +kernel

end Tables

end Vocabulary

end EntityGraph
