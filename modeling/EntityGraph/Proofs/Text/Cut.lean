import Mathlib.Data.List.TakeWhile
import Mathlib.Tactic.Conv
import Mathlib.Tactic.SplitIfs
import EntityGraph.Text.Affix
import EntityGraph.Text.Blank

/-!
# Cuts of texts

What remains of a text after a cut, said by how the text is put together.

* `stripStart?_eq_some`, `stripEnd?_eq_some` and `stripAll_copies` say what the removal of a start
  or an end leaves;
* `trim_eq` says the same of outer blanks;
* `words_unwords` and `lines_unlines`: words and lines that are put together are found again.
-/

namespace EntityGraph.Text

variable {p s t : List Char}

/-! ### Starts and ends -/

theorem stripStart?_eq_some : stripStart? p s = some t ↔ s = p ++ t := by
  induction p generalizing s with
  | nil => simp [stripStart?]
  | cons c p ih =>
    cases s with
    | nil => simp [stripStart?]
    | cons d s =>
      rw [stripStart?]
      split_ifs with h
      · rw [ih, h, List.cons_append, List.cons_inj_right]
      · simp [Ne.symm h]

theorem stripStart?_eq_none : stripStart? p s = none ↔ ¬ p <+: s := by
  simp only [Option.eq_none_iff_forall_ne_some, ne_eq, stripStart?_eq_some, List.IsPrefix,
    not_exists]
  exact forall_congr' fun t => not_congr eq_comm

theorem stripEnd?_eq_some : stripEnd? p s = some t ↔ s = t ++ p := by
  simp only [stripEnd?, Option.map_eq_some_iff, stripStart?_eq_some]
  constructor
  · rintro ⟨r, hr, rfl⟩
    rw [← List.reverse_reverse s, hr, List.reverse_append, List.reverse_reverse]
  · rintro rfl
    exact ⟨t.reverse, List.reverse_append, List.reverse_reverse t⟩

theorem stripEnd?_eq_none : stripEnd? p s = none ↔ ¬ p <:+ s := by
  simp only [Option.eq_none_iff_forall_ne_some, ne_eq, stripEnd?_eq_some, List.IsSuffix,
    not_exists]
  exact forall_congr' fun t => not_congr eq_comm

/-- A text some times over. -/
def copies (p : List Char) (n : Nat) : List Char :=
  (List.replicate n p).flatten

theorem copies_succ (p : List Char) (n : Nat) : copies p (n + 1) = p ++ copies p n := rfl

theorem stripRepeated_copies (h : ¬ p <+: s) {n fuel : Nat} (hfuel : n ≤ fuel) :
    stripRepeated p fuel (copies p n ++ s) = s := by
  induction n generalizing fuel with
  | zero =>
    cases fuel with
    | zero => rfl
    | succ fuel => simp only [stripRepeated, copies, List.replicate_zero, List.flatten_nil,
        List.nil_append, stripStart?_eq_none.2 h]
  | succ n ih =>
    cases fuel with
    | zero => omega
    | succ fuel =>
      have hstrip : stripStart? p (copies p (n + 1) ++ s) = some (copies p n ++ s) :=
        stripStart?_eq_some.2 (by rw [copies_succ, List.append_assoc])
      rw [stripRepeated, hstrip]
      exact ih (by omega)

/-- Only the copies of a start are removed. -/
theorem stripAll_copies (hp : p ≠ []) (h : ¬ p <+: s) (n : Nat) :
    stripAll p (copies p n ++ s) = s := by
  refine stripRepeated_copies h ?_
  have hlength : (copies p n).length = n * p.length := by simp [copies]
  rw [List.length_append, hlength]
  exact Nat.le_add_right_of_le (Nat.le_mul_of_pos_right n (List.length_pos_iff.2 hp))

theorem stripAll_eq_self (h : ¬ p <+: s) : stripAll p s = s :=
  stripRepeated_copies (n := 0) h (Nat.zero_le _)

theorem exists_copies_stripRepeated (p : List Char) (fuel : Nat) (s : List Char) :
    ∃ n, s = copies p n ++ stripRepeated p fuel s := by
  induction fuel generalizing s with
  | zero => exact ⟨0, rfl⟩
  | succ fuel ih =>
    rw [stripRepeated]
    split
    next rest hrest =>
      obtain ⟨n, hn⟩ := ih rest
      refine ⟨n + 1, ?_⟩
      rw [copies_succ, List.append_assoc, ← hn]
      exact stripStart?_eq_some.1 hrest
    · exact ⟨0, rfl⟩

theorem exists_copies_stripAll (p s : List Char) : ∃ n, s = copies p n ++ stripAll p s :=
  exists_copies_stripRepeated p s.length s

theorem occursIn_iff : occursIn p s = true ↔ p <:+: s := by
  induction s with
  | nil => simp [occursIn]
  | cons c s ih => simp [occursIn, ih, List.infix_cons_iff]

/-! ### Outer blanks -/

/-- A text of blanks only. -/
def Blank (s : List Char) : Prop :=
  ∀ c ∈ s, isBlank c = true

/-- A text without blanks. -/
def Solid (s : List Char) : Prop :=
  ∀ c ∈ s, isBlank c = false

instance (s : List Char) : Decidable (Blank s) :=
  List.decidableBAll (isBlank · = true) s

instance (s : List Char) : Decidable (Solid s) :=
  List.decidableBAll (isBlank · = false) s

/-- A text without blanks at its ends. -/
def Trimmed (s : List Char) : Prop :=
  (∀ c ∈ s.head?, isBlank c = false) ∧ ∀ c ∈ s.getLast?, isBlank c = false

theorem blank_nil : Blank [] :=
  fun _ hc => absurd hc List.not_mem_nil

theorem Blank.not_mem (h : Blank s) {c : Char} (hc : isBlank c = false) : c ∉ s :=
  fun hin => Bool.eq_false_iff.1 hc (h c hin)

theorem Solid.not_mem (h : Solid s) {c : Char} (hc : isBlank c = true) : c ∉ s :=
  fun hin => Bool.eq_false_iff.1 (h c hin) hc

theorem Blank.append (hp : Blank p) (hs : Blank s) : Blank (p ++ s) :=
  List.forall_mem_append.2 ⟨hp, hs⟩

theorem Blank.reverse (h : Blank s) : Blank s.reverse :=
  fun c hc => h c (List.mem_reverse.1 hc)

/-- Blanks are dropped, up to the first other character. -/
theorem dropWhile_blank_append (hp : Blank p) (hs : ∀ c ∈ s.head?, isBlank c = false) :
    (p ++ s).dropWhile isBlank = s := by
  rw [List.dropWhile_append_of_pos hp]
  cases s with
  | nil => rfl
  | cons c s => exact List.dropWhile_cons_of_neg (by simp [hs c rfl])

theorem trim_eq (hp : Blank p) (ht : Blank t) (hs : Trimmed s) : trim (p ++ s ++ t) = s := by
  cases s with
  | nil =>
    have hblank : Blank (p ++ [] ++ t) := (hp.append blank_nil).append ht
    have hdrop := dropWhile_blank_append (s := []) hblank (by simp)
    rw [List.append_nil] at hdrop
    rw [trim, trimStart, hdrop]
    rfl
  | cons c s =>
    have hstart : trimStart (p ++ (c :: s) ++ t) = c :: s ++ t := by
      rw [List.append_assoc]
      exact dropWhile_blank_append hp hs.1
    have hend : (t.reverse ++ (c :: s).reverse).dropWhile isBlank = (c :: s).reverse :=
      dropWhile_blank_append ht.reverse (List.head?_reverse ▸ hs.2)
    rw [trim, hstart, trimEnd, List.reverse_append, hend, List.reverse_reverse]

theorem exists_blank_trimStart (s : List Char) :
    ∃ before, Blank before ∧ s = before ++ trimStart s :=
  ⟨s.takeWhile isBlank, fun _ hc => List.mem_takeWhile_imp hc,
    List.takeWhile_append_dropWhile.symm⟩

theorem exists_trimEnd_blank (s : List Char) : ∃ after, Blank after ∧ s = trimEnd s ++ after := by
  obtain ⟨before, hbefore, hs⟩ := exists_blank_trimStart s.reverse
  refine ⟨before.reverse, hbefore.reverse, ?_⟩
  have h := congrArg List.reverse hs
  rwa [List.reverse_reverse, List.reverse_append] at h

theorem exists_blank_trim (s : List Char) :
    ∃ before after, Blank before ∧ Blank after ∧ s = before ++ trim s ++ after := by
  obtain ⟨before, hbefore, hs⟩ := exists_blank_trimStart s
  obtain ⟨after, hafter, hstart⟩ := exists_trimEnd_blank (trimStart s)
  refine ⟨before, after, hbefore, hafter, ?_⟩
  rw [List.append_assoc, trim, ← hstart]
  exact hs

theorem trimmed_trim (s : List Char) : Trimmed (trim s) := by
  have hhead : ∀ l : List Char, ∀ c ∈ (l.dropWhile isBlank).head?, isBlank c = false := by
    intro l c hc
    have := List.head?_dropWhile_not isBlank l
    rwa [Option.mem_def.1 hc] at this
  constructor
  · intro c hc
    obtain ⟨after, -, hs⟩ := exists_trimEnd_blank (trimStart s)
    refine hhead s c ?_
    rw [← trimStart, hs, List.head?_append, ← trim, Option.mem_def.1 hc]
    rfl
  · rw [trim, trimEnd, List.getLast?_reverse]
    exact hhead _

theorem trim_append_blank (s : List Char) (ht : Blank t) : trim (s ++ t) = trim s := by
  obtain ⟨before, after, hbefore, hafter, hs⟩ := exists_blank_trim s
  conv_lhs => rw [hs, List.append_assoc]
  exact trim_eq hbefore (hafter.append ht) (trimmed_trim s)

/-! ### Words -/

theorem splitBy_eq_splitOnP (sep : Char → Bool) (s : List Char) :
    splitBy sep s = s.splitOnP sep := by
  induction s with
  | nil => rfl
  | cons x s ih =>
    rw [splitBy, List.splitOnP_cons_eq_if_modifyHead, ih]
    split_ifs with hx
    · rfl
    · cases hpieces : s.splitOnP sep with
      | nil => exact absurd hpieces (List.splitOnP_ne_nil sep s)
      | cons piece pieces => rfl

theorem words_append_cons (s : List Char) {c : Char} (hc : isBlank c = true) (t : List Char) :
    words (s ++ c :: t) = words s ++ words t := by
  simp only [words, splitBy_eq_splitOnP, List.splitOnP_append_cons s t hc, List.filter_append]

theorem words_solid (hs : Solid s) (hne : s ≠ []) : words s = [s] := by
  rw [words, splitBy_eq_splitOnP, List.splitOnP_eq_singleton hs]
  exact List.filter_cons_of_pos (by simp [hne])

theorem words_blank (hs : Blank s) : words s = [] := by
  induction s with
  | nil => rfl
  | cons c s ih =>
    have h := words_append_cons [] (hs c List.mem_cons_self) s
    rw [List.nil_append] at h
    rw [h, ih fun d hd => hs d (List.mem_cons_of_mem c hd)]
    rfl

theorem words_append_blank (hp : Blank t) (s : List Char) : words (s ++ t) = words s := by
  cases t with
  | nil => rw [List.append_nil]
  | cons c t =>
    rw [words_append_cons s (hp c List.mem_cons_self),
      words_blank fun d hd => hp d (List.mem_cons_of_mem c hd), List.append_nil]

theorem words_blank_append (hp : Blank p) (s : List Char) : words (p ++ s) = words s := by
  induction p with
  | nil => rfl
  | cons c p ih =>
    have h := words_append_cons [] (hp c List.mem_cons_self) (p ++ s)
    rw [List.cons_append, ← List.nil_append (c :: (p ++ s)), h,
      ih fun d hd => hp d (List.mem_cons_of_mem c hd)]
    rfl

theorem words_trim (s : List Char) : words (trim s) = words s := by
  obtain ⟨before, after, hbefore, hafter, hs⟩ := exists_blank_trim s
  conv_rhs => rw [hs, words_append_blank hafter, words_blank_append hbefore]

/-- No piece has a separator in it. -/
theorem of_mem_splitOnP {sep : Char → Bool} {piece : List Char} (h : piece ∈ s.splitOnP sep) :
    ∀ c ∈ piece, sep c = false := by
  induction s generalizing piece with
  | nil =>
    rw [List.splitOnP_nil, List.mem_singleton] at h
    simp [h]
  | cons d s ih =>
    rw [List.splitOnP_cons_eq_if_modifyHead] at h
    split_ifs at h with hd
    · rcases List.mem_cons.1 h with rfl | h
      · simp
      · exact ih h
    · obtain ⟨first, pieces, hs⟩ := List.exists_cons_of_ne_nil (List.splitOnP_ne_nil sep s)
      rw [hs, List.modifyHead_cons] at h
      rw [hs] at ih
      rcases List.mem_cons.1 h with rfl | h
      · exact List.forall_mem_cons.2 ⟨Bool.eq_false_iff.2 hd, ih List.mem_cons_self⟩
      · exact ih (List.mem_cons_of_mem first h)

theorem of_mem_words {word : List Char} (h : word ∈ words s) : word ≠ [] ∧ Solid word := by
  rw [words, splitBy_eq_splitOnP] at h
  obtain ⟨hpiece, hne⟩ := List.mem_filter.1 h
  exact ⟨by simpa using hne, of_mem_splitOnP hpiece⟩

theorem prefix_of_splitOnP_eq_cons {sep : Char → Bool} {first : List Char}
    {pieces : List (List Char)} (h : s.splitOnP sep = first :: pieces) : first <+: s := by
  induction s generalizing first pieces with
  | nil =>
    rw [List.splitOnP_nil, List.cons.injEq] at h
    exact h.1 ▸ List.nil_prefix
  | cons d s ih =>
    obtain ⟨next, others, hs⟩ := List.exists_cons_of_ne_nil (List.splitOnP_ne_nil sep s)
    rw [List.splitOnP_cons_eq_if_modifyHead, hs, List.modifyHead_cons] at h
    split_ifs at h <;> rw [List.cons.injEq] at h <;> rw [← h.1]
    · exact List.nil_prefix
    · exact List.cons_prefix_cons.2 ⟨rfl, ih hs⟩

/-- The first word is what a text starts with after its blanks. -/
theorem prefix_of_words_eq_cons {word : List Char} {rest : List (List Char)}
    (h : words s = word :: rest) : word <+: trim s := by
  have hhead := (trimmed_trim s).1
  rw [← words_trim] at h
  generalize trim s = s at h hhead
  cases s with
  | nil => cases h
  | cons c s =>
    obtain ⟨first, pieces, hs⟩ := List.exists_cons_of_ne_nil (List.splitOnP_ne_nil isBlank s)
    rw [words, splitBy_eq_splitOnP, List.splitOnP_cons_eq_if_modifyHead,
      if_neg (by simp [hhead c rfl]), hs, List.modifyHead_cons,
      List.filter_cons_of_pos (by simp), List.cons.injEq] at h
    rw [← h.1]
    exact List.cons_prefix_cons.2 ⟨rfl, prefix_of_splitOnP_eq_cons hs⟩

theorem mem_of_mem_intercalate {sep c : Char} {pieces : List (List Char)}
    (h : c ∈ [sep].intercalate pieces) : c = sep ∨ ∃ piece ∈ pieces, c ∈ piece := by
  induction pieces with
  | nil => cases h
  | cons piece pieces ih =>
    cases pieces with
    | nil => exact .inr ⟨piece, List.mem_cons_self, by simpa using h⟩
    | cons next pieces =>
      rw [List.intercalate_cons_cons, List.append_assoc, List.mem_append, List.singleton_append,
        List.mem_cons] at h
      rcases h with hpiece | hsep | hrest
      · exact .inr ⟨piece, List.mem_cons_self, hpiece⟩
      · exact .inl hsep
      · exact (ih hrest).imp_right fun ⟨other, hother, hc⟩ =>
          ⟨other, List.mem_cons_of_mem piece hother, hc⟩

/-- Words with a space between them. -/
def unwords (ws : List (List Char)) : List Char :=
  [' '].intercalate ws

theorem words_unwords {ws : List (List Char)} (h : ∀ w ∈ ws, w ≠ [] ∧ Solid w) :
    words (unwords ws) = ws := by
  induction ws with
  | nil => rfl
  | cons w ws ih =>
    obtain ⟨⟨hne, hsolid⟩, h⟩ := List.forall_mem_cons.1 h
    cases ws with
    | nil => simpa [unwords] using words_solid hsolid hne
    | cons w' ws =>
      rw [unwords, List.intercalate_cons_cons, List.append_assoc, List.singleton_append,
        words_append_cons w rfl, words_solid hsolid hne, List.singleton_append]
      exact congrArg (w :: ·) (ih h)

/-! ### Lines -/

/-- Lines, each with a line feed at its end. -/
def unlines (ls : List (List Char)) : List Char :=
  (ls.map (· ++ ['\n'])).flatten

theorem lines_unlines {ls : List (List Char)} (h : ∀ l ∈ ls, '\n' ∉ l ∧ '\r' ∉ l) :
    lines (unlines ls) = ls := by
  have hpieces : (unlines ls).splitOnP (· == '\n') = ls ++ [[]] := by
    induction ls with
    | nil => rfl
    | cons l ls ih =>
      obtain ⟨⟨hl, -⟩, h⟩ := List.forall_mem_cons.1 h
      have hl : ∀ c ∈ l, (c == '\n') = false := fun c hc => by
        simpa using fun hfeed : c = '\n' => hl (hfeed ▸ hc)
      have hcons : unlines (l :: ls) = l ++ '\n' :: unlines ls := by simp [unlines]
      rw [hcons, List.splitOnP_append_cons_of_forall_mem hl '\n' (by decide), ih h,
        List.cons_append]
  have hkept : (ls.map fun l => if l.getLast? = some '\r' then l.dropLast else l) = ls :=
    (List.map_congr_left fun l hl =>
      if_neg fun hlast => (h l hl).2 (List.mem_of_getLast? hlast)).trans (List.map_id ls)
  rw [lines, splitBy_eq_splitOnP, hpieces, List.dropLast_concat, hkept, List.getLast?_concat]
  exact List.append_nil ls

end EntityGraph.Text
