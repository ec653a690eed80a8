import Mathlib.Algebra.Group.Nat.Defs
import Mathlib.Data.List.TakeWhile
import EntityGraph.Calendar.Text

/-!
# Written timestamps are read back

What is written of a timestamp is read as that timestamp, whatever its year, also where a second is
a leap second. Each part is read back in front of anything that does not begin with a digit.

* `Calendar.readDigits_append` reads a run of digits, and `Calendar.number_paddedDigits` is what a
  padded number stands for;
* `Calendar.readYear_yearText` covers the three ways to write a year;
* `Timestamp.parse?_text` is the result.
-/

namespace EntityGraph

namespace Calendar

variable {rest : List Char}

/-! ### Digits -/

/-- A text does not begin with a digit. -/
def EndsDigits (rest : List Char) : Prop :=
  ∀ c ∈ rest.head?, c.isDigit = false

theorem endsDigits_nil : EndsDigits [] :=
  fun _ hc => nomatch hc

theorem endsDigits_cons {c : Char} (hc : c.isDigit = false) (rest : List Char) :
    EndsDigits (c :: rest) := by
  rintro d ⟨⟩
  exact hc

theorem isDigit_of_mem_paddedDigits {width n : Nat} {c : Char} (hc : c ∈ paddedDigits width n) :
    c.isDigit = true := by
  rcases List.mem_append.1 hc with hc | hc
  · rw [List.eq_of_mem_replicate hc]
    rfl
  · exact Nat.isDigit_of_mem_toDigits (by decide) (by decide) hc

/-- Leading zeros do not change a number. -/
theorem number_paddedDigits (width n : Nat) : number (paddedDigits width n) = n := by
  have hzeros : ∀ k, number (List.replicate k '0') = 0 := by
    intro k
    induction k with
    | zero => rfl
    | succ k ih => exact ih
  have hdigits : number (Nat.toDigits 10 n) = n :=
    Nat.ofDigitChars_toDigits (by decide) (by decide)
  unfold number at hzeros hdigits
  rw [number, paddedDigits, List.foldl_append, hzeros, hdigits]

theorem paddedDigits_ne_nil (width n : Nat) : paddedDigits width n ≠ [] := by
  intro h
  have hnil : Nat.toDigits 10 n = [] := (List.append_eq_nil_iff.1 h).2
  exact Nat.toDigits_ne_nil hnil

/-- A number of at most so many digits is padded to exactly so many. -/
theorem length_paddedDigits {width n : Nat} (hwidth : 0 < width) (hn : n < 10 ^ width) :
    (paddedDigits width n).length = width := by
  have hlength : (Nat.toDigits 10 n).length ≤ width :=
    (Nat.length_toDigits_le_iff (by decide) hwidth).2 hn
  rw [paddedDigits, List.length_append, List.length_replicate]
  omega

/-- A run of digits is read as its number, where its length is within the limit. -/
theorem readDigits_append {limit : Option Nat} {ds : List Char}
    (hds : ∀ c ∈ ds, c.isDigit = true) (hne : ds ≠ []) (hlimit : ∀ n ∈ limit, ds.length ≤ n)
    (hrest : EndsDigits rest) : readDigits limit (ds ++ rest) = some (number ds, rest) := by
  have hrun : (ds ++ rest).takeWhile Char.isDigit = ds := by
    rw [List.takeWhile_append_of_pos hds]
    cases rest with
    | nil => simp
    | cons c rest => simp [hrest c rfl]
  have hread : (if ds.isEmpty then none
      else some (number ds, (ds ++ rest).drop ds.length)) = some (number ds, rest) := by
    rw [if_neg (by simpa using hne), List.drop_left]
  unfold readDigits
  rw [hrun]
  cases limit with
  | none => exact hread
  | some n =>
    simp only [List.take_of_length_le (hlimit n rfl)]
    exact hread

/-- A padded number is read back, where it has no more digits than may be read. -/
theorem readDigits_paddedDigits {limit : Option Nat} {width n : Nat}
    (hlimit : ∀ k ∈ limit, (paddedDigits width n).length ≤ k) (hrest : EndsDigits rest) :
    readDigits limit (paddedDigits width n ++ rest) = some (n, rest) := by
  rw [readDigits_append (fun c => isDigit_of_mem_paddedDigits) (paddedDigits_ne_nil width n) hlimit
    hrest, number_paddedDigits]

/-! ### Parts of a timestamp -/

theorem isBlank_of_isDigit {c : Char} (hc : c.isDigit = true) : Text.isBlank c = false := by
  have hrange : 48 ≤ c.toNat ∧ c.toNat ≤ 57 := Char.isDigit_iff_toNat.1 hc
  rw [Bool.eq_false_iff]
  intro hblank
  simp only [Text.isBlank, Bool.or_eq_true, Bool.and_eq_true, decide_eq_true_eq, beq_iff_eq]
    at hblank
  omega

/-- Nothing is cut off where a text begins with a character that is no blank. -/
theorem trimStart_cons {c : Char} (hc : Text.isBlank c = false) (s : List Char) :
    Text.trimStart (c :: s) = c :: s :=
  List.dropWhile_cons_of_neg (by simp [hc])

/-- A padded number begins with a digit. -/
theorem exists_paddedDigits (width n : Nat) :
    ∃ c ds, paddedDigits width n = c :: ds ∧ c.isDigit = true := by
  cases h : paddedDigits width n with
  | nil => exact absurd h (paddedDigits_ne_nil width n)
  | cons c ds =>
    exact ⟨c, ds, rfl, isDigit_of_mem_paddedDigits (h ▸ List.mem_cons_self)⟩

theorem readTwo_paddedDigits {n : Nat} (hn : n < 100) (hrest : EndsDigits rest) :
    readTwo (paddedDigits 2 n ++ rest) = some (n, rest) := by
  have htrim : Text.trimStart (paddedDigits 2 n ++ rest) = paddedDigits 2 n ++ rest := by
    obtain ⟨c, ds, hds, hc⟩ := exists_paddedDigits 2 n
    rw [hds]
    exact trimStart_cons (isBlank_of_isDigit hc) _
  rw [readTwo, htrim]
  refine readDigits_paddedDigits ?_ hrest
  rintro k ⟨⟩
  exact (length_paddedDigits (by decide) hn).le

/-- A year without a sign has up to four digits. -/
theorem readYear_of_isDigit {c : Char} (hc : c.isDigit = true) (s : List Char) :
    readYear (c :: s)
      = (readDigits (some 4) (c :: s)).map fun (n, rest) => ((n : Int), rest) := by
  rw [readYear, trimStart_cons (isBlank_of_isDigit hc)]
  split
  next h =>
    obtain ⟨rfl, -⟩ := List.cons.inj h
    cases hc
  next h =>
    obtain ⟨rfl, -⟩ := List.cons.inj h
    cases hc
  · rfl

/-- A year is read back: without a sign it has four digits, and with a sign any number of them. -/
theorem readYear_yearText (year : Int) (hrest : EndsDigits rest) :
    readYear (yearText year ++ rest) = some (year, rest) := by
  have hsigned : readDigits none (paddedDigits 4 year.natAbs ++ rest) = some (year.natAbs, rest) :=
    readDigits_paddedDigits (fun _ hk => nomatch hk) hrest
  unfold yearText
  split_ifs with hplain hnegative
  · have hdigits : readDigits (some 4) (paddedDigits 4 year.toNat ++ rest)
        = some (year.toNat, rest) := by
      refine readDigits_paddedDigits ?_ hrest
      rintro k ⟨⟩
      exact (length_paddedDigits (by decide) (by omega)).le
    obtain ⟨c, ds, hds, hc⟩ := exists_paddedDigits 4 year.toNat
    rw [hds, List.cons_append] at hdigits ⊢
    rw [readYear_of_isDigit hc, hdigits]
    exact congrArg (fun n => some (n, rest)) (Int.toNat_of_nonneg hplain.1)
  · have hyear : -(year.natAbs : Int) = year := by omega
    change (readDigits none (paddedDigits 4 year.natAbs ++ rest)).map _ = _
    rw [hsigned]
    exact congrArg (fun n => some (n, rest)) hyear
  · have hyear : (year.natAbs : Int) = year := by omega
    change (readDigits none (paddedDigits 4 year.natAbs ++ rest)).map _ = _
    rw [hsigned]
    exact congrArg (fun n => some (n, rest)) hyear

theorem readChar_cons (c : Char) (s : List Char) : readChar c (c :: s) = some s :=
  if_pos rfl

end Calendar

section Parts

open Calendar

variable {rest : List Char}

/-- A day of a month has two digits. -/
theorem Date.day_lt (d : Date) : d.day < 100 := by
  have hday := d.isDay.2
  have hdays : daysInMonth d.year d.month ≤ 31 := by
    unfold daysInMonth
    split_ifs <;> omega
  omega

theorem Date.of?_eq (d : Date) : Date.of? d.year d.month d.day = some d :=
  dif_pos ⟨d.isYear, d.isMonth, d.isDay⟩

theorem TimeOfDay.of?_eq (t : TimeOfDay) : TimeOfDay.of? t.hour t.minute t.second = some t :=
  dif_pos ⟨t.isHour, t.isMinute, t.isSecond⟩

/-- A day is read back. -/
theorem Date.readDate_chars (d : Date) (hrest : EndsDigits rest) :
    readDate (d.chars ++ rest) = some (d, rest) := by
  have hhyphen : ∀ s, EndsDigits ('-' :: s) := endsDigits_cons rfl
  have hmonth : d.month < 100 := by have := d.isMonth; omega
  simp only [Date.chars, List.append_assoc, List.cons_append, readDate,
    readYear_yearText d.year (hhyphen _), readChar_cons, readTwo_paddedDigits hmonth (hhyphen _),
    readTwo_paddedDigits d.day_lt hrest, d.of?_eq, Option.bind_eq_bind, Option.bind_some]
  rfl

/-- A time of day is read back. -/
theorem TimeOfDay.readTime_chars (t : TimeOfDay) (hrest : EndsDigits rest) :
    readTime (t.chars ++ rest) = some (t, rest) := by
  have hcolon : ∀ s, EndsDigits (':' :: s) := endsDigits_cons rfl
  have hhour : t.hour < 100 := by have := t.isHour; omega
  have hminute : t.minute < 100 := by have := t.isMinute; omega
  have hsecond : t.second < 100 := by have := t.isSecond; omega
  simp only [TimeOfDay.chars, List.append_assoc, List.cons_append, readTime,
    readTwo_paddedDigits hhour (hcolon _), readChar_cons, readTwo_paddedDigits hminute (hcolon _),
    readTwo_paddedDigits hsecond hrest, t.of?_eq, Option.bind_eq_bind, Option.bind_some]
  rfl

end Parts

namespace Timestamp

open Calendar

theorem readTimestamp_chars (t : Timestamp) : readTimestamp t.chars = some t := by
  have hdate : readDate t.chars = some (t.date, ' ' :: t.time.chars) :=
    t.date.readDate_chars (endsDigits_cons rfl _)
  have htrim : Text.trimStart (' ' :: t.time.chars) = t.time.chars := by
    obtain ⟨c, ds, hds, hc⟩ := exists_paddedDigits 2 t.time.hour
    rw [TimeOfDay.chars, hds]
    exact (List.dropWhile_cons_of_pos rfl).trans (trimStart_cons (isBlank_of_isDigit hc) _)
  have htime : readTime t.time.chars = some (t.time, []) := by
    simpa only [List.append_nil] using t.time.readTime_chars endsDigits_nil
  simp only [readTimestamp, hdate, htrim, htime, Option.bind_eq_bind, Option.bind_some]
  rfl

/-- The text of a timestamp is read as that timestamp. -/
theorem parse?_text (t : Timestamp) : parse? t.text = some t := by
  rw [parse?, text, String.toList_ofList, readTimestamp_chars, Option.some_or]

end Timestamp

end EntityGraph
