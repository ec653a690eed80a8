import Mathlib.Data.Nat.Log
import Mathlib.Tactic.SplitIfs
import EntityGraph.Number.Binary64

/-!
# Rounded integers

An integer is rounded to the nearest floating point number, and rounding keeps the order: of two
integers the lesser is not rounded to the greater number.

* `Binary64.divNearest_mono` is the law of the rounded quotient;
* `Binary64.patternOf` is the magnitude of a rounded natural number, between those of the two powers
  of two around it (`Binary64.le_patternOf`, `Binary64.patternOf_le`);
* `Binary64.rank?_ofInt` places a rounded integer among all numbers, and `Binary64.place_mono` is
  the result.
-/

namespace EntityGraph

theorem twoPow_pos (n : Nat) : 0 < twoPow n :=
  Nat.two_pow_pos n

theorem twoPow_add (m n : Nat) : twoPow (m + n) = twoPow m * twoPow n :=
  Nat.pow_add 2 m n

namespace Binary64

section Quotient

variable {n m d q : Nat}

theorem div_le_divNearest (n d : Nat) : n / d ≤ divNearest n d := by
  unfold divNearest
  dsimp only
  split_ifs <;> omega

theorem divNearest_le_succ (n d : Nat) : divNearest n d ≤ n / d + 1 := by
  unfold divNearest
  dsimp only
  split_ifs <;> omega

theorem le_divNearest (hd : 0 < d) (h : q * d ≤ n) : q ≤ divNearest n d :=
  ((Nat.le_div_iff_mul_le hd).2 h).trans (div_le_divNearest n d)

theorem divNearest_le (hd : 0 < d) (h : n < q * d) : divNearest n d ≤ q :=
  (divNearest_le_succ n d).trans ((Nat.div_lt_iff_lt_mul hd).2 h)

/-- Of two numerators the lesser has no greater rounded quotient. -/
theorem divNearest_mono (h : n ≤ m) : divNearest n d ≤ divNearest m d := by
  rcases (Nat.div_le_div_right (c := d) h).lt_or_eq with hlt | heq
  · calc
      divNearest n d ≤ n / d + 1 := divNearest_le_succ n d
      _ ≤ m / d := hlt
      _ ≤ divNearest m d := div_le_divNearest m d
  · -- with one quotient the remainders decide
    have hrest : n % d ≤ m % d := by
      have hn := Nat.div_add_mod n d
      have hm := Nat.div_add_mod m d
      rw [heq] at hn
      omega
    unfold divNearest
    dsimp only
    rw [heq]
    split_ifs <;> omega

end Quotient

section Pattern

variable {n m : Nat}

/-- A natural number as a quotient that has a significand of 53 digits. -/
def significand (n : Nat) : Nat × Nat :=
  scale n 1 (n.log2 - 52)

/-- The magnitude pattern of the number nearest to a natural number that is not zero. -/
def patternOf (n : Nat) : Nat :=
  (n.log2 + 1022) * twoPow 52 + divNearest (significand n).1 (significand n).2

theorem scale_pos (n : Nat) (e : Int) : 0 < (scale n 1 e).2 := by
  unfold scale
  split_ifs
  · exact Nat.mul_pos Nat.one_pos (twoPow_pos _)
  · exact Nat.one_pos

/-- Numbers are scaled in order. -/
theorem scale_mono (h : n ≤ m) (e : Int) :
    (scale n 1 e).1 ≤ (scale m 1 e).1 ∧ (scale n 1 e).2 = (scale m 1 e).2 := by
  unfold scale
  split_ifs
  · exact ⟨h, rfl⟩
  · exact ⟨Nat.mul_le_mul_right _ h, rfl⟩

/-- A number scaled down by its greatest power of two but `k` has a quotient of `k + 1` digits. -/
theorem scale_digits (hn : n ≠ 0) (k : Nat) :
    twoPow k * (scale n 1 (n.log2 - k)).2 ≤ (scale n 1 (n.log2 - k)).1 ∧
      (scale n 1 (n.log2 - k)).1 < twoPow (k + 1) * (scale n 1 (n.log2 - k)).2 := by
  have hlower : twoPow n.log2 ≤ n := Nat.log2_self_le hn
  have hupper : n < twoPow (n.log2 + 1) := Nat.lt_log2_self
  unfold scale
  split_ifs with hk
  · obtain ⟨j, hj⟩ : ∃ j, n.log2 = k + j := ⟨n.log2 - k, by omega⟩
    have htoNat : ((n.log2 : Int) - k).toNat = j := by omega
    rw [hj] at hlower hupper
    rw [htoNat, Nat.one_mul, ← twoPow_add, ← twoPow_add, show k + 1 + j = k + j + 1 by omega]
    exact ⟨hlower, hupper⟩
  · obtain ⟨j, hj⟩ : ∃ j, k = n.log2 + j := ⟨k - n.log2, by omega⟩
    have htoNat : (-((n.log2 : Int) - k)).toNat = j := by omega
    rw [htoNat, Nat.mul_one, Nat.mul_one, show k + 1 = n.log2 + 1 + j by omega, hj, twoPow_add,
      twoPow_add]
    exact ⟨Nat.mul_le_mul_right _ hlower, Nat.mul_lt_mul_of_pos_right hupper (twoPow_pos j)⟩

theorem le_patternOf (hn : n ≠ 0) : (n.log2 + 1023) * twoPow 52 ≤ patternOf n := by
  have hdigits := le_divNearest (scale_pos n _) (scale_digits hn 52).1
  rw [show n.log2 + 1023 = n.log2 + 1022 + 1 by omega, Nat.add_one_mul]
  exact Nat.add_le_add_left hdigits _

theorem patternOf_le (hn : n ≠ 0) : patternOf n ≤ (n.log2 + 1024) * twoPow 52 := by
  have hdigits := divNearest_le (scale_pos n _) (scale_digits hn 52).2
  have htwice : twoPow (52 + 1) = 2 * twoPow 52 := rfl
  rw [htwice] at hdigits
  rw [show n.log2 + 1024 = n.log2 + 1022 + 2 by omega, Nat.add_mul]
  exact Nat.add_le_add_left hdigits _

theorem patternOf_mono (hn : n ≠ 0) (h : n ≤ m) : patternOf n ≤ patternOf m := by
  have hm : m ≠ 0 := by omega
  have hlog : n.log2 ≤ m.log2 := by
    rw [Nat.log2_eq_log_two, Nat.log2_eq_log_two]
    exact Nat.log_mono_right h
  rcases hlog.lt_or_eq with hlt | heq
  · -- a power of two lies between the two patterns
    have hn' := patternOf_le hn
    have hm' := le_patternOf hm
    have hstep : (n.log2 + 1024) * twoPow 52 ≤ (m.log2 + 1023) * twoPow 52 :=
      Nat.mul_le_mul_right _ (by omega)
    omega
  · obtain ⟨hle, hd⟩ := scale_mono h (m.log2 - 52)
    rw [patternOf, patternOf, significand, significand, heq, hd]
    exact Nat.add_le_add_left (divNearest_mono hle) _

/-- The magnitude of a rounded natural number. -/
def magnitudeOf (n : Nat) : Nat :=
  if n = 0 then 0 else min (patternOf n) infinityBits

theorem magnitudeOf_mono (h : n ≤ m) : magnitudeOf n ≤ magnitudeOf m := by
  unfold magnitudeOf
  split_ifs with hn hm
  · exact le_refl 0
  · exact Nat.zero_le _
  · omega
  · have hmono := patternOf_mono hn h
    omega

theorem magnitudeOf_le (n : Nat) : magnitudeOf n ≤ infinityBits := by
  unfold magnitudeOf
  split_ifs
  · exact Nat.zero_le _
  · exact min_le_right _ _

/-- The quotient of 54 digits is always large enough, so that the one of 53 digits is rounded. -/
theorem ofRatio_one (negative : Bool) (n : Nat) :
    ofRatio negative n 1 = ofMagnitude negative (magnitudeOf n) := by
  by_cases hn : n = 0
  · simp [ofRatio, magnitudeOf, hn]
  have hleast : max ((n.log2 : Int) - ((1 : Nat).log2 : Int) - 53) (-1074)
      = n.log2 - (53 : Nat) := by
    have hone : (1 : Nat).log2 = 0 := rfl
    rw [hone]
    omega
  have hlarge : twoPow 53
      ≤ (scale n 1 (n.log2 - (53 : Nat))).1 / (scale n 1 (n.log2 - (53 : Nat))).2 :=
    (Nat.le_div_iff_mul_le (scale_pos n _)).2 (scale_digits hn 53).1
  have hexponent : (n.log2 : Int) - (53 : Nat) + 1 = n.log2 - 52 := by omega
  have htoNat : ((n.log2 : Int) - 52 + 1074).toNat = n.log2 + 1022 := by omega
  simp only [ofRatio, hn, if_false, hleast, hlarge, if_true, hexponent, htoNat, magnitudeOf]
  rfl

end Pattern

theorem exists_rank? {x : Binary64} : (∃ r, x.rank? = some r) ↔ x.isNaN = false := by
  unfold rank?
  cases x.isNaN <;> cases x.isNegative <;> simp

/-- A number has the place that its sign and its magnitude say. -/
theorem rank?_ofMagnitude {m : Nat} (negative : Bool) (h : m ≤ infinityBits) :
    (ofMagnitude negative m).rank? = some (if negative then -(m : Int) else m) := by
  have hinfinity : infinityBits = 9218868437227405312 := rfl
  have hsign : signWeight = 9223372036854775808 := rfl
  have hbits : (ofMagnitude negative m).bits.toNat = if negative then signWeight + m else m := by
    rw [ofMagnitude, UInt64.toNat_ofNat']
    cases negative <;> simp <;> omega
  have hmagnitude : (ofMagnitude negative m).magnitude = m := by
    rw [magnitude, hbits, hsign]
    split_ifs <;> omega
  have hnegative : (ofMagnitude negative m).isNegative = negative := by
    rw [isNegative, hbits]
    cases negative with
    | false => simpa using h.trans_lt (by decide)
    | true => simp
  have hnumber : (ofMagnitude negative m).isNaN = false := by
    simpa [isNaN, hmagnitude] using h
  rw [rank?, hnumber, hnegative, hmagnitude]
  cases negative <;> rfl

/-- The place of a rounded integer among all numbers. -/
def place (i : Int) : Int :=
  if i < 0 then -(magnitudeOf i.natAbs : Int) else magnitudeOf i.natAbs

theorem rank?_ofInt (i : Int) : (ofInt i).rank? = some (place i) := by
  rw [ofInt, ofRatio_one, rank?_ofMagnitude _ (magnitudeOf_le _), place]
  simp

/-- Of two integers the lesser is not rounded to the greater number. -/
theorem place_mono {i j : Int} (h : i ≤ j) : place i ≤ place j := by
  unfold place
  split_ifs with hi hj
  · have hmono := magnitudeOf_mono (show j.natAbs ≤ i.natAbs by omega)
    omega
  · omega
  · omega
  · have hmono := magnitudeOf_mono (show i.natAbs ≤ j.natAbs by omega)
    omega

end Binary64

end EntityGraph
