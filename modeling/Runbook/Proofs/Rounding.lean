import Mathlib.Tactic.Linarith
import Mathlib.Tactic.NormNum
import Mathlib.Tactic.Ring
import Runbook.Number.Shortest

/-!
Rounding to doubles. Every finite number is a significand times a power of two, its unit, and the
quotients that round to it are those in its interval: from half a unit below it to half a unit
above, or from a quarter of a unit below where the numbers below lie closer, ends included when the
significand is even.
-/
namespace Runbook.Number.Binary64

/-- A quotient within half of an integer rounds to it, at the very half only if it is even. -/
theorem roundToEven_eq {num den k : Nat} (hden : 0 < den) (hlow : 2 * (k * den) ≤ 2 * num + den)
    (hhigh : 2 * num ≤ 2 * (k * den) + den)
    (htie : k % 2 = 0 ∨ 2 * (k * den) < 2 * num + den ∧ 2 * num < 2 * (k * den) + den) :
    roundToEven num den = k := by
  have hsplit : num / den * den + num % den = num := Nat.div_add_mod' num den
  have hrest : num % den < den := Nat.mod_lt num hden
  have hceil : num / den ≤ k := by
    by_contra hlt
    have hmul := Nat.mul_le_mul_right den (Nat.lt_of_not_le hlt)
    rw [Nat.succ_mul] at hmul
    omega
  have hfloor : k ≤ num / den + 1 := by
    by_contra hlt
    have hmul := Nat.mul_le_mul_right den (Nat.lt_of_not_le hlt)
    rw [Nat.succ_mul, Nat.succ_mul] at hmul
    omega
  unfold roundToEven
  dsimp only
  rcases Nat.eq_or_lt_of_le hceil with hwhole | hless
  · rw [hwhole] at hsplit ⊢
    split
    · rfl
    · split
      · omega
      · rw [if_pos (by omega)]
  · have hnext : k = num / den + 1 := by omega
    have hmul : k * den = num / den * den + den := by rw [hnext, Nat.succ_mul]
    rw [if_neg (by omega)]
    split
    · exact hnext.symm
    · rw [if_neg (by omega)]
      exact hnext.symm

/-- The significand of a finite number: with its leading bit unless the number is too small. -/
def significand (x : Binary64) : Nat :=
  if x.exponent = 0 then x.fraction else 2 ^ 52 + x.fraction

/-- The distance between a finite number and the next. -/
def unit (x : Binary64) : Nat := 2 ^ (x.exponent - 1)

theorem unit_pos (x : Binary64) : 0 < x.unit := Nat.pow_pos (by decide)

theorem unit_le (x : Binary64) {n : Nat} (h : x.exponent ≤ n + 1) : x.unit ≤ 2 ^ n :=
  Nat.pow_le_pow_right Nat.two_pos (by omega)

theorem fraction_lt (x : Binary64) : x.fraction < 2 ^ 52 := Nat.mod_lt _ (by decide)

theorem significand_lt (x : Binary64) : x.significand < 2 ^ 53 := by
  have := x.fraction_lt
  unfold significand
  split <;> omega

theorem significand_mod (x : Binary64) : x.significand % 2 = x.fraction % 2 := by
  unfold significand
  split <;> omega

theorem magnitude_eq (x : Binary64) : x.magnitude = x.significand * x.unit := by
  unfold magnitude significand unit
  split
  · rename_i hzero
    rw [hzero]
    simp
  · rfl

/-- A number without its sign as a word: the places that its significand is shifted by, above the
significand. -/
def absWord (x : Binary64) : Nat := (x.exponent - 1) * 2 ^ 52 + x.significand

theorem absWord_eq (x : Binary64) : x.absWord = x.exponent * 2 ^ 52 + x.fraction := by
  unfold absWord significand
  split <;> omega

theorem isNegative_iff (x : Binary64) : x.isNegative = true ↔ 2 ^ 63 ≤ x.bits.toNat :=
  decide_eq_true_iff

/-- A number is its sign and its word. -/
theorem ofWord_absWord (x : Binary64) : ofWord x.isNegative x.absWord = x := by
  have hlt : x.bits.toNat < 2 ^ 64 := x.bits.toNat_lt
  have hword : (if x.isNegative then Nat.pow 2 63 + x.absWord else x.absWord) = x.bits.toNat := by
    have hexponent : x.exponent = x.bits.toNat / 2 ^ 52 % 2 ^ 11 := rfl
    have hfraction : x.fraction = x.bits.toNat % 2 ^ 52 := rfl
    rw [absWord_eq, hexponent, hfraction]
    have hsign : Nat.pow 2 63 = 2 ^ 63 := rfl
    by_cases hnegative : x.isNegative = true
    · rw [if_pos hnegative, hsign]
      have := x.isNegative_iff.mp hnegative
      omega
    · rw [if_neg hnegative]
      have := mt x.isNegative_iff.mpr hnegative
      omega
  unfold ofWord
  rw [hword, UInt64.ofNat_toNat]

/-- A number that is neither infinite nor not a number. -/
def IsFinite (x : Binary64) : Prop := x.exponent < 2047

theorem isFinite_of {x : Binary64} (hnan : x.isNaN = false) (hinf : x.isInfinite = false) :
    x.IsFinite := by
  have hlt : x.exponent < 2 ^ 11 := Nat.mod_lt _ (by decide)
  have hne : x.exponent ≠ 2047 := by
    intro heq
    simp only [isNaN, isInfinite, heq, beq_self_eq_true, Bool.true_and] at hnan hinf
    simp_all
  unfold IsFinite
  omega

theorem IsFinite.absWord_lt {x : Binary64} (h : x.IsFinite) : x.absWord < infinityWord := by
  have := x.fraction_lt
  unfold IsFinite at h
  rw [absWord_eq]
  simp only [infinityWord, Nat.pow_eq]
  omega

/-! The interval of quotients that round to a number. -/

/-- Whether the numbers below a number lie closer than those above. -/
def Tapers (x : Binary64) : Prop := x.fraction = 0 ∧ 1 < x.exponent

instance (x : Binary64) : Decidable x.Tapers := inferInstanceAs (Decidable (_ ∧ _))

theorem Tapers.significand_eq {x : Binary64} (h : x.Tapers) : x.significand = 2 ^ 52 := by
  unfold significand
  rw [if_neg (by have := h.2; omega), h.1, Nat.add_zero]

theorem neighbourhood_eq (x : Binary64) : x.neighbourhood =
    ⟨if x.Tapers then 4 * (x.significand * x.unit) - x.unit
      else 4 * (x.significand * x.unit) - 2 * x.unit,
      4 * (x.significand * x.unit), 4 * (x.significand * x.unit) + 2 * x.unit,
      x.fraction % 2 == 0⟩ := by
  have hunit : (if x.exponent = 0 then 1 else Nat.pow 2 (x.exponent - 1)) = x.unit := by
    unfold unit
    split
    · rename_i hzero
      rw [hzero]
      rfl
    · rfl
  have htapers : (x.fraction = 0 && 1 < x.exponent : Bool) = decide x.Tapers :=
    (Bool.decide_and (x.fraction = 0) (1 < x.exponent)).symm
  unfold neighbourhood
  simp only [hunit, magnitude_eq, htapers, decide_eq_true_eq]

/-- The interval of a positive number and its ends, for quotients over a denominator. -/
theorem neighbourhood_mul {x : Binary64} (hpos : 0 < x.significand) (den : Nat) :
    x.neighbourhood.low * den + (if x.Tapers then 1 else 2) * (den * x.unit) =
        4 * (x.significand * (den * x.unit)) ∧
      x.neighbourhood.value * den = 4 * (x.significand * (den * x.unit)) ∧
      x.neighbourhood.high * den =
        4 * (x.significand * (den * x.unit)) + 2 * (den * x.unit) := by
  have hunit : x.unit ≤ x.significand * x.unit := Nat.le_mul_of_pos_left _ hpos
  have hvalue : 4 * (x.significand * x.unit) * den = 4 * (x.significand * (den * x.unit)) := by
    ring
  rw [neighbourhood_eq]
  refine ⟨?_, hvalue, by ring⟩
  rw [← hvalue]
  dsimp only
  split
  · rw [Nat.one_mul, Nat.mul_comm den, ← Nat.add_mul, Nat.sub_add_cancel (by omega)]
  · rw [show 2 * (den * x.unit) = 2 * x.unit * den by ring, ← Nat.add_mul,
      Nat.sub_add_cancel (by omega)]

/-- What it means for a quotient to lie in the interval of a number, in four times the quotient. -/
theorem bounds_of_holds {x : Binary64} {num den : Nat}
    (h : x.neighbourhood.holds (4 * num) den = true) (hpos : 0 < x.significand) :
    4 * (x.significand * (den * x.unit)) ≤
        4 * num + (if x.Tapers then 1 else 2) * (den * x.unit) ∧
      4 * num ≤ 4 * (x.significand * (den * x.unit)) + 2 * (den * x.unit) ∧
      (x.fraction % 2 = 0 ∨ 4 * (x.significand * (den * x.unit)) < 4 * num + 2 * (den * x.unit) ∧
        4 * num < 4 * (x.significand * (den * x.unit)) + 2 * (den * x.unit)) := by
  obtain ⟨hlow, -, hhigh⟩ := neighbourhood_mul hpos den
  have hclosed : x.neighbourhood.closed = (x.fraction % 2 == 0) := rfl
  unfold Neighbourhood.holds at h
  rw [hhigh, hclosed] at h
  by_cases heven : x.fraction % 2 = 0
  · simp only [heven, beq_self_eq_true, if_true, Bool.and_eq_true, decide_eq_true_eq] at h
    omega
  · have hodd : (x.fraction % 2 == 0) = false := by simpa using heven
    have htapers : ¬ x.Tapers := fun h => heven (by rw [h.1])
    rw [if_neg htapers] at hlow ⊢
    simp only [hodd, Bool.false_eq_true, if_false, Bool.and_eq_true, decide_eq_true_eq] at h
    omega

/-- A quotient as large as a number is shifted by as many places. -/
theorem shift_eq {x : Binary64} {q : Nat} (hlow : x.exponent ≤ 1 ∨ 2 ^ 52 * x.unit ≤ q)
    (hhigh : q < 2 ^ 53 * x.unit) : q.log2 - 52 = x.exponent - 1 := by
  unfold unit at hlow hhigh
  rw [← Nat.pow_add] at hlow hhigh
  rcases Nat.eq_zero_or_pos q with rfl | hpos
  · have hzero : 0 < 2 ^ (52 + (x.exponent - 1)) := Nat.pow_pos (by decide)
    rw [Nat.log2_zero]
    omega
  · have hless : q.log2 < 53 + (x.exponent - 1) :=
      (Nat.log2_lt (Nat.ne_of_gt hpos)).mpr hhigh
    rcases hlow with hsmall | hlow
    · omega
    · have hmore : 52 + (x.exponent - 1) ≤ q.log2 :=
        (Nat.le_log2 (Nat.ne_of_gt hpos)).mpr hlow
      omega

/-- Every quotient in the interval of a number rounds to the number. -/
theorem roundedWord_eq {x : Binary64} (hfinite : x.IsFinite) {num den : Nat} (hden : 0 < den)
    (hpos : 0 < x.significand) (h : x.neighbourhood.holds (4 * num) den = true) :
    roundedWord num den = x.absWord := by
  obtain ⟨hlow, hhigh, htie⟩ := bounds_of_holds h hpos
  have hsize := Nat.mul_le_mul_right (den * x.unit) (Nat.le_sub_one_of_lt x.significand_lt)
  have hspan : 0 < den * x.unit := Nat.mul_pos hden x.unit_pos
  have hparity := x.significand_mod
  have hbelow : num / den < 2 ^ 53 * x.unit := by
    rw [Nat.div_lt_iff_lt_mul hden, Nat.mul_right_comm, Nat.mul_assoc, ]
    omega
  suffices hrounded : ∃ shift, (num / den).log2 - 52 = shift ∧
      shift * 2 ^ 52 + roundToEven num (den * 2 ^ shift) = x.absWord by
    obtain ⟨shift, hshift, hround⟩ := hrounded
    unfold roundedWord
    simp only [Nat.pow_eq, hshift, hround]
    exact Nat.min_eq_left (Nat.le_of_lt hfinite.absWord_lt)
  by_cases hsame : x.exponent ≤ 1 ∨ 2 ^ 52 * x.unit ≤ num / den
  · refine ⟨x.exponent - 1, shift_eq hsame hbelow, ?_⟩
    have hround : roundToEven num (den * x.unit) = x.significand := by
      refine roundToEven_eq hspan ?_ ?_ ?_
      · split at hlow <;> omega
      · omega
      · omega
    exact congrArg (_ + ·) hround
  · -- The quotient lies below a power of two that it rounds to.
    obtain ⟨hnormal, hless⟩ := not_or.mp hsame
    have hhalf : x.unit = 2 * 2 ^ (x.exponent - 2) := by
      rw [← Nat.pow_succ', unit]
      congr 1
      omega
    have hunder : num < 2 ^ 52 * (den * x.unit) := by
      rw [Nat.mul_left_comm, Nat.mul_comm, ← Nat.div_lt_iff_lt_mul hden]
      exact Nat.lt_of_not_le hless
    have hlead : x.significand = 2 ^ 52 + x.fraction := by
      unfold significand
      rw [if_neg (by omega)]
    have hleast : x.significand = 2 ^ 52 := by
      by_contra hne
      have hmul := Nat.mul_le_mul_right (den * x.unit) (show 2 ^ 52 + 1 ≤ x.significand by omega)
      split at hlow <;> omega
    have htapers : x.Tapers := ⟨by omega, by omega⟩
    rw [if_pos htapers, hleast] at hlow
    have hsplit : den * x.unit = 2 * (den * 2 ^ (x.exponent - 2)) := by rw [hhalf]; ring
    have hround : roundToEven num (den * 2 ^ (x.exponent - 2)) = 2 ^ 53 :=
      roundToEven_eq (Nat.mul_pos hden (Nat.pow_pos (by decide))) (by omega) (by omega)
        (Or.inl (by decide))
    refine ⟨x.exponent - 2, ?_, ?_⟩
    · have hlow' : 2 ^ (51 + (x.exponent - 1)) ≤ num / den := by
        rw [Nat.le_div_iff_mul_le hden, Nat.pow_add, Nat.mul_assoc, Nat.mul_comm _ den]
        change 2 ^ 51 * (den * x.unit) ≤ num
        omega
      have hne : num / den ≠ 0 := by
        have : 0 < 2 ^ (51 + (x.exponent - 1)) := Nat.pow_pos (by decide)
        omega
      have hlog : (num / den).log2 = 51 + (x.exponent - 1) := by
        rw [Nat.log2_eq_iff hne]
        refine ⟨hlow', ?_⟩
        rw [show 51 + (x.exponent - 1) + 1 = 52 + (x.exponent - 1) by omega, Nat.pow_add]
        exact Nat.lt_of_not_le hless
      omega
    · rw [hround, absWord, hleast]
      omega

end Runbook.Number.Binary64
