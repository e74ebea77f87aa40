import Mathlib.Tactic.Linarith
import Mathlib.Tactic.Ring
import Runbook.Proofs.Digits
import Runbook.Proofs.Rounding

/-!
The shortest decimal of a double reads back as the same double. A decimal in the interval of a
number is rounded to the number, whichever digits and exponent it is written with; and a grid of
seventeen digits is always fine enough to have a decimal in the interval.
-/
namespace Runbook.Number

open Binary64

namespace Binary64.Neighbourhood

/-- Whether a quotient lies in an interval depends on its value only. -/
theorem holds_congr (n : Neighbourhood) {num den num' den' : Nat} (hden : 0 < den)
    (hden' : 0 < den') (hsame : num * den' = num' * den) :
    n.holds num den = n.holds num' den' := by
  have hle : ∀ a, a * den ≤ num ↔ a * den' ≤ num' := fun a => by
    rw [← Nat.mul_le_mul_right_iff hden', hsame, Nat.mul_right_comm, Nat.mul_le_mul_right_iff hden]
  have hge : ∀ a, num ≤ a * den ↔ num' ≤ a * den' := fun a => by
    rw [← Nat.mul_le_mul_right_iff hden', hsame, Nat.mul_right_comm, Nat.mul_le_mul_right_iff hden]
  have hlt : ∀ a, a * den < num ↔ a * den' < num' := fun a => by
    rw [← Nat.not_le, ← Nat.not_le, hge]
  have hgt : ∀ a, num < a * den ↔ num' < a * den' := fun a => by
    rw [← Nat.not_le, ← Nat.not_le, hle]
  unfold holds
  simp only [hle, hge, hlt, hgt]

end Binary64.Neighbourhood

namespace Decimal

/-- What a decimal has above the line, in the least positive double. -/
def num (d : Decimal) : Nat := d.digits * 10 ^ d.exponent.toNat * grain

/-- What a decimal has below the line. -/
def den (d : Decimal) : Nat := 10 ^ (-d.exponent).toNat

theorem den_pos (d : Decimal) : 0 < d.den := Nat.pow_pos (by decide)

theorem grain_pos : 0 < grain := by decide +kernel

/-- Two decimals stand for one number. -/
def SameValue (d d' : Decimal) : Prop :=
  d.digits * 10 ^ d.exponent.toNat * d'.den = d'.digits * 10 ^ d'.exponent.toNat * d.den

/-- A decimal in the interval of a number. -/
structure Fits (d : Decimal) (x : Binary64) : Prop where
  positive : 0 < d.digits
  inside : x.neighbourhood.holds (4 * d.num) d.den = true

namespace Fits

variable {d d' : Decimal} {x : Binary64}

theorem congr (h : d.Fits x) (hsame : d.SameValue d') (hpos : 0 < d'.digits) : d'.Fits x := by
  refine ⟨hpos, ?_⟩
  rw [← h.inside]
  refine (Neighbourhood.holds_congr _ d.den_pos d'.den_pos ?_).symm
  unfold num
  rw [Nat.mul_assoc, Nat.mul_right_comm _ grain, hsame]
  ring

/-- A decimal that fits a number is not far below it. -/
theorem den_le (h : d.Fits x) (hpos : 0 < x.significand) : d.den ≤ 2 * d.num := by
  obtain ⟨hlow, -, -⟩ := bounds_of_holds h.inside hpos
  have hunit : d.den ≤ d.den * x.unit := Nat.le_mul_of_pos_right _ x.unit_pos
  have hmul := Nat.mul_le_mul_right (d.den * x.unit) (show 1 ≤ x.significand from hpos)
  split at hlow <;> omega

/-- A decimal that fits a finite number is not far above it. -/
theorem num_le (h : d.Fits x) (hpos : 0 < x.significand) (hfinite : x.IsFinite) :
    d.num ≤ 2 ^ 53 * 2 ^ 2045 * d.den := by
  obtain ⟨-, hhigh, -⟩ := bounds_of_holds h.inside hpos
  have hsize := Nat.mul_le_mul_right (d.den * x.unit) (Nat.le_sub_one_of_lt x.significand_lt)
  have hunit : x.unit ≤ 2 ^ 2045 := x.unit_le (by unfold IsFinite at hfinite; omega)
  calc d.num ≤ 2 ^ 53 * (d.den * x.unit) := by omega
    _ ≤ 2 ^ 53 * (d.den * 2 ^ 2045) :=
      Nat.mul_le_mul_left _ (Nat.mul_le_mul_left _ hunit)
    _ = 2 ^ 53 * 2 ^ 2045 * d.den := by rw [Nat.mul_comm d.den, Nat.mul_assoc]

/-- A decimal that fits a finite number is below the power of ten that counts as infinite. -/
theorem lt_of_finite (h : d.Fits x) (hpos : 0 < x.significand) (hfinite : x.IsFinite) :
    ¬ 310 < d.exponent + (toString d.digits).length := by
  intro hfar
  rw [length_toString] at hfar
  have hlead : 10 ^ ((Nat.toDigits 10 d.digits).length - 1) ≤ d.digits :=
    pow_le_of_length h.positive (Nat.sub_lt Nat.length_toDigits_pos Nat.one_pos)
  have hplaces : 310 + (-d.exponent).toNat ≤
      (Nat.toDigits 10 d.digits).length - 1 + d.exponent.toNat := by omega
  have hmuch : 10 ^ 310 * d.den * grain ≤ d.num := by
    unfold den num
    rw [← Nat.pow_add]
    refine Nat.mul_le_mul_right _ ?_
    calc 10 ^ (310 + (-d.exponent).toNat)
        ≤ 10 ^ ((Nat.toDigits 10 d.digits).length - 1 + d.exponent.toNat) :=
          Nat.pow_le_pow_right (by decide) hplaces
      _ = 10 ^ ((Nat.toDigits 10 d.digits).length - 1) * 10 ^ d.exponent.toNat := Nat.pow_add ..
      _ ≤ d.digits * 10 ^ d.exponent.toNat := Nat.mul_le_mul_right _ hlead
  have hbound := Nat.le_trans hmuch (h.num_le hpos hfinite)
  rw [Nat.mul_right_comm] at hbound
  have himpossible : 10 ^ 310 * grain ≤ 2 ^ 53 * 2 ^ 2045 :=
    Nat.le_of_mul_le_mul_right hbound d.den_pos
  exact absurd himpossible (by decide +kernel)

/-- A decimal that fits a number is above the power of ten that counts as zero. -/
theorem lt_of_positive (h : d.Fits x) (hpos : 0 < x.significand) :
    ¬ d.exponent + (toString d.digits).length < -330 := by
  intro hfar
  rw [length_toString] at hfar
  have hdigits : d.digits < 10 ^ (Nat.toDigits 10 d.digits).length := lt_pow_length _
  have hplaces : 331 + ((Nat.toDigits 10 d.digits).length + d.exponent.toNat) ≤
      (-d.exponent).toNat := by omega
  generalize hsize : 10 ^ ((Nat.toDigits 10 d.digits).length + d.exponent.toNat) = size
  have hsizepos : 0 < size := hsize ▸ Nat.pow_pos (by decide)
  have hlittle : d.num ≤ size * grain := by
    unfold num
    rw [← hsize, Nat.pow_add]
    exact Nat.mul_le_mul_right _ (Nat.mul_le_mul_right _ (Nat.le_of_lt hdigits))
  have hmuch : 10 ^ 331 * size ≤ d.den := by
    rw [← hsize, ← Nat.pow_add]
    exact Nat.pow_le_pow_right (by decide) hplaces
  have hbound : 10 ^ 331 * size ≤ 2 * grain * size := by
    have := h.den_le hpos
    rw [Nat.mul_assoc, Nat.mul_comm grain]
    omega
  have himpossible : 10 ^ 331 ≤ 2 * grain := Nat.le_of_mul_le_mul_right hbound hsizepos
  exact absurd himpossible (by decide +kernel)

/-- A decimal that fits a finite number is read as that number. -/
theorem ofDecimal_eq (h : d.Fits x) (hfinite : x.IsFinite) (hpos : 0 < x.significand)
    (negative : Bool) : ofDecimal negative d.digits d.exponent = ofWord negative x.absWord := by
  have hword : roundedWord d.num d.den = x.absWord :=
    roundedWord_eq hfinite d.den_pos hpos h.inside
  unfold ofDecimal
  dsimp only
  rw [if_neg (Nat.ne_of_gt h.positive), if_neg (h.lt_of_finite hpos hfinite),
    if_neg (h.lt_of_positive hpos), ← hword]
  unfold ofQuotient ofScaled
  split
  · rename_i hwhole
    have hone : d.den = 1 := by
      unfold den
      rw [show (-d.exponent).toNat = 0 by omega, Nat.pow_zero]
    rw [hone]
    rfl
  · rename_i hplaces
    have hone : d.num = d.digits * grain := by
      unfold num
      rw [show d.exponent.toNat = 0 by omega, Nat.pow_zero, Nat.mul_one]
    rw [hone]
    rfl

end Fits

/-! The grids that are tried. -/

/-- What is found on a grid fits. -/
theorem fits_of_withDigits? {x : Binary64} {lead : Int} {count : Nat} {d : Decimal}
    (h : withDigits? x.neighbourhood lead count = some d) :
    d.Fits x ∧ d.exponent = lead - (count - 1 : Nat) := by
  have hfits : ∀ digits, 0 < digits →
      x.neighbourhood.holds
        (digits * (4 * grain * Nat.pow 10 (lead - (count - 1 : Nat)).toNat))
        (Nat.pow 10 (-(lead - (count - 1 : Nat))).toNat) = true →
      Fits ⟨digits, lead - (count - 1 : Nat)⟩ x := fun digits hpos hinside => by
    have hnum : 4 * num ⟨digits, lead - (count - 1 : Nat)⟩ =
        digits * (4 * grain * Nat.pow 10 (lead - (count - 1 : Nat)).toNat) := by
      unfold num
      rw [Nat.pow_eq]
      ring
    refine ⟨hpos, ?_⟩
    rw [hnum]
    exact hinside
  unfold withDigits? at h
  dsimp only at h
  split at h
  · rename_i hboth
    simp only [Bool.and_eq_true, bne_iff_ne] at hboth
    obtain ⟨⟨hlower, hne⟩, hupper⟩ := hboth
    cases h
    refine ⟨?_, rfl⟩
    split
    · exact hfits _ (Nat.pos_of_ne_zero hne) hlower
    · exact hfits _ (Nat.succ_pos _) hupper
  · split at h
    · rename_i hboth
      simp only [Bool.and_eq_true, bne_iff_ne] at hboth
      cases h
      exact ⟨hfits _ (Nat.pos_of_ne_zero hboth.2) hboth.1, rfl⟩
    · split at h
      · rename_i hupper
        cases h
        exact ⟨hfits _ (Nat.succ_pos _) hupper, rfl⟩
      · cases h

/-- The leading digit of a positive number stands where its exponent says. -/
theorem pow_leading_le {x : Binary64} (hpos : 0 < x.magnitude) :
    0 ≤ leading x + 400 ∧ 10 ^ (leading x + 400).toNat * grain ≤ x.magnitude * 10 ^ 400 := by
  have hgrain : grain ≤ Nat.pow 10 400 := by decide +kernel
  have hshifted : 0 < x.magnitude * Nat.pow 10 400 / grain :=
    Nat.div_pos (Nat.le_trans hgrain (Nat.le_mul_of_pos_left _ hpos)) grain_pos
  have hleading : leading x =
      ((toString (x.magnitude * Nat.pow 10 400 / grain)).length : Int) - 401 := rfl
  rw [length_toString] at hleading
  have hlength := Nat.length_toDigits_pos (b := 10) (n := x.magnitude * Nat.pow 10 400 / grain)
  have hpow := pow_le_of_length hshifted (Nat.sub_lt hlength Nat.one_pos)
  refine ⟨by omega, ?_⟩
  rw [show (leading x + 400).toNat =
    (Nat.toDigits 10 (x.magnitude * Nat.pow 10 400 / grain)).length - 1 by omega]
  rw [Nat.le_div_iff_mul_le grain_pos] at hpow
  have hsame : ∀ n, Nat.pow 10 n = 10 ^ n := fun _ => rfl
  rw [hsame 400] at hpow ⊢
  generalize 10 ^ 400 = size at hpow ⊢
  exact hpow

/-- A grid of seventeen digits has steps that are small beside the number. -/
theorem step_le {x : Binary64} (hpos : 0 < x.magnitude) :
    10 ^ (leading x - 16).toNat * grain * 10 ^ 16 ≤
      x.magnitude * 10 ^ (-(leading x - 16)).toNat := by
  obtain ⟨hlead, hpow⟩ := pow_leading_le hpos
  refine Nat.le_of_mul_le_mul_right (c := 10 ^ 400) ?_ (Nat.pow_pos (by decide))
  have hexponents : (leading x - 16).toNat + 16 + 400 =
      (leading x + 400).toNat + (-(leading x - 16)).toNat := by omega
  calc 10 ^ (leading x - 16).toNat * grain * 10 ^ 16 * 10 ^ 400
      = 10 ^ ((leading x - 16).toNat + 16 + 400) * grain := by
        rw [Nat.pow_add, Nat.pow_add, Nat.mul_right_comm _ grain, Nat.mul_right_comm _ grain]
    _ = 10 ^ (leading x + 400).toNat * grain * 10 ^ (-(leading x - 16)).toNat := by
        rw [hexponents, Nat.pow_add, Nat.mul_right_comm]
    _ ≤ x.magnitude * 10 ^ 400 * 10 ^ (-(leading x - 16)).toNat := Nat.mul_le_mul_right _ hpow
    _ = x.magnitude * 10 ^ (-(leading x - 16)).toNat * 10 ^ 400 := Nat.mul_right_comm ..

/-- One of two neighbours on a grid lies in an interval that is wider than a step. -/
theorem holds_or_holds {n : Neighbourhood} {lower step den : Nat}
    (hlow : n.low * den < n.value * den) (hhigh : n.value * den < n.high * den)
    (hwide : n.low * den + step < n.high * den)
    (hlower : lower * step ≤ n.value * den) (hupper : n.value * den < (lower + 1) * step) :
    n.holds (lower * step) den = true ∨ n.holds ((lower + 1) * step) den = true := by
  rw [Nat.succ_mul] at hupper ⊢
  unfold Neighbourhood.holds
  cases n.closed with
  | true =>
    simp only [if_true, Bool.and_eq_true, decide_eq_true_eq]
    omega
  | false =>
    simp only [Bool.false_eq_true, if_false, Bool.and_eq_true, decide_eq_true_eq]
    omega

/-- Seventeen digits are always enough. -/
theorem isSome_withDigits? {x : Binary64} (hpos : 0 < x.significand) :
    (withDigits? x.neighbourhood (leading x) 17).isSome = true := by
  have hmagnitude : 0 < x.magnitude := by
    rw [magnitude_eq]
    exact Nat.mul_pos hpos x.unit_pos
  unfold withDigits?
  dsimp only
  generalize hden : Nat.pow 10 (-(leading x - (17 - 1 : Nat))).toNat = den
  generalize hstep : 4 * grain * Nat.pow 10 (leading x - (17 - 1 : Nat)).toNat = step
  generalize hdiv : x.neighbourhood.value * den / step = lower
  have hdenpos : 0 < den := hden ▸ Nat.pow_pos (by decide)
  have hsteppos : 0 < step :=
    hstep ▸ Nat.mul_pos (Nat.mul_pos (by decide) grain_pos) (Nat.pow_pos (by decide))
  have hspan : 0 < den * x.unit := Nat.mul_pos hdenpos x.unit_pos
  obtain ⟨hlow, hvalue, hhigh⟩ := neighbourhood_mul hpos den
  have hsmall : step * 10 ^ 16 ≤ x.neighbourhood.value * den := by
    have hle := Nat.mul_le_mul_left 4 (step_le hmagnitude)
    have hquad : x.neighbourhood.value = 4 * x.magnitude := rfl
    rw [← hstep, ← hden, hquad, Nat.mul_assoc 4, Nat.mul_assoc 4, Nat.mul_assoc 4,
      Nat.mul_comm grain]
    exact hle
  have hsize := Nat.mul_le_mul_right (den * x.unit) (Nat.le_sub_one_of_lt x.significand_lt)
  have hlower : lower * step ≤ x.neighbourhood.value * den := by
    rw [← hdiv]
    exact Nat.div_mul_le_self ..
  have hupper : x.neighbourhood.value * den < (lower + 1) * step := by
    rw [← hdiv]
    exact (Nat.div_lt_iff_lt_mul hsteppos).mp (Nat.lt_succ_self _)
  have hne : lower ≠ 0 := by
    rintro rfl
    omega
  have hwide : x.neighbourhood.low * den + step < x.neighbourhood.high * den := by
    by_cases htapers : x.Tapers
    · rw [if_pos htapers] at hlow
      rw [htapers.significand_eq] at hlow hvalue hhigh
      omega
    · rw [if_neg htapers] at hlow
      omega
  have hsides := holds_or_holds (by split at hlow <;> omega) (by omega) hwide hlower hupper
  have hnonzero : (lower != 0) = true := bne_iff_ne.mpr hne
  rw [hnonzero, Bool.and_true]
  split
  · rfl
  · split
    · rfl
    · rename_i hfails
      rw [if_pos (hsides.resolve_left hfails)]
      rfl

/-- The shortest decimal of a positive number fits it. -/
theorem fits_shortest {x : Binary64} (hpos : 0 < x.significand) :
    (shortest x).Fits x ∧ -416 ≤ (shortest x).exponent := by
  have hlead : 0 ≤ leading x + 400 := (pow_leading_le (by
    rw [magnitude_eq]
    exact Nat.mul_pos hpos x.unit_pos)).1
  unfold shortest
  dsimp only
  split
  · rename_i d hfound
    obtain ⟨i, hi, hgrid⟩ := List.exists_of_findSome?_eq_some hfound
    obtain ⟨hfits, hexponent⟩ := fits_of_withDigits? hgrid
    have := List.mem_range.mp hi
    exact ⟨hfits, by omega⟩
  · rename_i hnone
    have hlast := List.findSome?_eq_none_iff.mp hnone 16 (by simp)
    have hsome := isSome_withDigits? hpos
    rw [hlast] at hsome
    cases hsome

end Decimal

end Runbook.Number
