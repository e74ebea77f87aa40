import Runbook.Proofs.Meaning
import Runbook.Proofs.ShortestDigits

/-!
Integers as doubles. The text of an integer is read as the double nearest to it, however many digits
it has. That double is the integer itself exactly where the integer is some 53 bits with zeros
behind them, not so many that it is greater than every double; from there on it is infinite.
-/
namespace Runbook.Number

open Text

namespace Binary64

variable {negative : Bool} {w : Nat}

/-- The reciprocal of the least positive number, its power kept as a number that is not computed. -/
theorem exists_grain_eq : ∃ b, b = 1074 ∧ grain = 2 ^ b := ⟨1074, rfl, by decide +kernel⟩

/-! The parts of a word. -/

theorem toNat_ofWord (h : w < 2 ^ 63) :
    (ofWord negative w).bits.toNat = (if negative then 2 ^ 63 else 0) + w := by
  have hsign : Nat.pow 2 63 = 2 ^ 63 := rfl
  unfold ofWord
  rw [hsign, UInt64.toNat_ofNat']
  split <;> omega

theorem exponent_ofWord (h : w < 2 ^ 63) : (ofWord negative w).exponent = w / 2 ^ 52 := by
  have hexponent : (ofWord negative w).exponent =
      (ofWord negative w).bits.toNat / 2 ^ 52 % 2 ^ 11 := rfl
  rw [hexponent, toNat_ofWord h]
  split <;> omega

theorem fraction_ofWord (h : w < 2 ^ 63) : (ofWord negative w).fraction = w % 2 ^ 52 := by
  have hfraction : (ofWord negative w).fraction =
      (ofWord negative w).bits.toNat % 2 ^ 52 := rfl
  rw [hfraction, toNat_ofWord h]
  split <;> omega

theorem isNegative_ofWord (h : w < 2 ^ 63) : (ofWord negative w).isNegative = negative := by
  rw [Bool.eq_iff_iff, isNegative_iff, toNat_ofWord h]
  cases negative with
  | false =>
    refine iff_of_false (fun hle => ?_) nofun
    rw [if_neg (by decide)] at hle
    omega
  | true =>
    refine iff_of_true ?_ rfl
    rw [if_pos rfl]
    exact Nat.le_add_right ..

/-- A significand of 53 bits and an exponent that is not too great make a finite number. -/
theorem ofWord_significand (negative : Bool) {k u : Nat} (hlow : 2 ^ 52 ≤ k) (hhigh : k < 2 ^ 53)
    (hu : u ≤ 2045) :
    (ofWord negative (u * 2 ^ 52 + k)).IsFinite ∧
      (ofWord negative (u * 2 ^ 52 + k)).magnitude = k * 2 ^ u ∧
      (ofWord negative (u * 2 ^ 52 + k)).isNegative = negative := by
  have hword : u * 2 ^ 52 + k < 2 ^ 63 := by omega
  have hexponent : (ofWord negative (u * 2 ^ 52 + k)).exponent = u + 1 := by
    rw [exponent_ofWord hword]
    omega
  have hfraction : (ofWord negative (u * 2 ^ 52 + k)).fraction = k - 2 ^ 52 := by
    rw [fraction_ofWord hword]
    omega
  refine ⟨?_, ?_, isNegative_ofWord hword⟩
  · unfold IsFinite
    rw [hexponent]
    omega
  · unfold magnitude
    rw [hexponent, hfraction, if_neg (Nat.succ_ne_zero u)]
    have hwhole : Nat.pow 2 52 + (k - 2 ^ 52) = k := Nat.add_sub_cancel' hlow
    rw [hwhole]
    rfl

theorem IsFinite.ofBinary64?_eq {x : Binary64} (h : x.IsFinite) :
    Extent.ofBinary64? x = some (.finite x.scaled) := by
  have hexponent : (x.exponent == 2047) = false := beq_eq_false_iff_ne.mpr (Nat.ne_of_lt h)
  unfold Extent.ofBinary64? isNaN isInfinite
  rw [hexponent]
  rfl

/-- A finite number is rounded to itself. -/
theorem ofScaled_magnitude {x : Binary64} (hfinite : x.IsFinite) (hpos : 0 < x.significand) :
    ofScaled x.isNegative x.magnitude 1 = x := by
  have hinside : x.neighbourhood.holds (4 * x.magnitude) 1 = true := by
    obtain ⟨hlow, hvalue, hhigh⟩ := neighbourhood_mul hpos 1
    have hunit := x.unit_pos
    rw [Nat.one_mul, ← magnitude_eq] at hlow hvalue hhigh
    unfold Neighbourhood.holds
    rw [hhigh]
    split
    · rw [Bool.and_eq_true, decide_eq_true_eq, decide_eq_true_eq]
      omega
    · rw [Bool.and_eq_true, decide_eq_true_eq, decide_eq_true_eq]
      split at hlow <;> omega
  unfold ofScaled
  rw [roundedWord_eq hfinite Nat.one_pos hpos hinside, ofWord_absWord]

/-! Numbers that are too great. -/

theorem le_roundToEven (num den : Nat) : num / den ≤ roundToEven num den := by
  unfold roundToEven
  dsimp only
  split
  · exact le_rfl
  · split
    · exact Nat.le_succ _
    · split
      · exact le_rfl
      · exact Nat.le_succ _

theorem roundedWord_le (num den : Nat) : roundedWord num den ≤ infinityWord := Nat.min_le_right ..

theorem add_le_log2_mul_grain {k a : Nat} (h : 2 ^ a ≤ k) : a + 1074 ≤ (k * grain).log2 := by
  have hpos : 0 < 2 ^ a := Nat.pow_pos Nat.two_pos
  have hne : k * grain ≠ 0 := Nat.mul_ne_zero (by omega) (Nat.ne_of_gt Decimal.grain_pos)
  obtain ⟨b, hb, hgrain⟩ := exists_grain_eq
  rw [← hb, Nat.le_log2 hne, Nat.pow_add, hgrain]
  exact Nat.mul_le_mul_right _ h

/-- From two to the 1024 on every number is rounded to infinity. -/
theorem roundedWord_of_le {k : Nat} (h : 2 ^ 1024 ≤ k) :
    roundedWord (k * grain) 1 = infinityWord := by
  have hlog := add_le_log2_mul_grain h
  have hne : k * grain ≠ 0 := by
    intro hzero
    rw [hzero, Nat.log2_zero] at hlog
    omega
  have hlead : 2 ^ 52 ≤ k * grain / 2 ^ ((k * grain).log2 - 52) := by
    rw [Nat.le_div_iff_mul_le (Nat.pow_pos Nat.two_pos), ← Nat.pow_add,
      show 52 + ((k * grain).log2 - 52) = (k * grain).log2 by omega]
    exact Nat.log2_self_le hne
  have hround := le_roundToEven (k * grain) (2 ^ ((k * grain).log2 - 52))
  unfold roundedWord
  simp only [Nat.div_one, Nat.one_mul, Nat.pow_eq]
  refine Nat.min_eq_right ?_
  simp only [infinityWord, Nat.pow_eq]
  omega

theorem ofInt_of_le {n : Int} (h : 2 ^ 1024 ≤ n.natAbs) :
    ofInt n = infinity (decide (n < 0)) := by
  unfold ofInt ofQuotient ofScaled infinity
  rw [roundedWord_of_le h]

/-- What an integer is rounded to is a number, which may be infinite. -/
theorem isNaN_ofInt (n : Int) : (ofInt n).isNaN = false := by
  have hle := roundedWord_le (n.natAbs * grain) 1
  have hword : roundedWord (n.natAbs * grain) 1 < 2 ^ 63 := Nat.lt_of_le_of_lt hle (by decide)
  unfold ofInt ofQuotient ofScaled isNaN
  rw [exponent_ofWord hword, fraction_ofWord hword]
  simp only [infinityWord, Nat.pow_eq] at hle
  by_cases hexponent : roundedWord (n.natAbs * grain) 1 / 2 ^ 52 = 2047
  · have hfraction : roundedWord (n.natAbs * grain) 1 % 2 ^ 52 = 0 := by omega
    rw [hfraction, bne_self_eq_false, Bool.and_false]
  · rw [beq_eq_false_iff_ne.mpr hexponent, Bool.false_and]

end Binary64

/-! Integers that are doubles. -/

open Binary64

/-- An integer of 53 bits with zeros behind them, not too great for a double. -/
def FitsDouble (n : Int) : Prop := ∃ k j, k < 2 ^ 53 ∧ j ≤ 971 ∧ n.natAbs = k * 2 ^ j

theorem fitsDouble_of_natAbs_le {n : Int} (h : n.natAbs ≤ 2 ^ 53) : FitsDouble n := by
  rcases Nat.lt_or_eq_of_le h with hlt | heq
  · exact ⟨n.natAbs, 0, hlt, Nat.zero_le _, (Nat.mul_one _).symm⟩
  · exact ⟨2 ^ 52, 1, by decide, by decide, heq⟩

/-- What an integer is when it is rounded. -/
theorem exists_extent_ofInt (n : Int) : ∃ e, Extent.ofBinary64? (ofInt n) = some e := by
  unfold Extent.ofBinary64?
  rw [isNaN_ofInt]
  split
  · contradiction
  · split <;> exact ⟨_, rfl⟩

theorem extent_ofInt_of_fits {n : Int} (h : FitsDouble n) :
    Extent.ofBinary64? (ofInt n) = some (.ofInt n) := by
  obtain ⟨k, j, hk, hj, hn⟩ := h
  rcases Nat.eq_zero_or_pos k with rfl | hpos
  · obtain rfl : n = 0 := by omega
    decide +kernel
  -- The bits of the integer are shifted up to the leading place of a significand.
  obtain ⟨s, hs⟩ : ∃ s, s = 52 - k.log2 := ⟨_, rfl⟩
  have hlog : k.log2 < 53 := (Nat.log2_lt (Nat.ne_of_gt hpos)).mpr hk
  have hlow : 2 ^ 52 ≤ k * 2 ^ s := by
    calc 2 ^ 52 = 2 ^ k.log2 * 2 ^ s := by rw [← Nat.pow_add]; congr 1; omega
      _ ≤ k * 2 ^ s := Nat.mul_le_mul_right _ (Nat.log2_self_le (Nat.ne_of_gt hpos))
  have hhigh : k * 2 ^ s < 2 ^ 53 := by
    calc k * 2 ^ s < 2 ^ (k.log2 + 1) * 2 ^ s :=
          Nat.mul_lt_mul_of_pos_right Nat.lt_log2_self (Nat.pow_pos Nat.two_pos)
      _ = 2 ^ 53 := by rw [← Nat.pow_add]; congr 1; omega
  have hsize : n.natAbs * grain = k * 2 ^ s * 2 ^ (j + 1074 - s) := by
    obtain ⟨b, hb, hgrain⟩ := exists_grain_eq
    rw [hn, ← hb, hgrain, Nat.mul_assoc, Nat.mul_assoc, ← Nat.pow_add, ← Nat.pow_add,
      show s + (j + b - s) = j + b by omega]
  obtain ⟨hfinite, hmagnitude, hsign⟩ := ofWord_significand (decide (n < 0)) hlow
    hhigh (show j + 1074 - s ≤ 2045 by omega)
  generalize ofWord (decide (n < 0)) ((j + 1074 - s) * 2 ^ 52 + k * 2 ^ s) = x at *
  have hsignificand : 0 < x.significand := by
    by_contra hzero
    rw [magnitude_eq, Nat.eq_zero_of_not_pos hzero, Nat.zero_mul] at hmagnitude
    have : 0 < k * 2 ^ s * 2 ^ (j + 1074 - s) :=
      Nat.mul_pos (by omega) (Nat.pow_pos Nat.two_pos)
    omega
  have hround : ofInt n = x := by
    unfold ofInt ofQuotient
    rw [hsize, ← hmagnitude, ← hsign]
    exact ofScaled_magnitude hfinite hsignificand
  have hscaled : x.scaled = n * grain := by
    unfold scaled
    rw [hsign, hmagnitude, ← hsize]
    by_cases hnegative : n < 0
    · rw [if_pos (decide_eq_true hnegative), Int.natCast_mul,
        Int.ofNat_natAbs_of_nonpos (by omega), Int.neg_mul, Int.neg_neg]
    · rw [if_neg (by simpa using hnegative), Int.natCast_mul, Int.natAbs_of_nonneg (by omega)]
  rw [hround, hfinite.ofBinary64?_eq, hscaled]
  rfl

/-- A double that is an integer has 53 bits of it and zeros behind them. -/
theorem fitsDouble_of_extent {x : Binary64} {n : Int}
    (h : Extent.ofBinary64? x = some (.ofInt n)) : FitsDouble n := by
  unfold Extent.ofBinary64? at h
  split at h
  · cases h
  · rename_i hnan
    split at h
    · split at h <;> cases h
    · rename_i hinfinite
      have hfinite : x.IsFinite :=
        isFinite_of (Bool.eq_false_iff.mpr hnan) (Bool.eq_false_iff.mpr hinfinite)
      have hscaled : x.scaled = n * grain := Extent.finite.inj (Option.some.inj h)
      have hmagnitude : x.significand * x.unit = n.natAbs * grain := by
        rw [← magnitude_eq, ← Int.natAbs_natCast grain, ← Int.natAbs_mul, ← hscaled]
        unfold scaled
        split <;> omega
      obtain ⟨b, hb, hgrain⟩ := exists_grain_eq
      unfold IsFinite at hfinite
      rw [hgrain, unit] at hmagnitude
      rcases Nat.le_total b (x.exponent - 1) with hle | hle
      · refine ⟨x.significand, x.exponent - 1 - b, x.significand_lt, by omega, ?_⟩
        refine Nat.eq_of_mul_eq_mul_right (Nat.pow_pos Nat.two_pos (n := b)) ?_
        rw [← hmagnitude, Nat.mul_assoc, ← Nat.pow_add, Nat.sub_add_cancel hle]
      · have hsignificand : x.significand = n.natAbs * 2 ^ (b - (x.exponent - 1)) := by
          refine Nat.eq_of_mul_eq_mul_right (Nat.pow_pos Nat.two_pos (n := x.exponent - 1)) ?_
          rw [hmagnitude, Nat.mul_assoc, ← Nat.pow_add, Nat.sub_add_cancel hle]
        have hsmall : n.natAbs ≤ x.significand := by
          rw [hsignificand]
          exact Nat.le_mul_of_pos_right _ (Nat.pow_pos Nat.two_pos)
        exact ⟨n.natAbs, 0, Nat.lt_of_le_of_lt hsmall x.significand_lt, Nat.zero_le _,
          (Nat.mul_one _).symm⟩

/-- An integer is rounded to itself exactly where it fits a double. -/
theorem extent_ofInt_iff {n : Int} :
    Extent.ofBinary64? (ofInt n) = some (.ofInt n) ↔ FitsDouble n :=
  ⟨fitsDouble_of_extent, extent_ofInt_of_fits⟩

/-- From two to the 1024 on an integer is rounded to what is greater, or less, than all integers. -/
theorem extent_ofInt_of_le {n : Int} (h : 2 ^ 1024 ≤ n.natAbs) :
    Extent.ofBinary64? (ofInt n) = some (if n < 0 then .below else .above) := by
  rw [ofInt_of_le h]
  by_cases hnegative : n < 0
  · rw [if_pos hnegative, decide_eq_true hnegative]
    decide +kernel
  · rw [if_neg hnegative, decide_eq_false hnegative]
    decide +kernel

/-! The text of an integer. -/

theorem digitValue?_of_isAsciiDigit {c : Char} (h : isAsciiDigit c = true) :
    digitValue? c = some (c.toNat - 48) := by
  obtain ⟨hlow, hhigh⟩ := isAsciiDigit_iff.mp h
  have hclass : '0' ≤ c ∧ c ≤ '9' := by
    unfold isAsciiDigit at h
    simpa using h
  unfold digitValue?
  dsimp only
  rw [if_pos (show c.toNat < 128 by omega), if_pos hclass]

theorem isDigit_of_isAsciiDigit {c : Char} (h : isAsciiDigit c = true) : isDigit c = true := by
  unfold isDigit
  rw [digitValue?_of_isAsciiDigit h]
  rfl

/-- ASCII digits are plain as they are. -/
theorem plainDigits?_of_allDigits {cs : List Char} (h : AllDigits cs) (after : Bool) :
    plainDigits? after cs = some cs := by
  induction cs generalizing after with
  | nil => rfl
  | cons c cs ih =>
    have hc := h c (List.mem_cons_self ..)
    have hne : c ≠ '_' := by
      rintro rfl
      exact absurd hc (by decide)
    have hsame : Char.ofNat (48 + (c.toNat - 48)) = c := by
      rw [Nat.add_sub_cancel' (isAsciiDigit_iff.mp hc).1, Char.ofNat_toNat]
    have hrest := ih (h.of_subset (List.subset_cons_self c cs)) true
    unfold plainDigits?
    split
    · rename_i heq
      cases heq
    · rename_i heq
      exact absurd (List.cons.inj heq).1 hne
    · rename_i heq
      obtain ⟨rfl, rfl⟩ := List.cons.inj heq
      rw [if_neg hne, digitValue?_of_isAsciiDigit hc]
      dsimp only
      rw [hrest, Option.map_some, hsame]

theorem plainDigits?_minus {cs : List Char} (h : AllDigits cs) :
    plainDigits? false ('-' :: cs) = some ('-' :: cs) := by
  have hminus : plainDigits? false ('-' :: cs) = (plainDigits? false cs).map ('-' :: ·) := by
    cases cs <;> rfl
  rw [hminus, plainDigits?_of_allDigits h]
  rfl

theorem two_pow_le_ten_pow : 2 ^ 1024 ≤ 10 ^ 310 := by decide +kernel

/-- A number of so many digits is infinite, whatever power of ten goes with them. -/
theorem ofDecimal_of_length {digits : Nat} (h : 310 < (Nat.toDigits 10 digits).length)
    {exponent : Int} (hexponent : 0 ≤ exponent) (negative : Bool) :
    ofDecimal negative digits exponent = infinity negative := by
  have hpos : digits ≠ 0 := by
    rintro rfl
    exact absurd h (by decide)
  unfold ofDecimal
  dsimp only
  rw [length_toString, if_neg hpos, if_pos (by omega)]

theorem ofQuotient_of_length {k : Nat} (hk : 0 < k) (h : 310 < (Nat.toDigits 10 k).length)
    (negative : Bool) : ofQuotient negative k 1 = infinity negative := by
  unfold ofQuotient ofScaled infinity
  rw [roundedWord_of_le (two_pow_le_ten_pow.trans (pow_le_of_length hk h))]

/-- The leading digits of a number make a number of as many digits. -/
theorem length_take_toDigits {k count : Nat} (hk : 0 < k) (hcount : 0 < count)
    (hlong : count ≤ (Nat.toDigits 10 k).length) :
    10 ^ (count - 1) ≤ digitsValue 10 ((Nat.toDigits 10 k).take count) := by
  have hsize : 10 ^ ((Nat.toDigits 10 k).length - 1) ≤ k :=
    pow_le_of_length hk (Nat.sub_lt (by omega) Nat.one_pos)
  have hrest : AllDigits ((Nat.toDigits 10 k).drop count) :=
    (allDigits_toDigits k).of_subset (List.drop_subset ..)
  have hsmall := digitsValue_lt hrest
  have hvalue := digitsValue_append ((Nat.toDigits 10 k).take count)
    ((Nat.toDigits 10 k).drop count)
  rw [List.take_append_drop, digitsValue_toDigits] at hvalue
  have hlead : 10 ^ (count - 1) * 10 ^ ((Nat.toDigits 10 k).drop count).length ≤ k := by
    rw [← Nat.pow_add, List.length_drop, show count - 1 + ((Nat.toDigits 10 k).length - count) =
      (Nat.toDigits 10 k).length - 1 by omega]
    exact hsize
  have hnext : 10 ^ (count - 1) * 10 ^ ((Nat.toDigits 10 k).drop count).length <
      (digitsValue 10 ((Nat.toDigits 10 k).take count) + 1) *
        10 ^ ((Nat.toDigits 10 k).drop count).length := by
    rw [Nat.succ_mul]
    omega
  exact Nat.le_of_lt_succ (Nat.lt_of_mul_lt_mul_right hnext)

/-- The digits of a number are read as the double nearest to it. Where digits are left out the
number is infinite with the others alone. -/
theorem ofDigits_toDigits {k : Nat} (hk : 0 < k) (negative : Bool) :
    ofDigits negative (Nat.toDigits 10 k) 0 = ofQuotient negative k 1 := by
  unfold ofDigits
  dsimp only
  rw [dropWhile_toDigits hk]
  by_cases hlong : decisiveDigits < (Nat.toDigits 10 k).length
  · have hrest : ((Nat.toDigits 10 k).drop decisiveDigits).isEmpty = false := by
      rw [List.isEmpty_eq_false_iff, ← List.length_pos_iff, List.length_drop]
      omega
    have hlead := length_take_toDigits hk (show 0 < decisiveDigits by decide) (Nat.le_of_lt hlong)
    obtain ⟨places, hplaces, hmany⟩ : ∃ places, 310 ≤ places ∧ places = decisiveDigits - 1 :=
      ⟨_, by decide, rfl⟩
    rw [← hmany] at hlead
    rw [hrest, if_neg (by decide), ofQuotient_of_length hk (by omega), ofDecimal_of_length]
    · refine Nat.lt_of_le_of_lt hplaces ?_
      rw [← Nat.not_le, length_toDigits_le (by omega), Nat.not_lt, digitsValue_append]
      exact hlead.trans ((Nat.le_mul_of_pos_right _ (Nat.pow_pos (by decide))).trans
        (Nat.le_add_right ..))
    · rw [List.length_drop]
      omega
  · rw [List.drop_eq_nil_of_le (Nat.not_lt.mp hlong), List.isEmpty_nil, if_pos rfl,
      digitsValue_toDigits]
    by_cases hlarge : 310 < (Nat.toDigits 10 k).length
    · rw [ofDecimal_of_length hlarge le_rfl, ofQuotient_of_length hk hlarge]
    · unfold ofDecimal
      dsimp only
      rw [length_toString, if_neg (Nat.ne_of_gt hk), if_neg (by omega), if_neg (by omega),
        if_pos le_rfl, Int.toNat_zero, Nat.pow_eq, Nat.pow_zero, Nat.mul_one]

theorem readUnsigned?_of_allDigits {cs : List Char} (h : AllDigits cs) (hne : cs ≠ [])
    (negative : Bool) : readUnsigned? negative cs = some (ofDigits negative cs 0) := by
  have hwhole : cs.takeWhile isAsciiDigit = cs := List.takeWhile_eq_self_iff.mpr h
  have hrest : cs.dropWhile isAsciiDigit = [] := List.dropWhile_eq_nil_iff.mpr h
  have hfilled : cs.isEmpty = false := List.isEmpty_eq_false_iff.mpr hne
  unfold readUnsigned?
  simp only [hwhole, hrest, hfilled, Bool.false_and, Bool.not_false, guard, if_true, pure_bind]
  change some (ofDigits negative (cs ++ []) (0 - 0)) = _
  rw [List.append_nil, Int.sub_zero]

theorem toLower_of_isAsciiDigit {c : Char} (h : isAsciiDigit c = true) : c.toLower = c := by
  have hhigh := (isAsciiDigit_iff.mp h).2
  unfold Char.toLower
  split
  · rename_i hupper
    have hlow : 65 ≤ c.toNat := hupper.1
    omega
  · rfl

/-- Digits are no word, in lower case either. -/
theorem ofList_lower_ne {cs : List Char} (h : AllDigits cs) {word : String}
    (hword : ∃ c ∈ word.toList, isAsciiDigit c = false) : String.ofList (lower cs) ≠ word := by
  rintro rfl
  obtain ⟨c, hc, hdigit⟩ := hword
  have hascii : ∀ d ∈ cs, d.toNat < 128 := fun d hd => by
    have := isAsciiDigit_iff.mp (h d hd)
    omega
  rw [String.toList_ofList, lower_ascii cs hascii] at hc
  obtain ⟨d, hd, rfl⟩ := List.mem_map.mp hc
  rw [toLower_of_isAsciiDigit (h d hd), h d hd] at hdigit
  cases hdigit

theorem isBlank_of_mem_toString {n : Int} {c : Char} (h : c ∈ (toString n).toList) :
    isBlank c = false := by
  rcases mem_toString_int h with rfl | hdigit
  · decide
  · exact Guard.isBlank_of_isDigit (isDigit_of_isAsciiDigit hdigit)

theorem trimSpaces_toString (n : Int) : trimSpaces (toString n).toList = (toString n).toList := by
  have hmem := fun c hc => isBlank_of_mem_toString (n := n) (c := c) hc
  refine Guard.trimSpaces_of_ends (fun c hc => ?_) (fun c hc => ?_)
  · exact hmem c (List.mem_of_mem_head? hc)
  · exact hmem c (List.mem_reverse.mp (List.mem_of_mem_head? hc))

theorem takeSign_toString (n : Int) :
    takeSign (toString n).toList = (decide (n < 0), Nat.toDigits 10 n.natAbs) := by
  rw [toList_toString_int]
  by_cases hnegative : n < 0
  · rw [if_pos hnegative, decide_eq_true hnegative]
    rfl
  · obtain ⟨first, more, hmore⟩ := List.exists_cons_of_ne_nil
      (Nat.toDigits_ne_nil (b := 10) (n := n.natAbs))
    have hfirst : isAsciiDigit first = true := by
      refine allDigits_toDigits n.natAbs first ?_
      rw [hmore]
      exact List.mem_cons_self ..
    rw [if_neg hnegative, decide_eq_false hnegative, hmore]
    unfold takeSign
    split
    · rename_i heq
      rw [(List.cons.inj heq).1] at hfirst
      exact absurd hfirst (by decide)
    · rename_i heq
      rw [(List.cons.inj heq).1] at hfirst
      exact absurd hfirst (by decide)
    · rfl

/-- The text of an integer is read as the double nearest to the integer. -/
theorem readDecimal?_toString (n : Int) : readDecimal? (toString n).toList = some (ofInt n) := by
  have hdigits := allDigits_toDigits n.natAbs
  have hplain : plainDigits? false (toString n).toList = some (toString n).toList := by
    rw [toList_toString_int]
    split
    · exact plainDigits?_minus hdigits
    · exact plainDigits?_of_allDigits hdigits false
  unfold readDecimal?
  rw [trimSpaces_toString, hplain, Option.bind_eq_bind, Option.bind_some, takeSign_toString]
  dsimp only
  rw [if_neg (not_or.mpr ⟨ofList_lower_ne hdigits ⟨'i', by decide, by decide⟩,
      ofList_lower_ne hdigits ⟨'i', by decide, by decide⟩⟩),
    if_neg (ofList_lower_ne hdigits ⟨'n', by decide, by decide⟩),
    readUnsigned?_of_allDigits hdigits Nat.toDigits_ne_nil]
  rcases Nat.eq_zero_or_pos n.natAbs with hzero | hpos
  · obtain rfl : n = 0 := by omega
    decide +kernel
  · rw [ofDigits_toDigits hpos]
    rfl

theorem asciiDigits_of_allDigits {cs : List Char} (h : AllDigits cs) : asciiDigits cs = cs := by
  unfold asciiDigits
  induction cs with
  | nil => rfl
  | cons c cs ih =>
    have hc := h c (List.mem_cons_self ..)
    rw [List.filterMap_cons, digitValue?_of_isAsciiDigit hc, Option.map_some,
      ih (h.of_subset (List.subset_cons_self c cs)),
      Nat.add_sub_cancel' (isAsciiDigit_iff.mp hc).1, Char.ofNat_toNat]

theorem isTooLong_iff_length {n : Int} :
    isTooLong n = true ↔ digitLimit < (Nat.toDigits 10 n.natAbs).length := by
  rw [isTooLong_iff, ← Nat.not_lt, ← length_toDigits_le (by decide), Nat.not_le]

/-- The text of an integer is read as the integer, if it is not too long. -/
theorem readInt_toString (n : Int) : readInt (toString n).toList =
    if isTooLong n then .error (.tooLong (Nat.toDigits 10 n.natAbs).length) else .ok n := by
  have hdigits := allDigits_toDigits n.natAbs
  have hall : ∀ c ∈ Nat.toDigits 10 n.natAbs, isDigit c = true := fun c hc =>
    isDigit_of_isAsciiDigit (hdigits c hc)
  have hrun : (Nat.toDigits 10 n.natAbs).takeWhile isDigitOrUnderscore =
      Nat.toDigits 10 n.natAbs := by
    rw [List.takeWhile_eq_self_iff]
    intro c hc
    unfold isDigitOrUnderscore
    rw [hall c hc, Bool.true_or]
  have hfilled : (Nat.toDigits 10 n.natAbs).isEmpty = false :=
    List.isEmpty_eq_false_iff.mpr Nat.toDigits_ne_nil
  unfold readInt
  simp only [trimSpaces_toString, takeSign_toString, hrun, Guard.isGrouped_of_digits hall,
    asciiDigits_of_allDigits hdigits, hfilled, digitsValue_toDigits, isTooLong_iff_length,
    Bool.not_true, Bool.false_eq_true, if_false, Bool.false_or, lt_irrefl, decide_false, decide_eq_true_eq]
  split
  · rfl
  · congr 1
    split <;> omega

end Runbook.Number
