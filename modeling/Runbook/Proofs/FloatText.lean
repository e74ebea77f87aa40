import Runbook.Json.Reader
import Runbook.Json.Writer
import Runbook.Proofs.Notation
import Runbook.Proofs.ShortestDigits

/-!
The text of a finite double is a JSON number that reads back as the same double, sign included,
wherever the text goes on with something that is no part of a number.
-/
namespace Runbook.Number

open Text Binary64

namespace Decimal

/-- The same digits with more zeros after them and an exponent that is less by as many. -/
theorem sameValue_of_zeros {n a b : Nat} {e e' : Int} (h : e + a = e' + b) :
    SameValue ⟨n * 10 ^ a, e⟩ ⟨n * 10 ^ b, e'⟩ := by
  have hexponents : a + e.toNat + (-e').toNat = b + e'.toNat + (-e).toNat := by omega
  unfold SameValue den
  simp only [Nat.mul_assoc, ← Nat.pow_add]
  rw [hexponents]

/-- Digits with zeros after them, and an exponent that makes up for the zeros, are read as a number
that the decimal fits. -/
theorem Fits.ofDigits_eq {d : Decimal} {x : Binary64} (h : d.Fits x) (hfinite : x.IsFinite)
    (hpos : 0 < x.significand) {cs : List Char} {exponent : Int} {k : Nat}
    (hsize : (cs.dropWhile (· == '0')).length ≤ decisiveDigits)
    (hvalue : digitsValue 10 cs = d.digits * 10 ^ k) (hexponent : exponent + k = d.exponent)
    (negative : Bool) : ofDigits negative cs exponent = ofWord negative x.absWord := by
  have hzeros : SameValue d ⟨digitsValue 10 cs, exponent⟩ := by
    have hsame := sameValue_of_zeros (n := d.digits) (a := 0) (b := k)
      (show d.exponent + (0 : Nat) = exponent + k by omega)
    rwa [Nat.pow_zero, Nat.mul_one, ← hvalue] at hsame
  have hpositive : 0 < digitsValue 10 cs := by
    rw [hvalue]
    exact Nat.mul_pos h.positive (Nat.pow_pos (by decide))
  unfold ofDigits
  dsimp only
  rw [List.drop_eq_nil_of_le hsize]
  simp only [List.isEmpty_nil, if_true, digitsValue_dropWhile]
  exact (h.congr hzeros hpositive).ofDecimal_eq hfinite hpos negative

/-- A decimal that fits a finite number has not too many digits, unless it is written with very
many places. -/
theorem Fits.length_le {d : Decimal} {x : Binary64} (h : d.Fits x) (hfinite : x.IsFinite)
    (hpos : 0 < x.significand) (hexponent : -416 ≤ d.exponent) :
    (Nat.toDigits 10 d.digits).length ≤ 725 := by
  rw [length_toDigits_le (by decide)]
  have hbound : d.digits * grain ≤ 2 ^ 53 * 2 ^ 2045 * 10 ^ 416 :=
    calc d.digits * grain ≤ d.num := by
          unfold num
          rw [Nat.mul_right_comm]
          exact Nat.le_mul_of_pos_right _ (Nat.pow_pos (by decide))
      _ ≤ 2 ^ 53 * 2 ^ 2045 * d.den := h.num_le hpos hfinite
      _ ≤ 2 ^ 53 * 2 ^ 2045 * 10 ^ 416 := by
          gcongr
          unfold den
          gcongr
          · decide
          · omega
  have hfew : 2 ^ 53 * 2 ^ 2045 * 10 ^ 416 < 10 ^ 725 * grain := by decide +kernel
  exact Nat.lt_of_mul_lt_mul_right (Nat.lt_of_le_of_lt hbound hfew)

end Decimal

end Runbook.Number

namespace Runbook.Json

open Number Text Binary64

/-! Reading the parts of a number. -/

/-- A text that goes on with nothing that could belong to a number. -/
def Ends (rest : List Char) : Prop := ∀ c ∈ rest.head?, c = ',' ∨ c = '\n'

theorem Ends.stops_digit {rest : List Char} (h : Ends rest) : Stops isAsciiDigit rest :=
  fun c hc => by rcases h c hc with rfl | rfl <;> rfl

/-- The integer part of a number: it begins with a zero only if it is one. -/
structure IsWhole (whole : List Char) : Prop where
  digits : AllDigits whole
  nonempty : whole ≠ []
  leads : whole.head? = some '0' → whole = ['0']

theorem IsWhole.readWhole?_append {whole tail : List Char} (h : IsWhole whole)
    (htail : Stops isAsciiDigit tail) : readWhole? (whole ++ tail) = some (whole, tail) := by
  cases whole with
  | nil => exact absurd rfl h.nonempty
  | cons c cs =>
    by_cases hzero : c = '0'
    · have hone := h.leads (by rw [hzero]; rfl)
      obtain ⟨-, rfl⟩ := List.cons.inj hone
      rw [hzero]
      rfl
    · have hc : isAsciiDigit c = true := h.digits c (List.mem_cons_self ..)
      have hcs : AllDigits cs := fun b hb => h.digits b (List.mem_cons_of_mem _ hb)
      obtain ⟨htake, hdrop⟩ := split_iff.mpr ⟨rfl, hcs, htail⟩
      rw [List.cons_append, readWhole?]
      · rw [if_pos hc, htake, hdrop]
      · exact fun heq => hzero heq

theorem readFraction_point {places tail : List Char} (hplaces : AllDigits places)
    (hne : places ≠ []) (htail : Stops isAsciiDigit tail) :
    readFraction ('.' :: places ++ tail) = (places, tail) := by
  cases places with
  | nil => exact absurd rfl hne
  | cons c cs =>
    have hc : isAsciiDigit c = true := hplaces c (List.mem_cons_self ..)
    have hcs : AllDigits cs := fun b hb => hplaces b (List.mem_cons_of_mem _ hb)
    obtain ⟨htake, hdrop⟩ := split_iff.mpr ⟨rfl, hcs, htail⟩
    rw [List.cons_append, List.cons_append, readFraction, if_pos hc, htake, hdrop]

theorem readPower_of_ends {rest : List Char} (h : Ends rest) : readPower rest = (none, rest) := by
  cases rest with
  | nil => rfl
  | cons c cs =>
    have hc : ¬ (c = 'e' ∨ c = 'E') := by
      rcases h c rfl with rfl | rfl <;> decide
    exact if_neg hc

/-- The digits of an exponent in which there are not too many. -/
theorem exponentOf_eq {cs : List Char} (negative : Bool)
    (h : (cs.dropWhile (· == '0')).length ≤ exponentDigits) :
    exponentOf negative cs =
      if negative then -(digitsValue 10 cs : Int) else (digitsValue 10 cs : Int) := by
  unfold exponentOf
  dsimp only
  rw [List.take_of_length_le h, digitsValue_dropWhile]

theorem readPower_exponentText {exponent : Int} (hsize : exponent.natAbs < 10 ^ 30)
    {rest : List Char} (h : Ends rest) :
    readPower (exponentText exponent ++ rest) = (some exponent, rest) := by
  obtain ⟨size, hdigits, hne, hvalue, hlength, htext⟩ :
      ∃ size, AllDigits size ∧ size ≠ [] ∧ digitsValue 10 size = exponent.natAbs ∧
        size.length ≤ exponentDigits ∧
        exponentText exponent = 'e' :: (if exponent < 0 then '-' else '+') :: size := by
    have hlong : (Nat.toDigits 10 exponent.natAbs).length ≤ exponentDigits :=
      (length_toDigits_le (by decide)).mpr hsize
    have hdigits := allDigits_toDigits exponent.natAbs
    have hvalue := digitsValue_toDigits exponent.natAbs
    by_cases hshort : (Nat.toDigits 10 exponent.natAbs).length < 2
    · refine ⟨'0' :: Nat.toDigits 10 exponent.natAbs, hdigits.cons rfl, by simp,
        (digitsValue_zeros_append 1 _).trans hvalue, ?_, ?_⟩
      · rw [List.length_cons]
        exact Nat.le_trans hshort (by decide)
      · simp only [exponentText, toList_toString, if_pos hshort]
    · refine ⟨_, hdigits, Nat.toDigits_ne_nil, hvalue, hlong, ?_⟩
      simp only [exponentText, toList_toString, if_neg hshort]
  have hsign : takeSign ((if exponent < 0 then '-' else '+') :: (size ++ rest)) =
      (decide (exponent < 0), size ++ rest) := by
    split
    · rename_i hnegative
      rw [decide_eq_true hnegative]
      rfl
    · rename_i hnegative
      rw [decide_eq_false hnegative]
      rfl
  obtain ⟨htake, hdrop⟩ := split_iff.mpr ⟨rfl, hdigits, h.stops_digit⟩
  have hexponent : exponentOf (decide (exponent < 0)) size = exponent := by
    rw [exponentOf_eq _ (Nat.le_trans (List.dropWhile_suffix _).length_le hlength), hvalue]
    by_cases hnegative : exponent < 0
    · rw [if_pos (decide_eq_true hnegative)]
      omega
    · rw [if_neg (by simpa using hnegative)]
      omega
  have hsome : size.isEmpty = false := by simpa using hne
  rw [htext, List.cons_append, List.cons_append]
  unfold readPower
  simp only [hsign, htake, hdrop, hsome, hexponent]
  rfl

theorem readUnsigned_eq {cs whole places after tail rest : List Char} {power : Option Int}
    (hwhole : readWhole? cs = some (whole, after)) (hplaces : readFraction after = (places, tail))
    (hpower : readPower tail = (power, rest)) (negative : Bool) :
    readUnsigned negative cs =
      if places.isEmpty && power.isNone then
        if digitLimit < whole.length then .error (.tooManyDigits whole.length)
        else .ok (.int (if negative then -(digitsValue 10 whole : Int) else digitsValue 10 whole),
          rest)
      else
        .ok (.float (ofDigits negative (whole ++ places) (power.getD 0 - places.length)),
          rest) := by
  unfold readUnsigned
  rw [hwhole]
  change Except.bind (.ok (whole, after)) _ = _
  simp only [Except.bind, hplaces, hpower]
  rfl

/-- A number with a point. -/
theorem readUnsigned_pointed {whole places tail rest : List Char} {power : Option Int}
    (hwhole : IsWhole whole) (hplaces : AllDigits places) (hne : places ≠ [])
    (htail : Stops isAsciiDigit tail) (hpower : readPower tail = (power, rest))
    (negative : Bool) : readUnsigned negative (whole ++ '.' :: places ++ tail) =
      .ok (.float (ofDigits negative (whole ++ places) (power.getD 0 - places.length)), rest) := by
  have hpoint : Stops isAsciiDigit ('.' :: places ++ tail) := stops_cons.mpr rfl
  have hsome : places.isEmpty = false := by simpa using hne
  rw [List.append_assoc, readUnsigned_eq (hwhole.readWhole?_append hpoint)
    (readFraction_point hplaces hne htail) hpower, hsome]
  rfl

/-- A number with an exponent and no point. -/
theorem readUnsigned_powered {whole tail rest : List Char} {power : Int}
    (hwhole : IsWhole whole) (htail : Stops isAsciiDigit tail)
    (hpoint : readFraction tail = ([], tail)) (hpower : readPower tail = (some power, rest))
    (negative : Bool) : readUnsigned negative (whole ++ tail) =
      .ok (.float (ofDigits negative whole power), rest) := by
  rw [readUnsigned_eq (hwhole.readWhole?_append htail) hpoint hpower, List.append_nil,
    List.length_nil]
  simp

/-- An integer. -/
theorem readUnsigned_int {whole rest : List Char} (hwhole : IsWhole whole)
    (hsize : whole.length ≤ digitLimit) (hrest : Ends rest) (negative : Bool) :
    readUnsigned negative (whole ++ rest) =
      .ok (.int (if negative then -(digitsValue 10 whole : Int) else digitsValue 10 whole),
        rest) := by
  have hpoint : readFraction rest = ([], rest) := by
    unfold readFraction
    split
    · rename_i c cs
      rcases hrest '.' rfl with h | h <;> exact absurd h (by decide)
    · rfl
  rw [readUnsigned_eq (hwhole.readWhole?_append hrest.stops_digit) hpoint
    (readPower_of_ends hrest), if_neg (Nat.not_lt.mpr hsize)]
  rfl

/-! The text of a double. -/

/-- Significant digits, and where their point stands, of a decimal that fits a number. -/
structure Digits (ds : List Char) (point : Int) (x : Binary64) : Prop where
  digits : AllDigits ds
  nonempty : ds ≠ []
  leads : ds.head? ≠ some '0'
  length_le : ds.length ≤ 725
  point_le : point.natAbs ≤ 1000
  fits : Decimal.Fits ⟨digitsValue 10 ds, point - ds.length⟩ x

/-- The digits that a positive number is written with. -/
theorem digits_significant {x : Binary64} (hfinite : x.IsFinite) (hpos : 0 < x.significand) :
    Digits (Decimal.shortest x).significant.1 (Decimal.shortest x).significant.2 x := by
  obtain ⟨hfits, hexponent⟩ := Decimal.fits_shortest hpos
  generalize Decimal.shortest x = d at hfits hexponent
  have hlong := hfits.length_le hfinite hpos hexponent
  have hhigh := hfits.lt_of_finite hpos hfinite
  have hlow := hfits.lt_of_positive hpos
  obtain ⟨zeros, hzeros⟩ := eq_append_zeros (Nat.toDigits 10 d.digits)
  have hall := allDigits_toDigits d.digits
  have hhead := head_toDigits hfits.positive
  have hvalue := digitsValue_toDigits d.digits
  have hne := Nat.toDigits_ne_nil (n := d.digits) (b := 10)
  rw [length_toString] at hhigh hlow
  unfold Decimal.significant
  dsimp only
  rw [toList_toString]
  generalize Nat.toDigits 10 d.digits = cs at *
  generalize (cs.reverse.dropWhile (· == '0')).reverse = kept at *
  subst hzeros
  have hkept : kept ≠ [] := by
    rintro rfl
    cases zeros with
    | zero => exact hne rfl
    | succ n => exact hhead rfl
  have hsame : digitsValue 10 kept * 10 ^ zeros = d.digits := by
    rw [← digitsValue_append_zeros, hvalue]
  rw [List.length_append, List.length_replicate] at *
  refine ⟨hall.of_subset (List.subset_append_left ..), hkept, ?_, by omega, by omega, ?_⟩
  · rwa [List.head?_append, Option.or_of_isSome (by simp [hkept])] at hhead
  · have hpositive := hfits.positive
    refine hfits.congr ?_ ?_
    · have hshift := Decimal.sameValue_of_zeros (n := digitsValue 10 kept)
        (show d.exponent + zeros = d.exponent + zeros + (0 : Nat) by omega)
      rw [Nat.pow_zero, Nat.mul_one, hsame] at hshift
      convert hshift using 2
      omega
    · exact Nat.pos_of_mul_pos_right (hsame ▸ hpositive)

namespace Digits

variable {ds : List Char} {point : Int} {x : Binary64}

theorem isWhole (h : Digits ds point x) {whole : List Char} (hpart : whole <+: ds)
    (hne : whole ≠ []) : IsWhole whole := by
  refine ⟨h.digits.of_subset hpart.subset, hne, fun hzero => absurd ?_ h.leads⟩
  obtain ⟨rest, rfl⟩ := hpart
  rw [List.head?_append, hzero]
  rfl

/-- Digits before and after a point are read as the number, if their places are right. -/
theorem readUnsigned_pointed (h : Digits ds point x) (hfinite : x.IsFinite)
    (hpos : 0 < x.significand) {whole places tail rest : List Char} {power : Option Int}
    {k : Nat} (hwhole : IsWhole whole) (hplaces : AllDigits places) (hne : places ≠ [])
    (htail : Stops isAsciiDigit tail) (hpower : readPower tail = (power, rest))
    (hsize : ((whole ++ places).dropWhile (· == '0')).length ≤ decisiveDigits)
    (hvalue : digitsValue 10 (whole ++ places) = digitsValue 10 ds * 10 ^ k)
    (hexponent : power.getD 0 - places.length + k = point - ds.length) (negative : Bool) :
    readUnsigned negative (whole ++ '.' :: places ++ tail) =
      .ok (.float (ofWord negative x.absWord), rest) := by
  rw [Json.readUnsigned_pointed hwhole hplaces hne htail hpower,
    h.fits.ofDigits_eq hfinite hpos hsize hvalue hexponent]

/-- The text of a positive number, its sign apart, is read as the number. -/
theorem readUnsigned_positional (h : Digits ds point x) (hfinite : x.IsFinite)
    (hpos : 0 < x.significand) {rest : List Char} (hrest : Ends rest) (negative : Bool) :
    readUnsigned negative (positional ds point ++ rest) =
      .ok (.float (ofWord negative x.absWord), rest) := by
  have hlong := h.length_le
  have hbound := h.point_le
  have hdrop : ∀ cs : List Char, (cs.dropWhile (· == '0')).length ≤ cs.length := fun cs =>
    (List.dropWhile_suffix _).length_le
  unfold positional
  split
  · rename_i hrange
    simp only [Bool.and_eq_true, decide_eq_true_eq] at hrange
    split
    · -- All digits stand after the point.
      rename_i hsmall
      have hzeros : digitsValue 10 (['0'] ++ (List.replicate (-point).toNat '0' ++ ds)) =
          digitsValue 10 ds * 10 ^ 0 := by
        rw [Nat.pow_zero, Nat.mul_one]
        exact (digitsValue_zeros_append 1 _).trans (digitsValue_zeros_append _ _)
      have hsize : ((['0'] ++ (List.replicate (-point).toNat '0' ++ ds)).dropWhile
          (· == '0')).length ≤ decisiveDigits := by
        rw [List.dropWhile_append_of_pos (by simp), List.dropWhile_append_of_pos (by simp)]
        exact Nat.le_trans (hdrop ds) (Nat.le_trans hlong (by decide))
      have hlead : IsWhole ['0'] := ⟨AllDigits.zeros 1, by simp, fun _ => rfl⟩
      have hread := h.readUnsigned_pointed hfinite hpos hlead
        ((AllDigits.zeros (-point).toNat).append h.digits) (by simp [h.nonempty])
        hrest.stops_digit (readPower_of_ends hrest) hsize hzeros (by simp; omega) negative
      simpa using hread
    · split
      · -- Zeros fill the places up to the point.
        rename_i hwhole hshort
        generalize hcount : point.toNat - ds.length = count
        have hzeros : digitsValue 10 (ds ++ List.replicate count '0' ++ ['0']) =
            digitsValue 10 ds * 10 ^ (count + 1) := by
          rw [List.append_assoc, ← List.replicate_succ', digitsValue_append_zeros]
        have hsize := hdrop (ds ++ List.replicate count '0' ++ ['0'])
        simp only [List.length_append, List.length_replicate, List.length_singleton] at hsize
        have hlead : IsWhole (ds ++ List.replicate count '0') := by
          refine ⟨h.digits.append (AllDigits.zeros count), by simp [h.nonempty], fun hzero => ?_⟩
          rw [List.head?_append, Option.or_of_isSome (by simp [h.nonempty])] at hzero
          exact absurd hzero h.leads
        have hread := h.readUnsigned_pointed hfinite hpos hlead (AllDigits.zeros 1) (by simp)
          hrest.stops_digit (readPower_of_ends hrest)
          (Nat.le_trans hsize (by unfold decisiveDigits; omega)) hzeros (by simp; omega) negative
        simpa using hread
      · -- The point stands between digits.
        rename_i hwhole hlonger
        have hsplit : ds.take point.toNat ++ ds.drop point.toNat = ds := List.take_append_drop ..
        have hread := h.readUnsigned_pointed hfinite hpos
          (h.isWhole (List.take_prefix point.toNat ds) (by simp [h.nonempty]; omega))
          (h.digits.of_subset (List.drop_subset point.toNat ds)) (by simp; omega)
          hrest.stops_digit (readPower_of_ends hrest)
          (by rw [hsplit]; exact Nat.le_trans (hdrop ds) (Nat.le_trans hlong (by decide)))
          (k := 0) (by rw [hsplit, Nat.pow_zero, Nat.mul_one]) (by simp; omega) negative
        simpa using hread
  · -- One digit stands before the point, and an exponent at the end.
    have hpower := readPower_exponentText (show (point - 1).natAbs < 10 ^ 30 by omega) hrest
    have hstops : Stops isAsciiDigit (exponentText (point - 1) ++ rest) := stops_cons.mpr rfl
    cases ds with
    | nil => exact absurd rfl h.nonempty
    | cons d more =>
      have hlead := h.isWhole (List.prefix_append [d] more) (by simp)
      cases more with
      | nil =>
        have hread := readUnsigned_powered hlead hstops rfl hpower negative
        rw [h.fits.ofDigits_eq hfinite hpos (k := 0)
          (Nat.le_trans (hdrop [d]) (Nat.le_trans hlong (by decide))) (by simp) (by simp)] at hread
        simpa using hread
      | cons next more =>
        have hread := h.readUnsigned_pointed hfinite hpos hlead
          (h.digits.of_subset (List.subset_cons_self ..)) (by simp) hstops hpower
          (Nat.le_trans (hdrop _) (Nat.le_trans hlong (by decide)))
          (k := 0) (by simp) (by simp; omega) negative
        simpa using hread

end Digits

/-- What is read as a number without a sign begins with a digit. -/
theorem exists_digit_of_readUnsigned {negative : Bool} {cs : List Char}
    {found : Value × List Char} (h : readUnsigned negative cs = .ok found) :
    ∃ c rest, cs = c :: rest ∧ isAsciiDigit c = true := by
  cases cs with
  | nil => cases h
  | cons c rest =>
    refine ⟨c, rest, rfl, ?_⟩
    by_contra hc
    have hzero : c ≠ '0' := fun heq => hc (heq ▸ rfl)
    have hwhole : readWhole? (c :: rest) = none := by
      rw [readWhole?]
      · rw [if_neg hc]
      · exact fun heq => hzero heq
    unfold readUnsigned at h
    rw [hwhole] at h
    cases h

/-- No word begins with a character but those that some word begins with. -/
theorem readWord?_of_ne {c : Char}
    (h : c ≠ 'n' ∧ c ≠ 't' ∧ c ≠ 'f' ∧ c ≠ 'N' ∧ c ≠ 'I' ∧ c ≠ '-') (cs : List Char) :
    readWord? (c :: cs) = none ∧ readWord? ('-' :: c :: cs) = none := by
  obtain ⟨hn, ht, hf, hnan, hinf, hminus⟩ := h
  unfold readWord?
  -- The values do not matter here, and are large terms.
  generalize Value.float nan = a
  generalize Value.float (infinity false) = b
  generalize Value.float (infinity true) = e
  simp [hn.symm, ht.symm, hf.symm, hnan.symm, hinf.symm, hminus.symm]

theorem readWord?_of_digit {c : Char} (hc : isAsciiDigit c = true) (cs : List Char) :
    readWord? (c :: cs) = none ∧ readWord? ('-' :: c :: cs) = none := by
  refine readWord?_of_ne ⟨?_, ?_, ?_, ?_, ?_, ?_⟩ cs
  all_goals
    rintro rfl
    cases hc

/-- A sign before a number without one. -/
theorem readNumber_signed {negative : Bool} {cs : List Char} {found : Value × List Char}
    (h : readUnsigned negative cs = .ok found) :
    readNumber (if negative then '-' :: cs else cs) = .ok found := by
  obtain ⟨c, rest, rfl, hc⟩ := exists_digit_of_readUnsigned h
  obtain ⟨hplain, hsigned⟩ := readWord?_of_digit hc rest
  cases negative with
  | true =>
    rw [if_pos rfl]
    unfold readNumber
    rw [hsigned]
    exact h
  | false =>
    rw [if_neg Bool.false_ne_true]
    unfold readNumber
    rw [hplain]
    have hminus : c ≠ '-' := fun heq => absurd (heq ▸ hc) (by decide)
    split
    · rename_i heq
      cases heq
    · rename_i heq
      exact absurd (List.cons.inj heq).1 hminus
    · exact h

/-- A finite double is read back from its text, where a number ends. -/
theorem readNumber_writeFloat {x : Binary64} (hnan : x.isNaN = false)
    (hinf : x.isInfinite = false) {rest : List Char} (hrest : Ends rest) :
    readNumber ((writeFloat x).toList ++ rest) = .ok (.float x, rest) := by
  have hfinite := isFinite_of hnan hinf
  obtain ⟨body, htext, hbody⟩ : ∃ body,
      (writeFloat x).toList = (if x.isNegative then '-' :: body else body) ∧
        readUnsigned x.isNegative (body ++ rest) =
          .ok (.float (ofWord x.isNegative x.absWord), rest) := by
    unfold writeFloat text
    simp only [hnan, hinf, Bool.false_eq_true, if_false, String.toList_ofList]
    refine ⟨_, rfl, ?_⟩
    split
    · rename_i hzero
      have hnone : x.significand = 0 := by
        rw [magnitude_eq] at hzero
        exact (Nat.mul_eq_zero.mp hzero).resolve_right (Nat.ne_of_gt x.unit_pos)
      have hword : x.absWord = 0 := by
        unfold significand at hnone
        rw [absWord_eq]
        split at hnone <;> omega
      have hlead : IsWhole ['0'] := ⟨AllDigits.zeros 1, by simp, fun _ => rfl⟩
      rw [hword]
      exact readUnsigned_pointed hlead (AllDigits.zeros 1) (by simp) hrest.stops_digit
        (readPower_of_ends hrest) x.isNegative
    · rename_i hnonzero
      have hpos : 0 < x.significand := by
        rw [magnitude_eq] at hnonzero
        exact Nat.pos_of_ne_zero fun hzero => hnonzero (by rw [hzero, Nat.zero_mul])
      exact (digits_significant hfinite hpos).readUnsigned_positional hfinite hpos hrest _
  have hread := readNumber_signed hbody
  rw [ofWord_absWord] at hread
  rw [htext, ← hread]
  split <;> rfl

end Runbook.Json
