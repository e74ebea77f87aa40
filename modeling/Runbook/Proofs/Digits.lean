import Mathlib.Data.List.Induction
import Mathlib.Data.List.TakeWhile
import Mathlib.Tactic.IntervalCases
import Runbook.Number.Numeral
import Runbook.Number.Shortest

/-!
Digits of numbers. A number is the value of its own decimal digits, which do not begin with a zero
unless the number is zero, and are as many as its size asks for. Zeros in front of digits do not
count, and zeros at their end multiply by powers of ten.
-/
namespace Runbook.Number

open Text

/-- A text of ASCII digits alone. -/
def AllDigits (cs : List Char) : Prop := ∀ c ∈ cs, isAsciiDigit c = true

theorem isAsciiDigit_iff {c : Char} : isAsciiDigit c = true ↔ 48 ≤ c.toNat ∧ c.toNat ≤ 57 := by
  simp only [isAsciiDigit, Bool.and_eq_true, decide_eq_true_eq]
  exact Iff.rfl

theorem isAsciiDigit_eq_isDigit (c : Char) : isAsciiDigit c = c.isDigit := by
  rw [Bool.eq_iff_iff, isAsciiDigit_iff, Char.isDigit_iff_toNat]
  exact Iff.rfl

namespace AllDigits

variable {cs ds : List Char}

theorem nil : AllDigits [] := by simp [AllDigits]

theorem append (h : AllDigits cs) (h' : AllDigits ds) : AllDigits (cs ++ ds) := fun c hc =>
  (List.mem_append.mp hc).elim (h c) (h' c)

theorem cons {c : Char} (h : isAsciiDigit c = true) (h' : AllDigits cs) : AllDigits (c :: cs) :=
  fun d hd => (List.mem_cons.mp hd).elim (fun heq => heq ▸ h) (h' d)

theorem of_subset (h : AllDigits cs) (hsub : ds ⊆ cs) : AllDigits ds := fun c hc => h c (hsub hc)

theorem zeros (n : Nat) : AllDigits (List.replicate n '0') := by
  intro c hc
  rw [List.eq_of_mem_replicate hc]
  decide

theorem all_eq (h : AllDigits cs) : cs.all isAsciiDigit = true := List.all_eq_true.mpr h

/-- Digits are taken as far as they go. -/
theorem takeWhile_append (h : AllDigits cs) (ds : List Char) :
    (cs ++ ds).takeWhile isAsciiDigit = cs ++ ds.takeWhile isAsciiDigit :=
  List.takeWhile_append_of_pos h

theorem dropWhile_append (h : AllDigits cs) (ds : List Char) :
    (cs ++ ds).dropWhile isAsciiDigit = ds.dropWhile isAsciiDigit :=
  List.dropWhile_append_of_pos h

end AllDigits

/-! The value of digits. -/

theorem digitsValue_eq (base : Nat) (cs : List Char) :
    digitsValue base cs = Nat.ofDigitChars base cs 0 := by
  rw [Nat.ofDigitChars_eq_foldl]
  rfl

@[simp] theorem digitsValue_nil (base : Nat) : digitsValue base [] = 0 := rfl

theorem digitsValue_append (cs ds : List Char) :
    digitsValue 10 (cs ++ ds) = digitsValue 10 cs * 10 ^ ds.length + digitsValue 10 ds := by
  simp only [digitsValue_eq, Nat.ofDigitChars_append]
  rw [Nat.ofDigitChars_eq_ofDigitChars_zero, Nat.mul_comm]

theorem digitsValue_lt {cs : List Char} (h : AllDigits cs) :
    digitsValue 10 cs < 10 ^ cs.length := by
  induction cs using List.reverseRecOn with
  | nil => decide
  | append_singleton cs c ih =>
    have hcs := ih (h.of_subset (List.subset_append_left ..))
    have hc : digitsValue 10 [c] < 10 := by
      have hrange := isAsciiDigit_iff.mp (h c (by simp))
      change 10 * 0 + (c.toNat - 48) < 10
      omega
    rw [digitsValue_append, List.length_append, Nat.pow_add, List.length_singleton, Nat.pow_one]
    omega

theorem digitsValue_zeros_append (n : Nat) (cs : List Char) :
    digitsValue 10 (List.replicate n '0' ++ cs) = digitsValue 10 cs := by
  simp [digitsValue_eq, Nat.ofDigitChars_append, Nat.ofDigitChars_replicate_zero]

theorem digitsValue_append_zeros (cs : List Char) (n : Nat) :
    digitsValue 10 (cs ++ List.replicate n '0') = digitsValue 10 cs * 10 ^ n := by
  rw [digitsValue_append, List.length_replicate]
  simp [digitsValue_eq, Nat.ofDigitChars_replicate_zero]

/-- The zeros at the front of a text. -/
theorem eq_zeros_append (cs : List Char) :
    ∃ n, cs = List.replicate n '0' ++ cs.dropWhile (· == '0') := by
  have hzeros : ∀ c ∈ cs.takeWhile (· == '0'), c = '0' := fun c hc => by
    simpa using List.mem_takeWhile_imp hc
  refine ⟨(cs.takeWhile (· == '0')).length, ?_⟩
  rw [← List.eq_replicate_of_mem hzeros, List.takeWhile_append_dropWhile]

theorem digitsValue_dropWhile (cs : List Char) :
    digitsValue 10 (cs.dropWhile (· == '0')) = digitsValue 10 cs := by
  obtain ⟨n, hn⟩ := eq_zeros_append cs
  conv_rhs => rw [hn]
  rw [digitsValue_zeros_append]

/-- The zeros at the end of a text. -/
theorem eq_append_zeros (cs : List Char) :
    ∃ n, cs = (cs.reverse.dropWhile (· == '0')).reverse ++ List.replicate n '0' := by
  obtain ⟨n, hn⟩ := eq_zeros_append cs.reverse
  refine ⟨n, ?_⟩
  have hturned := congrArg List.reverse hn
  rwa [List.reverse_reverse, List.reverse_append, List.reverse_replicate] at hturned

/-! The digits of a number. -/

theorem toList_toString (n : Nat) : (toString n).toList = Nat.toDigits 10 n := by
  rw [Nat.toString_eq_repr, Nat.toList_repr]

theorem toList_toString_int (n : Int) : (toString n).toList =
    if n < 0 then '-' :: Nat.toDigits 10 n.natAbs else Nat.toDigits 10 n.natAbs := by
  rw [Int.toString_eq_repr]
  cases n with
  | ofNat k => exact Nat.toList_repr
  | negSucc k =>
    have hminus : (Int.negSucc k).repr = "-" ++ (k + 1).repr := rfl
    rw [hminus, String.toList_append, Nat.toList_repr, if_pos (Int.negSucc_lt_zero k)]
    rfl

theorem length_toString (n : Nat) : (toString n).length = (Nat.toDigits 10 n).length := by
  rw [← toList_toString, String.length_toList]

theorem allDigits_toDigits (n : Nat) : AllDigits (Nat.toDigits 10 n) := fun c hc => by
  rw [isAsciiDigit_eq_isDigit]
  exact Nat.isDigit_of_mem_toDigits (by decide) (by decide) hc

theorem mem_toString_int {n : Int} {c : Char} (h : c ∈ (toString n).toList) :
    c = '-' ∨ isAsciiDigit c = true := by
  rw [toList_toString_int] at h
  split at h
  · exact (List.mem_cons.mp h).imp_right (allDigits_toDigits n.natAbs c)
  · exact Or.inr (allDigits_toDigits n.natAbs c h)

@[simp] theorem digitsValue_toDigits (n : Nat) : digitsValue 10 (Nat.toDigits 10 n) = n := by
  rw [digitsValue_eq, Nat.ofDigitChars_ten_toDigits]

theorem length_toDigits_le {n k : Nat} (hk : 0 < k) :
    (Nat.toDigits 10 n).length ≤ k ↔ n < 10 ^ k :=
  Nat.length_toDigits_le_iff (by decide) hk

theorem lt_pow_length (n : Nat) : n < 10 ^ (Nat.toDigits 10 n).length :=
  (length_toDigits_le Nat.length_toDigits_pos).mp (Nat.le_refl _)

theorem pow_le_of_length {n k : Nat} (hn : 0 < n) (hk : k < (Nat.toDigits 10 n).length) :
    10 ^ k ≤ n := by
  rcases Nat.eq_zero_or_pos k with rfl | hpos
  · exact hn
  · rw [← Nat.not_lt, ← length_toDigits_le hpos]
    exact Nat.not_le.mpr hk

theorem isTooLong_iff {n : Int} : isTooLong n = true ↔ 10 ^ digitLimit ≤ n.natAbs := by
  unfold isTooLong
  rw [decide_eq_true_eq, Nat.pow_eq]

theorem isTooLong_eq_false {n : Int} : isTooLong n = false ↔ n.natAbs < 10 ^ digitLimit := by
  rw [Bool.eq_false_iff, ne_eq, isTooLong_iff, Nat.not_le]

/-- The digits of a positive number begin with no zero. -/
theorem head_toDigits {n : Nat} (hn : 0 < n) : (Nat.toDigits 10 n).head? ≠ some '0' := by
  induction n using Nat.strongRecOn with
  | ind n ih =>
    by_cases hsmall : n < 10
    · rw [Nat.toDigits_of_lt_base hsmall]
      interval_cases n <;> decide
    · rw [Nat.toDigits_of_base_le (by decide) (Nat.not_lt.mp hsmall),
        List.head?_append, Option.or_of_isSome (by simp [Nat.toDigits_ne_nil])]
      exact ih (n / 10) (by omega) (by omega)

theorem dropWhile_toDigits {n : Nat} (hn : 0 < n) :
    (Nat.toDigits 10 n).dropWhile (· == '0') = Nat.toDigits 10 n := by
  have hhead := head_toDigits hn
  cases hdigits : Nat.toDigits 10 n with
  | nil => rfl
  | cons c cs =>
    rw [hdigits] at hhead
    have hc : c ≠ '0' := fun h => hhead (by rw [h]; rfl)
    simp [hc]

end Runbook.Number
