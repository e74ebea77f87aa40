import Runbook.Proofs.ReadBack
import Runbook.Proofs.WholeNumbers

/-!
Guards that compare a variable with an integer. An integer in the variable is compared as it is. A
text is read as a double, so that the text of an integer counts as the double nearest to it. The two
ways give the same answers, whatever is asked, exactly where that double is the integer, and where
the integer has more digits than may be written in a guard.
-/
namespace Runbook.Guard

open Text Number

section Orders

/-- What a comparison says of two integers. -/
def Comparison.Orders : Comparison → Int → Int → Prop
  | .equal, a, b => a = b
  | .unequal, a, b => a ≠ b
  | .atMost, a, b => a ≤ b
  | .atLeast, a, b => b ≤ a
  | .less, a, b => a < b
  | .greater, a, b => b < a

instance Comparison.decidableOrders :
    (c : Comparison) → (a b : Int) → Decidable (c.Orders a b)
  | .equal, a, b => inferInstanceAs (Decidable (a = b))
  | .unequal, a, b => inferInstanceAs (Decidable (a ≠ b))
  | .atMost, a, b => inferInstanceAs (Decidable (a ≤ b))
  | .atLeast, a, b => inferInstanceAs (Decidable (b ≤ a))
  | .less, a, b => inferInstanceAs (Decidable (a < b))
  | .greater, a, b => inferInstanceAs (Decidable (b < a))

/-- The answer of a comparison of two numbers, which may be infinite. -/
def Comparison.decides : Comparison → Extent → Extent → Bool
  | .equal, a, b => decide (a = b)
  | .unequal, a, b => !decide (a = b)
  | .atMost, a, b => a.lt b || decide (a = b)
  | .atLeast, a, b => b.lt a || decide (b = a)
  | .less, a, b => a.lt b
  | .greater, a, b => b.lt a

variable {c : Comparison} {n m : Int}

theorem ofInt_inj : Extent.ofInt n = Extent.ofInt m ↔ n = m := by
  have hgrain : (Binary64.grain : Int) ≠ 0 :=
    Int.natCast_ne_zero.mpr (Nat.ne_of_gt Decimal.grain_pos)
  unfold Extent.ofInt
  rw [Extent.finite.injEq, Int.mul_eq_mul_right_iff hgrain]

theorem lt_ofInt : (Extent.ofInt n).lt (Extent.ofInt m) = decide (n < m) := by
  have hgrain : (0 : Int) < Binary64.grain := Int.natCast_pos.mpr Decimal.grain_pos
  have hlt : (Extent.ofInt n).lt (Extent.ofInt m) =
      decide (n * Binary64.grain < m * Binary64.grain) := rfl
  rw [hlt, decide_eq_decide, Int.mul_lt_mul_right hgrain]

/-- Integers are compared as they are. -/
theorem decides_ofInt : c.decides (.ofInt n) (.ofInt m) = decide (c.Orders n m) := by
  cases c with
  | equal => exact decide_eq_decide.mpr ofInt_inj
  | unequal =>
    rw [Comparison.decides, ← decide_not, decide_eq_decide]
    exact not_congr ofInt_inj
  | less => exact lt_ofInt
  | greater => exact lt_ofInt
  | atMost | atLeast =>
    rw [Comparison.decides, lt_ofInt, ← Bool.decide_or, decide_eq_decide, ofInt_inj]
    exact Int.le_iff_lt_or_eq.symm

/-- What is greater, or less, than all integers answers for an integer that has more digits than the
other may have. -/
theorem decides_of_isTooLong (hn : isTooLong n = true) (hm : isTooLong m = false) :
    c.decides (if n < 0 then .below else .above) (.ofInt m) = decide (c.Orders n m) := by
  obtain ⟨bound, hlarge, hsmall⟩ : ∃ bound, bound ≤ n.natAbs ∧ m.natAbs < bound :=
    ⟨_, isTooLong_iff.mp hn, isTooLong_eq_false.mp hm⟩
  by_cases hnegative : n < 0
  · rw [if_pos hnegative]
    cases c with
    | equal => exact (decide_eq_false (show ¬ n = m by omega)).symm
    | unequal => exact (decide_eq_true (show n ≠ m by omega)).symm
    | atMost => exact (decide_eq_true (show n ≤ m by omega)).symm
    | atLeast => exact (decide_eq_false (show ¬ m ≤ n by omega)).symm
    | less => exact (decide_eq_true (show n < m by omega)).symm
    | greater => exact (decide_eq_false (show ¬ m < n by omega)).symm
  · rw [if_neg hnegative]
    cases c with
    | equal => exact (decide_eq_false (show ¬ n = m by omega)).symm
    | unequal => exact (decide_eq_true (show n ≠ m by omega)).symm
    | atMost => exact (decide_eq_false (show ¬ n ≤ m by omega)).symm
    | atLeast => exact (decide_eq_true (show m ≤ n by omega)).symm
    | less => exact (decide_eq_false (show ¬ n < m by omega)).symm
    | greater => exact (decide_eq_true (show m < n by omega)).symm

end Orders

section Values

variable {c : Comparison} {n m : Int}

/-- The answer of a comparison of two numbers. Not-a-number is only unequal. -/
def Comparison.weighs : Comparison → Value.Numeric → Value.Numeric → Bool
  | c, .extent a, .extent b => c.decides a b
  | c, _, _ => c = .unequal

theorem eq_of_numeric? {v w : Value} {x y : Value.Numeric} (hv : v.numeric? = some x)
    (hw : w.numeric? = some y) : v.eq w = x.eq y := by
  cases v with
  | null | text | list | record => cases hv
  | bool | int | float =>
    rw [Value.eq, hv, hw]
    all_goals nofun

theorem lt?_of_numeric? {v w : Value} {x y : Value.Numeric} (hv : v.numeric? = some x)
    (hw : w.numeric? = some y) : v.lt? w = some (x.lt y) := by
  cases v with
  | null | text | list | record => cases hv
  | bool | int | float =>
    rw [Value.lt?, hv, hw]
    all_goals nofun

theorem le?_of_numeric? {v w : Value} {x y : Value.Numeric} (hv : v.numeric? = some x)
    (hw : w.numeric? = some y) : v.le? w = some (x.lt y || x.eq y) := by
  cases v with
  | null | text | list | record => cases hv
  | bool | int | float =>
    rw [Value.le?, hv, hw]
    all_goals nofun

/-- Numbers of any kinds are compared by what they are. -/
theorem holds?_of_numeric? {v w : Value} {x y : Value.Numeric} (hv : v.numeric? = some x)
    (hw : w.numeric? = some y) : holds? c v w = some (c.weighs x y) := by
  cases c with
  | equal | unequal =>
    rw [holds?, eq_of_numeric? hv hw]
    cases x <;> cases y <;> rfl
  | less =>
    rw [holds?, lt?_of_numeric? hv hw]
    cases x <;> cases y <;> rfl
  | greater =>
    rw [holds?, lt?_of_numeric? hw hv]
    cases x <;> cases y <;> rfl
  | atMost =>
    rw [holds?, le?_of_numeric? hv hw]
    cases x <;> cases y <;> rfl
  | atLeast =>
    rw [holds?, le?_of_numeric? hw hv]
    cases x <;> cases y <;> rfl

theorem compareValues_int :
    compareValues c (.int n) (.int m) = .ok (decide (c.Orders n m)) := by
  have halign : alignPair (.int n) (.int m) = (.int n, .int m) := rfl
  unfold compareValues
  rw [halign]
  dsimp only
  rw [holds?_of_numeric? (v := .int n) (w := .int m) rfl rfl, Comparison.weighs, decides_ofInt]

/-- The text of an integer is compared by the double that is nearest to the integer. -/
theorem compareValues_text {e : Extent} (he : Extent.ofBinary64? (Binary64.ofInt n) = some e) :
    compareValues c (.text (toString n)) (.int m) = .ok (c.decides e (.ofInt m)) := by
  have halign : alignPair (.text (toString n)) (.int m) =
      (.float (Binary64.ofInt n), .int m) := by
    rw [alignPair, readAs, readDecimal?_toString]
    nofun
  have hnumeric : (Value.float (Binary64.ofInt n)).numeric? = some (.extent e) := by
    rw [Value.numeric?, he]
  unfold compareValues
  rw [halign]
  dsimp only
  rw [holds?_of_numeric? hnumeric rfl, Comparison.weighs]

end Values

section Reading

variable {x : String} {c : Comparison} {m : Int}

/-- The guard that compares a variable with an integer. -/
def comparesInt (name : String) (c : Comparison) (m : Int) : String :=
  name ++ " " ++ c.sign ++ " " ++ toString m

theorem isNumber_toString (m : Int) : IsNumber (toString m).toList := by
  have hdigits : IsUnsigned (Nat.toDigits 10 m.natAbs) := by
    refine .whole ⟨Nat.toDigits_ne_nil, fun c hc => ?_⟩
    exact isDigit_of_isAsciiDigit (allDigits_toDigits _ c hc)
  rw [toList_toString_int]
  split
  · exact .negative hdigits
  · exact .plain hdigits

theorem takeToken?_toString (m : Int) :
    takeToken? (toString m).toList = some (.number (toString m).toList, []) := by
  obtain ⟨t, after, htake, hlength, hsame⟩ :=
    exists_takeToken?_of_spelled (.number (isNumber_toString m)) []
  obtain rfl := List.eq_nil_of_length_eq_zero (Nat.le_zero.mp hlength)
  rw [List.append_nil, hsame rfl] at htake
  exact htake

/-- No blank ends the text of an integer. -/
theorem stops_reverse_toString (m : Int) : Stops isBlank (toString m).toList.reverse :=
  fun _ hc => isBlank_of_mem_toString (List.mem_reverse.mp (List.mem_of_mem_head? hc))

/-- The guard is a name, a sign and a number. -/
theorem splits_comparesInt (hname : IsName x.toList) (hplain : wordSign? x = none)
    (c : Comparison) (m : Int) :
    Splits (trim (comparesInt x c m).toList)
      [.name x, .sign (.comparison c), .number (toString m).toList] :=
  tokens_eq_ok_iff.mp
    (tokens_comparing hname hplain c (takeToken?_toString m) (stops_reverse_toString m))

theorem numberValue_toString (m : Int) :
    numberValue (toString m).toList =
      if isTooLong m then .error (.tooManyDigits (Nat.toDigits 10 m.natAbs).length)
      else .ok (.int m) := by
  have hpoint : ¬ (toString m).toList.contains '.' = true := by
    rw [List.contains_iff_mem]
    intro hmem
    rcases mem_toString_int hmem with heq | hdigit
    · exact absurd heq (by decide)
    · exact absurd hdigit (by decide)
  unfold numberValue
  rw [if_neg hpoint, readInt_toString]
  cases isTooLong m <;> rfl

theorem read_comparesInt (hname : IsName x.toList) (hplain : wordSign? x = none)
    (c : Comparison) (m : Int) :
    Expression.read (comparesInt x c m) =
      if isTooLong m then .error (.tooManyDigits (Nat.toDigits 10 m.natAbs).length)
      else .ok (.compare c (ofName x) (.constant (.int m))) := by
  rw [Expression.read_of_splits (splits_comparesInt hname hplain c m)]
  obtain ⟨a, ha⟩ : ∃ a : Alternatives, a = .list (.list (.plain (.compared (.name x) c
    (.number (toString m).toList))) .done) .done := ⟨_, rfl⟩
  have htokens : a.tokens = [.name x, .sign (.comparison c), .number (toString m).toList] := by
    rw [ha]
    rfl
  have hheight : a.height = 5 := by
    rw [ha]
    rfl
  have hmeant : a.expression = (numberValue (toString m).toList).map fun v =>
      .compare c (ofName x) (.constant v) := by
    rw [ha]
    simp only [Alternatives.expression, Conjunction.expression, Condition.expression,
      Assertion.expression, Operand.expression]
    cases numberValue (toString m).toList <;> rfl
  rcases Expression.ofTokens_of_tokens a with hread | ⟨-, hdeep⟩
  · rw [← htokens, hread, hmeant, numberValue_toString]
    cases isTooLong m <;> rfl
  · rw [hheight] at hdeep
    exact absurd hdeep (by decide)

/-- The guard compares the value of the variable with the integer, if that is not too long. -/
theorem evaluate_comparesInt_eq (hname : IsName x.toList) (hplain : wordSign? x = none)
    (hvariable : constant? x = none) (c : Comparison) (m : Int) (bindings : Fields) :
    evaluate (comparesInt x c m) bindings =
      if isTooLong m then .error (.tooManyDigits (Nat.toDigits 10 m.natAbs).length)
      else compareValues c (lookup (.record bindings) (nameParts x)) (.int m) := by
  have hread := read_comparesInt hname hplain c m
  split at hread
  · rename_i hlong
    unfold evaluate value
    rw [hread, if_pos hlong]
    rfl
  · rename_i hshort
    rw [if_neg hshort]
    exact evaluate_compared hvariable hread bindings

theorem evaluate_comparesInt_set (hname : IsName x.toList) (hplain : wordSign? x = none)
    (hvariable : constant? x = none) (hpoint : '.' ∉ x.toList) (c : Comparison) (v : Value)
    (bindings : Fields) (hm : isTooLong m = false) :
    evaluate (comparesInt x c m) (Keyed.set x v bindings) = compareValues c v (.int m) := by
  rw [evaluate_comparesInt_eq hname hplain hvariable, hm, lookup_set, if_neg hpoint,
    if_neg Bool.false_ne_true]

/-- An integer that fits a double is compared as it is, and so is one that is greater, or less, than
all that a guard can write. -/
theorem decides_extent {n m : Int} {e : Extent}
    (he : Extent.ofBinary64? (Binary64.ofInt n) = some e)
    (hn : FitsDouble n ∨ isTooLong n = true) (c : Comparison) (hm : isTooLong m = false) :
    c.decides e (.ofInt m) = decide (c.Orders n m) := by
  rcases hn with hfits | hlong
  · rw [extent_ofInt_iff.mpr hfits, Option.some.injEq] at he
    rw [← he, decides_ofInt]
  · obtain ⟨k, hk, hbits⟩ : ∃ k, k ≤ digitLimit ∧ 2 ^ 1024 ≤ 10 ^ k :=
      ⟨310, by decide, two_pow_le_ten_pow⟩
    have hgreat : 2 ^ 1024 ≤ n.natAbs := hbits.trans
      ((Nat.pow_le_pow_right (by decide) hk).trans (isTooLong_iff.mp hlong))
    rw [extent_ofInt_of_le hgreat, Option.some.injEq] at he
    rw [← he, decides_of_isTooLong hlong hm]

/-- An integer that a guard writes is compared with an integer as it is, and with the text of one by
the double nearest to that. The answers are the same for all comparisons exactly where the text's
integer fits a double or has too many digits; such an integer no guard can write. -/
theorem evaluate_comparesInt (hx : tokens x = .ok [.name x]) (hvariable : constant? x = none)
    (hpoint : '.' ∉ x.toList) (bindings : Fields) (n : Int) :
    (∀ c m v, isTooLong m = true → evaluate (comparesInt x c m) (Keyed.set x v bindings) =
      .error (.tooManyDigits (Nat.toDigits 10 m.natAbs).length)) ∧
    (∀ c m, isTooLong m = false →
      evaluate (comparesInt x c m) (Keyed.set x (.int n) bindings) =
        .ok (decide (c.Orders n m))) ∧
    (∃ e, Extent.ofBinary64? (Binary64.ofInt n) = some e ∧ ∀ c m, isTooLong m = false →
      evaluate (comparesInt x c m) (Keyed.set x (.text (toString n)) bindings) =
        .ok (c.decides e (.ofInt m))) ∧
    ((∀ c m, evaluate (comparesInt x c m) (Keyed.set x (.text (toString n)) bindings) =
        evaluate (comparesInt x c m) (Keyed.set x (.int n) bindings)) ↔
      FitsDouble n ∨ isTooLong n = true) := by
  obtain ⟨hname, hplain⟩ := isName_of_tokens hx
  obtain ⟨e, he⟩ := exists_extent_ofInt n
  have hlong : ∀ c m v, isTooLong m = true →
      evaluate (comparesInt x c m) (Keyed.set x v bindings) =
        .error (.tooManyDigits (Nat.toDigits 10 m.natAbs).length) := by
    intro c m v hm
    rw [evaluate_comparesInt_eq hname hplain hvariable, if_pos hm]
  have hint : ∀ c m, isTooLong m = false →
      evaluate (comparesInt x c m) (Keyed.set x (.int n) bindings) =
        .ok (decide (c.Orders n m)) := by
    intro c m hm
    rw [evaluate_comparesInt_set hname hplain hvariable hpoint c _ bindings hm, compareValues_int]
  have htext : ∀ c m, isTooLong m = false →
      evaluate (comparesInt x c m) (Keyed.set x (.text (toString n)) bindings) =
        .ok (c.decides e (.ofInt m)) := by
    intro c m hm
    rw [evaluate_comparesInt_set hname hplain hvariable hpoint c _ bindings hm,
      compareValues_text he]
  refine ⟨hlong, hint, ⟨e, he, htext⟩, ?_, ?_⟩
  · intro hsame
    by_cases hn : isTooLong n = true
    · exact Or.inr hn
    · -- The guard that asks whether the variable is the integer itself tells the two apart.
      have hequal := hsame .equal n
      rw [htext .equal n (Bool.eq_false_iff.mpr hn), hint .equal n (Bool.eq_false_iff.mpr hn),
        Except.ok.injEq, Comparison.decides, decide_eq_decide] at hequal
      rw [hequal.mpr rfl] at he
      exact Or.inl (extent_ofInt_iff.mp he)
  · intro hfits c m
    by_cases hm : isTooLong m = true
    · rw [hlong c m _ hm, hlong c m _ hm]
    · rw [Bool.not_eq_true] at hm
      rw [htext c m hm, hint c m hm, decides_extent he hfits c hm]

/-- The least positive integer that fits no double is 9007199254740993. Its text equals the integer
before it. -/
theorem evaluate_comparesInt_of_rounded :
    tokens "x" = .ok [.name "x"] ∧ constant? "x" = none ∧ '.' ∉ "x".toList ∧
      evaluate "x == 9007199254740992" [("x", .text "9007199254740993")] = .ok true ∧
      evaluate "x == 9007199254740992" [("x", .int 9007199254740993)] = .ok false := by
  have hx : tokens "x" = .ok [.name "x"] := by decide +kernel
  have hvariable : constant? "x" = none := by decide +kernel
  have hpoint : '.' ∉ "x".toList := by decide
  obtain ⟨-, hint, ⟨e, he, htext⟩, -⟩ :=
    evaluate_comparesInt hx hvariable hpoint [] 9007199254740993
  have hrounded : Extent.ofBinary64? (Binary64.ofInt 9007199254740993) =
      some (.ofInt 9007199254740992) := by decide +kernel
  have hguard : comparesInt "x" .equal 9007199254740992 = "x == 9007199254740992" := by
    decide +kernel
  have hbound : toString (9007199254740993 : Int) = "9007199254740993" := by decide +kernel
  have hshort : isTooLong 9007199254740992 = false := by decide +kernel
  obtain rfl : Extent.ofInt 9007199254740992 = e := by
    rw [he, Option.some.injEq] at hrounded
    exact hrounded.symm
  have hnumber := hint .equal 9007199254740992 hshort
  have hread := htext .equal 9007199254740992 hshort
  rw [hguard] at hnumber
  rw [hguard, hbound, decides_ofInt] at hread
  exact ⟨hx, hvariable, hpoint, hread, hnumber⟩

end Reading

end Runbook.Guard
