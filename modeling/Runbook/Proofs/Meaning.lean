import Runbook.Proofs.Lexemes
import Runbook.Proofs.Sentences

/-!
What guards mean. A guard is read if its text splits into the tokens of a derivation, which may not
hold too long a number or go down too many levels; other guards are refused, most of them for an error
in their text. The derivation of a guard is the only one, and on all variables the guard has the value
of its derivation, unless it takes too many levels to find.
-/
namespace Runbook.Guard

open Text Number

section Numbers

/-- A whole number has more digits than an integer is read from. -/
def TooLong (digits : List Char) : Prop :=
  '.' ∉ digits ∧ digitLimit < (digits.filter isDigit).length

variable {ds : List Char}

theorem trimSpaces_of_ends {cs : List Char} (hfirst : Stops isBlank cs)
    (hlast : Stops isBlank cs.reverse) : trimSpaces cs = cs := by
  have hspace : ∀ cs, Stops isBlank cs → cs.dropWhile isSpace = cs := by
    intro cs hcs
    refine (split_iff.mpr ⟨(List.nil_append cs).symm, nofun, fun c hc => ?_⟩).2
    unfold isSpace
    rw [hcs c hc, Bool.false_and]
  unfold trimSpaces
  rw [hspace cs hfirst, hspace _ hlast, List.reverse_reverse]

theorem IsDigits.stops (h : IsDigits ds) : Stops isBlank ds.reverse := by
  intro c hc
  exact isBlank_of_isDigit (h.2 c (List.mem_reverse.mp (List.mem_of_mem_head? hc)))

theorem digitValue?_of_isDigit {c : Char} (h : isDigit c = true) :
    ∃ v, digitValue? c = some v := Option.isSome_iff_exists.mp h

theorem length_asciiDigits (h : ∀ c ∈ ds, isDigit c = true) :
    (asciiDigits ds).length = ds.length := by
  unfold asciiDigits
  induction ds with
  | nil => rfl
  | cons c cs ih =>
    obtain ⟨v, hv⟩ := digitValue?_of_isDigit (h c (List.mem_cons_self ..))
    rw [List.filterMap_cons, hv, Option.map_some, List.length_cons, List.length_cons,
      ih fun x hx => h x (List.mem_cons_of_mem _ hx)]

theorem ne_of_isDigit {c other : Char} (h : isDigit c = true) (hother : isDigit other = false) :
    c ≠ other := by
  rintro rfl
  rw [h] at hother
  cases hother

theorem isGrouped_of_digits (h : ∀ c ∈ ds, isDigit c = true) : isGrouped ds = true := by
  have hne : ∀ c ∈ ds, c ≠ '_' := fun c hc => ne_of_isDigit (h c hc) (by decide)
  unfold isGrouped
  rw [Bool.and_eq_true, Bool.and_eq_true, bne_iff_ne, bne_iff_ne, List.all_eq_true]
  refine ⟨⟨fun hhead => ?_, fun hlast => ?_⟩, fun pair hpair => ?_⟩
  · exact hne _ (List.mem_of_mem_head? hhead) rfl
  · exact hne _ (List.mem_of_mem_getLast? hlast) rfl
  · have hfirst : pair.1 ∈ ds := (List.of_mem_zip hpair).1
    rw [Bool.or_eq_true, bne_iff_ne]
    exact Or.inl (hne _ hfirst)

/-- An integer is read from digits alone exactly where they are not too many. -/
theorem readInt_of_isDigits (h : IsDigits ds) (sign : List Char) (hsign : sign = [] ∨ sign = ['-']) :
    (∃ n, readInt (sign ++ ds) = .ok n) ∧ ds.length ≤ digitLimit ∨
      readInt (sign ++ ds) = .error (.tooLong ds.length) ∧ digitLimit < ds.length := by
  have htrim : trimSpaces (sign ++ ds) = sign ++ ds := by
    apply trimSpaces_of_ends
    · rcases hsign with rfl | rfl
      · intro c hc
        exact isBlank_of_isDigit (h.2 c (List.mem_of_mem_head? hc))
      · exact stops_cons.mpr (by decide)
    · obtain ⟨c, cs, hcs⟩ := List.exists_cons_of_ne_nil (mt List.reverse_eq_nil_iff.mp h.1)
      have hstops := h.stops
      rw [List.reverse_append, hcs, List.cons_append]
      rw [hcs] at hstops
      exact stops_cons.mpr (stops_cons.mp hstops)
  have hbody : (takeSign (sign ++ ds)).2 = ds := by
    rcases hsign with rfl | rfl
    · obtain ⟨c, cs, rfl⟩ := List.exists_cons_of_ne_nil h.1
      have hc := h.2 c (List.mem_cons_self ..)
      rw [List.nil_append, takeSign]
      · exact fun tail => mt List.cons.inj fun heq => ne_of_isDigit hc (by decide) heq.1
      · exact fun tail => mt List.cons.inj fun heq => ne_of_isDigit hc (by decide) heq.1
    · rfl
  have hrun : ds.takeWhile isDigitOrUnderscore = ds := by
    rw [List.takeWhile_eq_self_iff]
    intro c hc
    unfold isDigitOrUnderscore
    rw [h.2 c hc, Bool.true_or]
  have hlength := length_asciiDigits h.2
  have hempty : (asciiDigits ds).isEmpty = false := by
    rw [List.isEmpty_eq_false_iff, ← List.length_pos_iff, hlength, List.length_pos_iff]
    exact h.1
  unfold readInt
  simp only [htrim, hbody, hrun, isGrouped_of_digits h.2, hlength, hempty, Bool.not_true,
    Bool.false_eq_true, if_false, Bool.false_or, lt_irrefl, decide_false]
  by_cases hlong : digitLimit < ds.length
  · rw [if_pos hlong]
    exact Or.inr ⟨rfl, hlong⟩
  · rw [if_neg hlong]
    exact Or.inl ⟨⟨_, rfl⟩, not_lt.mp hlong⟩

theorem IsNumber.exists_of_not_mem (h : IsNumber ds) (hpoint : '.' ∉ ds) :
    ∃ sign digits, ds = sign ++ digits ∧ (sign = [] ∨ sign = ['-']) ∧ IsDigits digits := by
  have hwhole : ∀ {digits}, IsUnsigned digits → '.' ∉ digits → IsDigits digits := by
    intro digits hdigits hnone
    cases hdigits with
    | whole hdigits => exact hdigits
    | decimal _ _ => exact absurd (List.mem_append_right _ (List.mem_cons_self ..)) hnone
  cases h with
  | plain h => exact ⟨[], ds, rfl, Or.inl rfl, hwhole h hpoint⟩
  | negative h =>
    rename_i digits
    rw [List.mem_cons, not_or] at hpoint
    exact ⟨['-'], digits, rfl, Or.inr rfl, hwhole h hpoint.2⟩

/-- A number has a value exactly where it is not too long. -/
theorem numberValue_of_isNumber (h : IsNumber ds) :
    (∃ v, numberValue ds = .ok v) ∧ ¬ TooLong ds ∨
      numberValue ds = .error (.tooManyDigits (ds.filter isDigit).length) ∧ TooLong ds := by
  unfold numberValue TooLong
  by_cases hpoint : '.' ∈ ds
  · rw [if_pos (List.contains_iff_mem.mpr hpoint)]
    exact Or.inl ⟨⟨_, rfl⟩, fun hlong => hlong.1 hpoint⟩
  · rw [if_neg (mt List.contains_iff_mem.mp hpoint)]
    obtain ⟨sign, digits, rfl, hsign, hdigits⟩ := h.exists_of_not_mem hpoint
    have hcount : ((sign ++ digits).filter isDigit).length = digits.length := by
      have hnone : sign.filter isDigit = [] := by
        rcases hsign with rfl | rfl
        · rfl
        · decide
      rw [List.filter_append, hnone, List.nil_append, List.filter_eq_self.mpr hdigits.2]
    rw [hcount]
    rcases readInt_of_isDigits hdigits sign hsign with ⟨⟨n, hn⟩, hshort⟩ | ⟨hfault, hlong⟩
    · rw [hn]
      exact Or.inl ⟨⟨_, rfl⟩, fun hlong => absurd hlong.2 (not_lt.mpr hshort)⟩
    · rw [hfault]
      exact Or.inr ⟨rfl, hpoint, hlong⟩

/-- The numbers of a text that splits into tokens are numbers. -/
theorem Splits.isNumber {cs : List Char} {ts : List Token} (h : Splits cs ts)
    (hmem : .number ds ∈ ts) : IsNumber ds := by
  induction h with
  | done => cases hmem
  | token hgap hlongest hrest ih =>
    rcases List.mem_cons.mp hmem with rfl | hmem
    · cases hlongest.spelled with
      | number h => exact h
    · exact ih hmem

end Numbers

section Legible

/-- An expression is read from tokens that hold numbers exactly where all of these have values. -/
def Legible (ts : List Token) (meant : Except Fault Expression) : Prop :=
  (∃ e, meant = .ok e) ∧ (∀ digits, .number digits ∈ ts → ∃ v, numberValue digits = .ok v) ∨
    ∃ digits f, .number digits ∈ ts ∧ numberValue digits = .error f ∧ meant = .error f

variable {ts ts' : List Token} {meant : Except Fault Expression}

theorem legible_ok (e : Expression) (h : ∀ digits, .number digits ∉ ts) : Legible ts (.ok e) :=
  Or.inl ⟨⟨e, rfl⟩, fun digits hmem => absurd hmem (h digits)⟩

theorem Legible.bind {next : Expression → Except Fault Expression} (h : Legible ts meant)
    (hnext : ∀ e, Legible ts' (next e)) : Legible (ts ++ ts') (meant >>= next) := by
  rcases h with ⟨⟨e, rfl⟩, hvalues⟩ | ⟨digits, f, hmem, hvalue, rfl⟩
  · rcases hnext e with ⟨hok, hvalues'⟩ | ⟨digits, f, hmem, hvalue, hf⟩
    · refine Or.inl ⟨hok, fun digits hmem => ?_⟩
      rcases List.mem_append.mp hmem with hmem | hmem
      · exact hvalues digits hmem
      · exact hvalues' digits hmem
    · exact Or.inr ⟨digits, f, List.mem_append_right _ hmem, hvalue, hf⟩
  · exact Or.inr ⟨digits, f, List.mem_append_left _ hmem, hvalue, rfl⟩

/-- Signs make no difference. -/
theorem Legible.of_iff (h : Legible ts meant)
    (hsame : ∀ digits, .number digits ∈ ts' ↔ .number digits ∈ ts) : Legible ts' meant := by
  rcases h with ⟨hok, hvalues⟩ | ⟨digits, f, hmem, hvalue, hf⟩
  · exact Or.inl ⟨hok, fun digits hmem => hvalues digits ((hsame digits).mp hmem)⟩
  · exact Or.inr ⟨digits, f, (hsame digits).mpr hmem, hvalue, hf⟩

mutual

theorem Alternatives.legible (a : Alternatives) : Legible a.tokens a.expression := by
  match a with
  | .list first more =>
    rw [Alternatives.tokens, Alternatives.expression]
    exact first.legible.bind fun e => more.legible e

theorem FurtherAlternatives.legible (more : FurtherAlternatives) (left : Expression) :
    Legible more.tokens (more.extend left) := by
  match more with
  | .done =>
    rw [FurtherAlternatives.tokens, FurtherAlternatives.extend]
    exact legible_ok left fun _ => List.not_mem_nil
  | .next c more =>
    rw [FurtherAlternatives.tokens, FurtherAlternatives.extend]
    exact (c.legible.bind fun e => more.legible (.either left e)).of_iff (by simp)

theorem Conjunction.legible (a : Conjunction) : Legible a.tokens a.expression := by
  match a with
  | .list first more =>
    rw [Conjunction.tokens, Conjunction.expression]
    exact first.legible.bind fun e => more.legible e

theorem FurtherConditions.legible (more : FurtherConditions) (left : Expression) :
    Legible more.tokens (more.extend left) := by
  match more with
  | .done =>
    rw [FurtherConditions.tokens, FurtherConditions.extend]
    exact legible_ok left fun _ => List.not_mem_nil
  | .next c more =>
    rw [FurtherConditions.tokens, FurtherConditions.extend]
    exact (c.legible.bind fun e => more.legible (.both left e)).of_iff (by simp)

theorem Condition.legible (a : Condition) : Legible a.tokens a.expression := by
  match a with
  | .negated c =>
    rw [Condition.tokens, Condition.expression]
    exact (c.legible.bind fun e => legible_ok (.negation e) fun _ => List.not_mem_nil).of_iff
      (by simp)
  | .plain a =>
    rw [Condition.tokens, Condition.expression]
    exact a.legible

theorem Assertion.legible (a : Assertion) : Legible a.tokens a.expression := by
  match a with
  | .alone o =>
    rw [Assertion.tokens, Assertion.expression]
    exact o.legible
  | .compared left c right =>
    rw [Assertion.tokens, Assertion.expression]
    have hboth : ∀ l, Legible (right.tokens ++ [])
        (right.expression >>= fun r => pure (.compare c l r)) := fun l =>
      right.legible.bind fun r => legible_ok (.compare c l r) fun _ => List.not_mem_nil
    exact (left.legible.bind hboth).of_iff (by simp)

theorem Operand.legible (o : Operand) : Legible o.tokens o.expression := by
  match o with
  | .group a =>
    rw [Operand.tokens, Operand.expression]
    exact a.legible.of_iff (by simp)
  | .number digits =>
    rw [Operand.tokens, Operand.expression]
    cases hvalue : numberValue digits with
    | error f => exact Or.inr ⟨digits, f, List.mem_singleton_self _, hvalue, rfl⟩
    | ok v =>
      refine Or.inl ⟨⟨.constant v, rfl⟩, fun other hmem => ?_⟩
      cases List.mem_singleton.mp hmem
      exact ⟨v, hvalue⟩
  | .quotation quote inside =>
    rw [Operand.tokens, Operand.expression]
    exact legible_ok _ fun _ => by simp
  | .name s =>
    rw [Operand.tokens, Operand.expression]
    exact legible_ok _ fun _ => by simp

end

end Legible

section Values

/-- How many levels an expression has. -/
def Expression.levels : Expression → Nat
  | .constant _ | .variable _ => 1
  | .negation e => e.levels + 1
  | .compare _ left right | .both left right | .either left right =>
    max left.levels right.levels + 1

variable (bindings : Fields)

/-- The value of an expression, whatever levels it has. -/
def Expression.value : Expression → Except Fault Value
  | .constant v => .ok v
  | .variable name => .ok (lookup (.record bindings) (nameParts name))
  | .compare c left right => do
    let l ← left.value
    let r ← right.value
    return .bool (← compareValues c l r)
  | .negation e => do return .bool (!truth (← e.value))
  | .both left right => do
    let l ← left.value
    if truth l then return .bool (truth (← right.value)) else return .bool false
  | .either left right => do
    let l ← left.value
    if truth l then return .bool true else return .bool (truth (← right.value))

variable {bindings : Fields}

/-- One computation after the other, where the first may have been too deep. -/
theorem deep_or_bind {α β : Type} {x y : Except Fault α} {f g : α → Except Fault β} {p q : Prop}
    (h : x = y ∨ x = .error .tooDeep ∧ p) (hnext : ∀ a, f a = g a ∨ f a = .error .tooDeep ∧ q) :
    (x >>= f) = (y >>= g) ∨ (x >>= f) = .error .tooDeep ∧ (p ∨ q) := by
  rcases h with rfl | ⟨rfl, hp⟩
  · cases x with
    | error e => exact Or.inl rfl
    | ok a => exact (hnext a).imp_right fun hdeep => ⟨hdeep.1, Or.inr hdeep.2⟩
  · exact Or.inr ⟨rfl, Or.inl hp⟩

theorem deep_or_last {α β : Type} {x y : Except Fault α} {p : Prop}
    (h : x = y ∨ x = .error .tooDeep ∧ p) (f : α → Except Fault β) :
    (x >>= f) = (y >>= f) ∨ (x >>= f) = .error .tooDeep ∧ p := by
  rcases h with rfl | ⟨rfl, hp⟩
  · exact Or.inl rfl
  · exact Or.inr ⟨rfl, hp⟩

variable (bindings) in
/-- The value of an expression, its parts' values given. -/
def Expression.evalWith (part : Expression → Except Fault Value) :
    Expression → Except Fault Value
  | .constant v => .ok v
  | .variable name => .ok (lookup (.record bindings) (nameParts name))
  | .compare c left right => do
    let l ← part left
    let r ← part right
    return .bool (← compareValues c l r)
  | .negation e => do return .bool (!truth (← part e))
  | .both left right => do
    let l ← part left
    if truth l then return .bool (truth (← part right)) else return .bool false
  | .either left right => do
    let l ← part left
    if truth l then return .bool true else return .bool (truth (← part right))

theorem Expression.eval_zero (e : Expression) :
    e.eval bindings 0 = .error .tooDeep ∧ 0 < e.levels := by
  cases e <;>
  · rw [eval, levels]
    exact ⟨rfl, by omega⟩

theorem Expression.eval_succ (e : Expression) (depth : Nat) :
    e.eval bindings (depth + 1) = e.evalWith bindings (eval bindings · depth) := by
  cases e <;>
  · rw [eval]
    rfl

theorem Expression.value_eq_evalWith (e : Expression) :
    e.value bindings = e.evalWith bindings (value bindings) := by
  cases e <;>
  · rw [value]
    rfl

/-- Where the parts of an expression are too deep or alike, so is the whole. -/
theorem Expression.evalWith_eq_or {f g : Expression → Except Fault Value} {depth : Nat}
    (h : ∀ part, f part = g part ∨ f part = .error .tooDeep ∧ depth < part.levels)
    (e : Expression) :
    e.evalWith bindings f = e.evalWith bindings g ∨
      e.evalWith bindings f = .error .tooDeep ∧ depth + 1 < e.levels := by
  cases e with
  | constant v => exact Or.inl rfl
  | «variable» name => exact Or.inl rfl
  | compare c left right =>
    rw [levels]
    refine (deep_or_bind (h left) fun l => deep_or_last (h right) _).imp_right
      (And.imp_right ?_)
    omega
  | negation e =>
    rw [levels]
    refine (deep_or_last (h e) _).imp_right (And.imp_right ?_)
    omega
  | both left right =>
    rw [levels]
    refine (deep_or_bind (q := depth < right.levels) (h left) fun l => ?_).imp_right
      (And.imp_right ?_)
    · split
      · exact deep_or_last (h right) _
      · exact Or.inl rfl
    · omega
  | either left right =>
    rw [levels]
    refine (deep_or_bind (q := depth < right.levels) (h left) fun l => ?_).imp_right
      (And.imp_right ?_)
    · split
      · exact Or.inl rfl
      · exact deep_or_last (h right) _
    · omega

/-- An expression has its value, unless it takes too many levels to find. -/
theorem Expression.eval_eq_or (e : Expression) (depth : Nat) :
    e.eval bindings depth = e.value bindings ∨
      e.eval bindings depth = .error .tooDeep ∧ depth < e.levels := by
  induction depth generalizing e with
  | zero => exact Or.inr e.eval_zero
  | succ depth ih =>
    rw [e.eval_succ, e.value_eq_evalWith]
    exact e.evalWith_eq_or ih

/-- One level more makes no difference, unless what there is of them does not do. -/
theorem Expression.eval_eq_or_succ (e : Expression) (depth : Nat) :
    e.eval bindings depth = e.eval bindings (depth + 1) ∨
      e.eval bindings depth = .error .tooDeep ∧ depth < e.levels := by
  induction depth generalizing e with
  | zero => exact Or.inr e.eval_zero
  | succ depth ih =>
    rw [e.eval_succ, e.eval_succ]
    exact e.evalWith_eq_or ih

theorem value_ofName (s : String) :
    (ofName s).value bindings = (Operand.name s).value bindings := by
  rw [Operand.value]
  unfold ofName
  cases constant? s with
  | none => rfl
  | some v => rfl

/-! What is read where a derivation is written has the derivation's value. -/

mutual

theorem Alternatives.value_eq {a : Alternatives} {e : Expression} (h : a.expression = .ok e) :
    e.value bindings = a.value bindings := by
  match a with
  | .list first more =>
    rw [Alternatives.expression, bind_eq_ok_iff] at h
    obtain ⟨l, hl, hmore⟩ := h
    rw [Alternatives.value, ← Conjunction.value_eq hl, FurtherAlternatives.value_eq hmore]

theorem FurtherAlternatives.value_eq {more : FurtherAlternatives} {left e : Expression}
    (h : more.extend left = .ok e) :
    e.value bindings = left.value bindings >>= more.value bindings := by
  match more with
  | .done =>
    rw [FurtherAlternatives.extend] at h
    cases h
    have hdone : FurtherAlternatives.value bindings .done = pure := by
      funext v
      rw [FurtherAlternatives.value]
      rfl
    rw [hdone, bind_pure]
  | .next c more =>
    rw [FurtherAlternatives.extend, bind_eq_ok_iff] at h
    obtain ⟨r, hr, hmore⟩ := h
    rw [FurtherAlternatives.value_eq hmore, Expression.value, Conjunction.value_eq hr, bind_assoc]
    refine bind_congr fun v => ?_
    rw [FurtherAlternatives.value]
    split
    · rw [pure_bind]
    · rw [bind_assoc]
      exact bind_congr fun w => pure_bind _ _

theorem Conjunction.value_eq {a : Conjunction} {e : Expression} (h : a.expression = .ok e) :
    e.value bindings = a.value bindings := by
  match a with
  | .list first more =>
    rw [Conjunction.expression, bind_eq_ok_iff] at h
    obtain ⟨l, hl, hmore⟩ := h
    rw [Conjunction.value, ← Condition.value_eq hl, FurtherConditions.value_eq hmore]

theorem FurtherConditions.value_eq {more : FurtherConditions} {left e : Expression}
    (h : more.extend left = .ok e) :
    e.value bindings = left.value bindings >>= more.value bindings := by
  match more with
  | .done =>
    rw [FurtherConditions.extend] at h
    cases h
    have hdone : FurtherConditions.value bindings .done = pure := by
      funext v
      rw [FurtherConditions.value]
      rfl
    rw [hdone, bind_pure]
  | .next c more =>
    rw [FurtherConditions.extend, bind_eq_ok_iff] at h
    obtain ⟨r, hr, hmore⟩ := h
    rw [FurtherConditions.value_eq hmore, Expression.value, Condition.value_eq hr, bind_assoc]
    refine bind_congr fun v => ?_
    rw [FurtherConditions.value]
    split
    · rw [bind_assoc]
      exact bind_congr fun w => pure_bind _ _
    · rw [pure_bind]

theorem Condition.value_eq {a : Condition} {e : Expression} (h : a.expression = .ok e) :
    e.value bindings = a.value bindings := by
  match a with
  | .negated c =>
    rw [Condition.expression, bind_eq_ok_iff] at h
    obtain ⟨inner, hinner, hpure⟩ := h
    cases hpure
    rw [Expression.value, Condition.value, Condition.value_eq hinner]
  | .plain a =>
    rw [Condition.expression] at h
    rw [Condition.value, Assertion.value_eq h]

theorem Assertion.value_eq {a : Assertion} {e : Expression} (h : a.expression = .ok e) :
    e.value bindings = a.value bindings := by
  match a with
  | .alone o =>
    rw [Assertion.expression] at h
    rw [Assertion.value, Operand.value_eq h]
  | .compared left c right =>
    rw [Assertion.expression, bind_eq_ok_iff] at h
    obtain ⟨l, hl, hright⟩ := h
    obtain ⟨r, hr, hpure⟩ := bind_eq_ok_iff.mp hright
    cases hpure
    rw [Expression.value, Assertion.value, Operand.value_eq hl, Operand.value_eq hr]

theorem Operand.value_eq {o : Operand} {e : Expression} (h : o.expression = .ok e) :
    e.value bindings = o.value bindings := by
  match o with
  | .group a =>
    rw [Operand.expression] at h
    rw [Operand.value, Alternatives.value_eq h]
  | .number digits =>
    rw [Operand.expression, bind_eq_ok_iff] at h
    obtain ⟨v, hv, hpure⟩ := h
    cases hpure
    rw [Expression.value, Operand.value, hv]
  | .quotation quote inside =>
    rw [Operand.expression] at h
    cases h
    rw [Expression.value, Operand.value]
  | .name s =>
    rw [Operand.expression] at h
    cases h
    exact value_ofName s

end

theorem compareValues_eq_error {c : Comparison} {l r : Value} {f : Fault}
    (h : compareValues c l r = .error f) : ∃ left right, f = .incomparable left c right := by
  unfold compareValues at h
  simp only at h
  split at h
  · cases h
  · cases h
    exact ⟨_, _, rfl⟩

/-- Only a comparison keeps an expression from having a value. -/
theorem Expression.incomparable_of_value {e : Expression} {f : Fault}
    (h : e.value bindings = .error f) : ∃ left c right, f = .incomparable left c right := by
  induction e with
  | constant v =>
    rw [value] at h
    cases h
  | «variable» name =>
    rw [value] at h
    cases h
  | compare c left right ihLeft ihRight =>
    rw [value] at h
    rcases bind_eq_error_iff.mp h with hleft | ⟨l, -, h⟩
    · exact ihLeft hleft
    rcases bind_eq_error_iff.mp h with hright | ⟨r, -, h⟩
    · exact ihRight hright
    rcases bind_eq_error_iff.mp h with hcompare | ⟨b, -, h⟩
    · obtain ⟨a, b, rfl⟩ := compareValues_eq_error hcompare
      exact ⟨a, c, b, rfl⟩
    · cases h
  | negation e ih =>
    rw [value] at h
    rcases bind_eq_error_iff.mp h with hinner | ⟨v, -, h⟩
    · exact ih hinner
    · cases h
  | both left right ihLeft ihRight =>
    rw [value] at h
    rcases bind_eq_error_iff.mp h with hleft | ⟨l, -, h⟩
    · exact ihLeft hleft
    split at h
    · rcases bind_eq_error_iff.mp h with hright | ⟨r, -, h⟩
      · exact ihRight hright
      · cases h
    · cases h
  | either left right ihLeft ihRight =>
    rw [value] at h
    rcases bind_eq_error_iff.mp h with hleft | ⟨l, -, h⟩
    · exact ihLeft hleft
    split at h
    · cases h
    · rcases bind_eq_error_iff.mp h with hright | ⟨r, -, h⟩
      · exact ihRight hright
      · cases h

end Values

section Guards

/-- The errors that are found in the text of a guard. -/
def Fault.IsSyntax : Fault → Prop
  | .character _ | .empty | .ended | .unexpected _ | .unclosed => True
  | .incomparable .. | .tooManyDigits _ | .tooDeep => False

variable {ts : List Token} {e : Expression} {f : Fault}

theorem Alternatives.tokens_ne_nil (a : Alternatives) : a.tokens ≠ [] := by
  intro hnil
  have hfinds := a.finds 0 depthLimit endsAlternatives_nil (hnil ▸ le_refl 0)
  have hlegible := a.legible
  rw [hnil] at hfinds hlegible
  have hended : readEither 0 depthLimit ([] ++ []) = .error .ended := rfl
  rw [hended] at hfinds
  rcases hlegible with ⟨⟨e, he⟩, -⟩ | ⟨digits, -, hmem, -⟩
  · rw [he] at hfinds
    rcases hfinds with hok | ⟨hdeep, -⟩
    · cases hok
    · cases hdeep
  · cases hmem

/-- The tokens of a derivation are read as its expression, unless it has too many levels. -/
theorem Expression.ofTokens_of_tokens (a : Alternatives) :
    ofTokens a.tokens = a.expression ∨
      ofTokens a.tokens = .error .tooDeep ∧ depthLimit < a.height := by
  have hempty : a.tokens.isEmpty = false := List.isEmpty_eq_false_iff.mpr a.tokens_ne_nil
  have hfinds := a.finds a.tokens.length depthLimit endsAlternatives_nil (le_refl _)
  rw [List.append_nil] at hfinds
  unfold ofTokens
  rw [hempty, if_neg Bool.false_ne_true]
  rcases hfinds with hfound | ⟨hdeep, hheight⟩
  · rw [hfound]
    cases a.expression with
    | error f => exact Or.inl rfl
    | ok e => exact Or.inl rfl
  · rw [hdeep]
    exact Or.inr ⟨rfl, not_le.mp hheight⟩

theorem Expression.exists_of_ofTokens (h : ofTokens ts = .ok e) :
    ∃ a : Alternatives, a.tokens = ts ∧ a.expression = .ok e ∧ a.height ≤ depthLimit := by
  unfold ofTokens at h
  split at h
  · cases h
  · obtain ⟨⟨found, rest⟩, hread, hrest⟩ := bind_eq_ok_iff.mp h
    obtain ⟨a, rfl, ha, hheight⟩ := exists_of_readEither depthLimit hread
    cases rest with
    | nil =>
      cases hrest
      exact ⟨a, (List.append_nil _).symm, ha, hheight⟩
    | cons token rest => cases hrest

/-- Tokens are refused for an error in the text, for a number without a value or for their levels. -/
theorem Expression.refused_of_ofTokens (h : ofTokens ts = .error f) :
    f = .empty ∨ Refused ts depthLimit 5 f := by
  unfold ofTokens at h
  split at h
  · cases h
    exact Or.inl rfl
  · right
    rcases bind_eq_error_iff.mp h with hread | ⟨⟨found, rest⟩, -, hrest⟩
    · exact refused_of_readEither depthLimit hread
    · cases rest with
      | nil => cases hrest
      | cons token rest =>
        cases hrest
        exact .unexpected _

variable {s : String}

theorem Expression.read_of_splits (h : Splits (trim s.toList) ts) : read s = ofTokens ts := by
  unfold read
  rw [tokens_eq_ok_iff.mpr h]
  rfl

theorem Expression.exists_of_read (h : read s = .ok e) :
    ∃ a : Alternatives, Splits (trim s.toList) a.tokens ∧ a.expression = .ok e ∧
      a.height ≤ depthLimit := by
  unfold read at h
  obtain ⟨ts, hts, hread⟩ := bind_eq_ok_iff.mp h
  rw [mapError_eq_ok_iff, tokens_eq_ok_iff] at hts
  obtain ⟨a, rfl, ha, hheight⟩ := exists_of_ofTokens hread
  exact ⟨a, hts, ha, hheight⟩

/-- Where the tokens of a text are those of a derivation, the derivation has an expression exactly if
no number is too long. -/
theorem Alternatives.expression_of_splits {a : Alternatives}
    (h : Splits (trim s.toList) a.tokens) :
    (∃ e, a.expression = .ok e) ∧ (∀ digits, .number digits ∈ a.tokens → ¬ TooLong digits) ∨
      ∃ digits, .number digits ∈ a.tokens ∧ TooLong digits ∧
        a.expression = .error (.tooManyDigits (digits.filter isDigit).length) := by
  rcases a.legible with ⟨hok, hvalues⟩ | ⟨digits, f, hmem, hvalue, hf⟩
  · refine Or.inl ⟨hok, fun digits hmem hlong => ?_⟩
    obtain ⟨v, hv⟩ := hvalues digits hmem
    rcases numberValue_of_isNumber (h.isNumber hmem) with ⟨-, hshort⟩ | ⟨hfault, -⟩
    · exact hshort hlong
    · rw [hv] at hfault
      cases hfault
  · rcases numberValue_of_isNumber (h.isNumber hmem) with ⟨⟨v, hv⟩, -⟩ | ⟨hfault, hlong⟩
    · rw [hv] at hvalue
      cases hvalue
    · rw [hfault] at hvalue
      cases hvalue
      exact Or.inr ⟨digits, hmem, hlong, hf⟩

theorem exists_read_iff : (∃ e, Expression.read s = .ok e) ↔
    ∃ a : Alternatives, Splits (trim s.toList) a.tokens ∧
      (∀ digits, .number digits ∈ a.tokens → ¬ TooLong digits) ∧ a.height ≤ depthLimit := by
  constructor
  · rintro ⟨e, he⟩
    obtain ⟨a, hsplits, ha, hheight⟩ := Expression.exists_of_read he
    rcases Alternatives.expression_of_splits hsplits with ⟨-, hshort⟩ | ⟨digits, -, -, hfault⟩
    · exact ⟨a, hsplits, hshort, hheight⟩
    · rw [ha] at hfault
      cases hfault
  · rintro ⟨a, hsplits, hshort, hheight⟩
    rw [Expression.read_of_splits hsplits]
    rcases Expression.ofTokens_of_tokens a with hread | ⟨-, hdeep⟩
    · rw [hread]
      rcases Alternatives.expression_of_splits hsplits with ⟨hok, -⟩ | ⟨digits, hmem, hlong, -⟩
      · exact hok
      · exact absurd hlong (hshort digits hmem)
    · exact absurd hheight (not_le.mpr hdeep)

/-- A guard that has a derivation is not refused for an error in its text. -/
theorem not_isSyntax_of_splits {a : Alternatives} (h : Splits (trim s.toList) a.tokens)
    (hread : Expression.read s = .error f) : ¬ f.IsSyntax := by
  rw [Expression.read_of_splits h] at hread
  rcases Expression.ofTokens_of_tokens a with hsame | ⟨hdeep, -⟩
  · rw [hread] at hsame
    rcases Alternatives.expression_of_splits h with ⟨⟨e, he⟩, -⟩ | ⟨digits, -, -, hfault⟩
    · rw [he] at hsame
      cases hsame
    · rw [hfault] at hsame
      cases hsame
      exact id
  · rw [hread] at hdeep
    cases hdeep
    exact id

theorem refused_of_read (h : Expression.read s = .error f) :
    (f.IsSyntax ∧ ¬ ∃ a : Alternatives, Splits (trim s.toList) a.tokens) ∨
      ∃ ts, Splits (trim s.toList) ts ∧
        ((∃ digits, .number digits ∈ ts ∧ TooLong digits ∧
            f = .tooManyDigits (digits.filter isDigit).length) ∨
          f = .tooDeep ∧ depthLimit < levels ts + 5) := by
  have hwrong : f.IsSyntax → f.IsSyntax ∧ ¬ ∃ a : Alternatives, Splits (trim s.toList) a.tokens :=
    fun hf => ⟨hf, fun ⟨a, ha⟩ => not_isSyntax_of_splits ha h hf⟩
  unfold Expression.read at h
  rcases bind_eq_error_iff.mp h with htokens | ⟨ts, htokens, hread⟩
  · obtain ⟨position, -, rfl⟩ := exists_of_mapError_eq_error htokens
    exact Or.inl (hwrong trivial)
  · rw [mapError_eq_ok_iff, tokens_eq_ok_iff] at htokens
    rcases Expression.refused_of_ofTokens hread with rfl | hrefused
    · exact Or.inl (hwrong trivial)
    · cases hrefused with
      | ended => exact Or.inl (hwrong trivial)
      | unexpected token => exact Or.inl (hwrong trivial)
      | unclosed => exact Or.inl (hwrong trivial)
      | number hmem hnumber =>
        rcases numberValue_of_isNumber (htokens.isNumber hmem) with ⟨⟨v, hv⟩, -⟩ | ⟨hfault, hlong⟩
        · rw [hv] at hnumber
          cases hnumber
        · rw [hfault] at hnumber
          cases hnumber
          exact Or.inr ⟨ts, htokens, Or.inl ⟨_, hmem, hlong, rfl⟩⟩
      | tooDeep hdeep => exact Or.inr ⟨ts, htokens, Or.inr ⟨rfl, hdeep⟩⟩

/-- A guard that is read has one derivation, whose value it has on all variables unless it takes too
many levels to find; only a comparison keeps it from having one. -/
theorem exists_derivation_of_read (h : Expression.read s = .ok e) :
    ∃ a : Alternatives, Splits (trim s.toList) a.tokens ∧
      (∀ other : Alternatives, Splits (trim s.toList) other.tokens → other = a) ∧
      ∀ bindings,
        (value s bindings = a.value bindings ∨
          value s bindings = .error .tooDeep ∧ depthLimit < e.levels) ∧
        ∀ f, a.value bindings = .error f → ∃ left c right, f = .incomparable left c right := by
  obtain ⟨a, hsplits, ha, -⟩ := Expression.exists_of_read h
  refine ⟨a, hsplits, fun other hother => ?_, fun bindings => ?_⟩
  · exact Alternatives.eq_of_tokens_eq (hother.unique hsplits)
  · have heval : value s bindings = e.eval bindings depthLimit := by
      unfold value
      rw [h]
      rfl
    rw [heval, ← Alternatives.value_eq ha]
    exact ⟨e.eval_eq_or depthLimit, fun f hf => Expression.incomparable_of_value hf⟩

/-- A guard is read exactly if it is a sentence of the grammar without too long a number or too many
levels; it is refused for an error in its text only if it is no sentence; and what is read means what
the only derivation does. -/
theorem read_and_value (s : String) :
    ((∃ e, Expression.read s = .ok e) ↔
      ∃ a : Alternatives, Splits (trim s.toList) a.tokens ∧
        (∀ digits, .number digits ∈ a.tokens → ¬ TooLong digits) ∧ a.height ≤ depthLimit) ∧
    (∀ f, Expression.read s = .error f →
      (f.IsSyntax ∧ ¬ ∃ a : Alternatives, Splits (trim s.toList) a.tokens) ∨
        ∃ ts, Splits (trim s.toList) ts ∧
          ((∃ digits, .number digits ∈ ts ∧ TooLong digits ∧
              f = .tooManyDigits (digits.filter isDigit).length) ∨
            f = .tooDeep ∧ depthLimit < levels ts + 5)) ∧
    ∀ e, Expression.read s = .ok e →
      ∃ a : Alternatives, Splits (trim s.toList) a.tokens ∧
        (∀ other : Alternatives, Splits (trim s.toList) other.tokens → other = a) ∧
        ∀ bindings,
          (value s bindings = a.value bindings ∨
            value s bindings = .error .tooDeep ∧ depthLimit < e.levels) ∧
          ∀ f, a.value bindings = .error f → ∃ left c right, f = .incomparable left c right :=
  ⟨exists_read_iff, fun _ h => refused_of_read h, fun _ h => exists_derivation_of_read h⟩

/-- A whole number of one digit more than an integer is read from. -/
def manyOnes : String := String.ofList (List.replicate (digitLimit + 1) '1')

/-- A number that is too long is a sentence of the grammar, and still it is not read. -/
theorem not_read_manyOnes :
    (∃ a : Alternatives, Splits (trim manyOnes.toList) a.tokens) ∧
      ¬ ∃ e, Expression.read manyOnes = .ok e := by
  have hdigits : IsDigits (List.replicate (digitLimit + 1) '1') := by
    refine ⟨?_, fun c hc => ?_⟩
    · rw [List.replicate_succ]
      nofun
    · rw [List.eq_of_mem_replicate hc]
      decide
  have hlong : TooLong (List.replicate (digitLimit + 1) '1') := by
    refine ⟨fun hpoint => absurd (List.eq_of_mem_replicate hpoint) (by decide), ?_⟩
    rw [List.filter_eq_self.mpr hdigits.2, List.length_replicate]
    exact Nat.lt_succ_self _
  have hsplits : Splits (trim manyOnes.toList)
      [.number (List.replicate (digitLimit + 1) '1')] := by
    have hfirst : Stops isBlank (List.replicate (digitLimit + 1) '1') := fun c hc =>
      isBlank_of_isDigit (hdigits.2 c (List.mem_of_mem_head? hc))
    obtain ⟨t, after, htake, hlength, hsame⟩ :=
      exists_takeToken?_of_spelled (.number (.plain (.whole hdigits))) []
    obtain rfl := List.eq_nil_of_length_eq_zero (Nat.le_zero.mp hlength)
    rw [List.append_nil, hsame rfl] at htake
    unfold manyOnes
    rw [String.toList_ofList, trim_of_stops hfirst hdigits.stops]
    have hnone : Blanks [] := nofun
    exact .of_takeToken? hnone htake .done
  refine ⟨⟨.list (.list (.plain (.alone (.number _))) .done) .done, hsplits⟩, ?_⟩
  rintro hread
  obtain ⟨a, ha, hshort, -⟩ := (read_and_value manyOnes).1.mp hread
  rw [ha.unique hsplits] at hshort
  exact hshort _ (List.mem_singleton_self _) hlong

end Guards

end Runbook.Guard
