import Mathlib.Tactic.ByContra
import Runbook.Guard.Evaluation
import Runbook.Proofs.Success

/-!
The grammar of guards. Alternatives are conjunctions with `||` between them, conjunctions are
conditions with `&&` between them, a condition is an assertion behind any number of `!`, an assertion
is an operand or two of them with a comparison between them, and an operand is a number, a quotation,
a name or alternatives in parentheses. A derivation has the tokens that are read off its leaves, and
a value on a run's variables; no two derivations have the same tokens.
-/
namespace Runbook.Guard

mutual

inductive Alternatives where
  | list (first : Conjunction) (more : FurtherAlternatives)

inductive FurtherAlternatives where
  | done
  | next (c : Conjunction) (more : FurtherAlternatives)

inductive Conjunction where
  | list (first : Condition) (more : FurtherConditions)

inductive FurtherConditions where
  | done
  | next (c : Condition) (more : FurtherConditions)

inductive Condition where
  | negated (c : Condition)
  | plain (a : Assertion)

inductive Assertion where
  | alone (o : Operand)
  | compared (left : Operand) (c : Comparison) (right : Operand)

inductive Operand where
  | group (a : Alternatives)
  | number (digits : List Char)
  | quotation (quote : Char) (inside : List Char)
  | name (s : String)

end

section Leaves

mutual

def Alternatives.tokens : Alternatives → List Token
  | .list first more => first.tokens ++ more.tokens

def FurtherAlternatives.tokens : FurtherAlternatives → List Token
  | .done => []
  | .next c more => .sign .either :: (c.tokens ++ more.tokens)

def Conjunction.tokens : Conjunction → List Token
  | .list first more => first.tokens ++ more.tokens

def FurtherConditions.tokens : FurtherConditions → List Token
  | .done => []
  | .next c more => .sign .both :: (c.tokens ++ more.tokens)

def Condition.tokens : Condition → List Token
  | .negated c => .sign .negation :: c.tokens
  | .plain a => a.tokens

def Assertion.tokens : Assertion → List Token
  | .alone o => o.tokens
  | .compared left c right => left.tokens ++ .sign (.comparison c) :: right.tokens

def Operand.tokens : Operand → List Token
  | .group a => .sign .opening :: (a.tokens ++ [.sign .closing])
  | .number digits => [.number digits]
  | .quotation quote inside => [.quotation quote inside]
  | .name s => [.name s]

end

end Leaves

section Levels

mutual

/-- How many levels a derivation has: each parenthesis goes down five of them, each negation one. -/
def Alternatives.height : Alternatives → Nat
  | .list first more => max first.height more.height + 1

def FurtherAlternatives.height : FurtherAlternatives → Nat
  | .done => 0
  | .next c more => max c.height more.height

def Conjunction.height : Conjunction → Nat
  | .list first more => max first.height more.height + 1

def FurtherConditions.height : FurtherConditions → Nat
  | .done => 0
  | .next c more => max c.height more.height

def Condition.height : Condition → Nat
  | .negated c => c.height + 1
  | .plain a => a.height + 1

def Assertion.height : Assertion → Nat
  | .alone o => o.height + 1
  | .compared left _ right => max left.height right.height + 1

def Operand.height : Operand → Nat
  | .group a => a.height + 1
  | .number _ | .quotation _ _ | .name _ => 1

end

end Levels

section Meaning

variable (bindings : Fields)

mutual

/-- The value of a derivation. Further alternatives are looked at as long as none holds. -/
def Alternatives.value : Alternatives → Except Fault Value
  | .list first more => do more.value (← first.value)

def FurtherAlternatives.value : FurtherAlternatives → Value → Except Fault Value
  | .done, v => .ok v
  | .next c more, v =>
    if truth v then more.value (.bool true)
    else do more.value (.bool (truth (← c.value)))

/-- Further conditions are looked at as long as all hold. -/
def Conjunction.value : Conjunction → Except Fault Value
  | .list first more => do more.value (← first.value)

def FurtherConditions.value : FurtherConditions → Value → Except Fault Value
  | .done, v => .ok v
  | .next c more, v =>
    if truth v then do more.value (.bool (truth (← c.value)))
    else more.value (.bool false)

def Condition.value : Condition → Except Fault Value
  | .negated c => do return .bool (!truth (← c.value))
  | .plain a => a.value

def Assertion.value : Assertion → Except Fault Value
  | .alone o => o.value
  | .compared left c right => do
    let l ← left.value
    let r ← right.value
    return .bool (← compareValues c l r)

def Operand.value : Operand → Except Fault Value
  | .group a => a.value
  | .number digits => numberValue digits
  | .quotation _ inside => .ok (.text (String.ofList (resolveEscapes inside)))
  | .name s =>
    match constant? s with
    | some v => .ok v
    | none => .ok (lookup (.record bindings) (nameParts s))

end

end Meaning

section Reading

mutual

/-- The expression that is read where a derivation is written. -/
def Alternatives.expression : Alternatives → Except Fault Expression
  | .list first more => do more.extend (← first.expression)

def FurtherAlternatives.extend : FurtherAlternatives → Expression → Except Fault Expression
  | .done, left => .ok left
  | .next c more, left => do more.extend (.either left (← c.expression))

def Conjunction.expression : Conjunction → Except Fault Expression
  | .list first more => do more.extend (← first.expression)

def FurtherConditions.extend : FurtherConditions → Expression → Except Fault Expression
  | .done, left => .ok left
  | .next c more, left => do more.extend (.both left (← c.expression))

def Condition.expression : Condition → Except Fault Expression
  | .negated c => do return .negation (← c.expression)
  | .plain a => a.expression

def Assertion.expression : Assertion → Except Fault Expression
  | .alone o => o.expression
  | .compared left c right => do
    let l ← left.expression
    let r ← right.expression
    return .compare c l r

def Operand.expression : Operand → Except Fault Expression
  | .group a => a.expression
  | .number digits => do return .constant (← numberValue digits)
  | .quotation _ inside => .ok (.constant (.text (String.ofList (resolveEscapes inside))))
  | .name s => .ok (ofName s)

end

end Reading

section Ends

/-- An assertion is not written further. -/
def EndsAssertion (rest : List Token) : Prop := ∀ c, rest.head? ≠ some (.sign (.comparison c))

/-- A conjunction is not written further. -/
def EndsConjunction (rest : List Token) : Prop :=
  EndsAssertion rest ∧ rest.head? ≠ some (.sign .both)

/-- Alternatives are not written further. -/
def EndsAlternatives (rest : List Token) : Prop :=
  EndsConjunction rest ∧ rest.head? ≠ some (.sign .either)

variable {rest : List Token}

theorem endsAlternatives_nil : EndsAlternatives [] := ⟨⟨nofun, nofun⟩, nofun⟩

theorem endsAlternatives_closing : EndsAlternatives (.sign .closing :: rest) :=
  ⟨⟨nofun, nofun⟩, nofun⟩

theorem FurtherConditions.endsAssertion (h : EndsConjunction rest) (more : FurtherConditions) :
    EndsAssertion (more.tokens ++ rest) := by
  cases more with
  | done =>
    rw [FurtherConditions.tokens]
    exact h.1
  | next c more =>
    rw [FurtherConditions.tokens]
    nofun

theorem FurtherAlternatives.endsConjunction (h : EndsAlternatives rest)
    (more : FurtherAlternatives) : EndsConjunction (more.tokens ++ rest) := by
  cases more with
  | done =>
    rw [FurtherAlternatives.tokens]
    exact h.1
  | next c more =>
    rw [FurtherAlternatives.tokens]
    exact ⟨nofun, nofun⟩

/-- An operand does not begin with a negation. -/
theorem Operand.tokens_ne_negation (o : Operand) (tail : List Token) :
    o.tokens ++ rest ≠ .sign .negation :: tail := by
  cases o <;>
  · rw [Operand.tokens]
    nofun

theorem Assertion.tokens_ne_negation (a : Assertion) (tail : List Token) :
    a.tokens ++ rest ≠ .sign .negation :: tail := by
  cases a with
  | alone o =>
    rw [Assertion.tokens]
    exact o.tokens_ne_negation tail
  | compared left c right =>
    rw [Assertion.tokens, List.append_assoc]
    exact left.tokens_ne_negation tail

end Ends

section Uniqueness

/-! What is written in front of a text that does not go on with a phrase is one derivation of it. The
induction is on the first of the two derivations; each sign decides which one the second has to be. -/

mutual

theorem Alternatives.unique (a b : Alternatives) {rest rest' : List Token}
    (hrest : EndsAlternatives rest) (hrest' : EndsAlternatives rest')
    (h : a.tokens ++ rest = b.tokens ++ rest') : a = b ∧ rest = rest' := by
  match a, b with
  | .list first more, .list first' more' =>
    rw [Alternatives.tokens, Alternatives.tokens, List.append_assoc, List.append_assoc] at h
    obtain ⟨rfl, hmore⟩ := Conjunction.unique first first' (more.endsConjunction hrest)
      (more'.endsConjunction hrest') h
    obtain ⟨rfl, rfl⟩ := FurtherAlternatives.unique more more' hrest hrest' hmore
    exact ⟨rfl, rfl⟩

theorem FurtherAlternatives.unique (a b : FurtherAlternatives) {rest rest' : List Token}
    (hrest : EndsAlternatives rest) (hrest' : EndsAlternatives rest')
    (h : a.tokens ++ rest = b.tokens ++ rest') : a = b ∧ rest = rest' := by
  match a, b with
  | .done, .done =>
    rw [FurtherAlternatives.tokens] at h
    exact ⟨rfl, h⟩
  | .done, .next c more =>
    rw [FurtherAlternatives.tokens, FurtherAlternatives.tokens, List.nil_append] at h
    exact absurd (h ▸ rfl) hrest.2
  | .next c more, .done =>
    rw [FurtherAlternatives.tokens, FurtherAlternatives.tokens, List.nil_append] at h
    exact absurd (h ▸ rfl) hrest'.2
  | .next c more, .next c' more' =>
    rw [FurtherAlternatives.tokens, FurtherAlternatives.tokens, List.cons_append,
      List.cons_append, List.append_assoc, List.append_assoc] at h
    obtain ⟨rfl, hmore⟩ := Conjunction.unique c c' (more.endsConjunction hrest)
      (more'.endsConjunction hrest') (List.cons.inj h).2
    obtain ⟨rfl, rfl⟩ := FurtherAlternatives.unique more more' hrest hrest' hmore
    exact ⟨rfl, rfl⟩

theorem Conjunction.unique (a b : Conjunction) {rest rest' : List Token}
    (hrest : EndsConjunction rest) (hrest' : EndsConjunction rest')
    (h : a.tokens ++ rest = b.tokens ++ rest') : a = b ∧ rest = rest' := by
  match a, b with
  | .list first more, .list first' more' =>
    rw [Conjunction.tokens, Conjunction.tokens, List.append_assoc, List.append_assoc] at h
    obtain ⟨rfl, hmore⟩ := Condition.unique first first' (more.endsAssertion hrest)
      (more'.endsAssertion hrest') h
    obtain ⟨rfl, rfl⟩ := FurtherConditions.unique more more' hrest hrest' hmore
    exact ⟨rfl, rfl⟩

theorem FurtherConditions.unique (a b : FurtherConditions) {rest rest' : List Token}
    (hrest : EndsConjunction rest) (hrest' : EndsConjunction rest')
    (h : a.tokens ++ rest = b.tokens ++ rest') : a = b ∧ rest = rest' := by
  match a, b with
  | .done, .done =>
    rw [FurtherConditions.tokens] at h
    exact ⟨rfl, h⟩
  | .done, .next c more =>
    rw [FurtherConditions.tokens, FurtherConditions.tokens, List.nil_append] at h
    exact absurd (h ▸ rfl) hrest.2
  | .next c more, .done =>
    rw [FurtherConditions.tokens, FurtherConditions.tokens, List.nil_append] at h
    exact absurd (h ▸ rfl) hrest'.2
  | .next c more, .next c' more' =>
    rw [FurtherConditions.tokens, FurtherConditions.tokens, List.cons_append, List.cons_append,
      List.append_assoc, List.append_assoc] at h
    obtain ⟨rfl, hmore⟩ := Condition.unique c c' (more.endsAssertion hrest)
      (more'.endsAssertion hrest') (List.cons.inj h).2
    obtain ⟨rfl, rfl⟩ := FurtherConditions.unique more more' hrest hrest' hmore
    exact ⟨rfl, rfl⟩

theorem Condition.unique (a b : Condition) {rest rest' : List Token}
    (hrest : EndsAssertion rest) (hrest' : EndsAssertion rest')
    (h : a.tokens ++ rest = b.tokens ++ rest') : a = b ∧ rest = rest' := by
  match a, b with
  | .negated c, .negated c' =>
    rw [Condition.tokens, Condition.tokens, List.cons_append, List.cons_append] at h
    obtain ⟨rfl, rfl⟩ := Condition.unique c c' hrest hrest' (List.cons.inj h).2
    exact ⟨rfl, rfl⟩
  | .negated c, .plain a =>
    rw [Condition.tokens, Condition.tokens, List.cons_append] at h
    exact absurd h.symm (a.tokens_ne_negation _)
  | .plain a, .negated c =>
    rw [Condition.tokens, Condition.tokens, List.cons_append] at h
    exact absurd h (a.tokens_ne_negation _)
  | .plain a, .plain a' =>
    rw [Condition.tokens, Condition.tokens] at h
    obtain ⟨rfl, rfl⟩ := Assertion.unique a a' hrest hrest' h
    exact ⟨rfl, rfl⟩

theorem Assertion.unique (a b : Assertion) {rest rest' : List Token}
    (hrest : EndsAssertion rest) (hrest' : EndsAssertion rest')
    (h : a.tokens ++ rest = b.tokens ++ rest') : a = b ∧ rest = rest' := by
  match a, b with
  | .alone o, .alone o' =>
    rw [Assertion.tokens, Assertion.tokens] at h
    obtain ⟨rfl, rfl⟩ := Operand.unique o o' h
    exact ⟨rfl, rfl⟩
  | .alone o, .compared left c right =>
    rw [Assertion.tokens, Assertion.tokens, List.append_assoc] at h
    obtain ⟨-, rfl⟩ := Operand.unique o left h
    exact absurd rfl (hrest c)
  | .compared left c right, .alone o =>
    rw [Assertion.tokens, Assertion.tokens, List.append_assoc] at h
    obtain ⟨-, rfl⟩ := Operand.unique left o h
    exact absurd rfl (hrest' c)
  | .compared left c right, .compared left' c' right' =>
    rw [Assertion.tokens, Assertion.tokens, List.append_assoc, List.append_assoc] at h
    obtain ⟨rfl, hsign⟩ := Operand.unique left left' h
    rw [List.cons_append, List.cons_append] at hsign
    obtain ⟨hc, hright⟩ := List.cons.inj hsign
    cases hc
    obtain ⟨rfl, rfl⟩ := Operand.unique right right' hright
    exact ⟨rfl, rfl⟩

theorem Operand.unique (a b : Operand) {rest rest' : List Token}
    (h : a.tokens ++ rest = b.tokens ++ rest') : a = b ∧ rest = rest' := by
  match a, b with
  | .group inner, .group inner' =>
    rw [Operand.tokens, Operand.tokens, List.cons_append, List.cons_append, List.append_assoc,
      List.append_assoc] at h
    obtain ⟨rfl, hclosing⟩ := Alternatives.unique inner inner' endsAlternatives_closing
      endsAlternatives_closing (List.cons.inj h).2
    exact ⟨rfl, (List.cons.inj hclosing).2⟩
  | .number digits, .number digits' =>
    cases h
    exact ⟨rfl, rfl⟩
  | .quotation quote inside, .quotation quote' inside' =>
    cases h
    exact ⟨rfl, rfl⟩
  | .name s, .name s' =>
    cases h
    exact ⟨rfl, rfl⟩
  | .group _, .number _ | .group _, .quotation _ _ | .group _, .name _ | .number _, .group _
  | .number _, .quotation _ _ | .number _, .name _ | .quotation _ _, .group _
  | .quotation _ _, .number _ | .quotation _ _, .name _ | .name _, .group _ | .name _, .number _
  | .name _, .quotation _ _ =>
    rw [Operand.tokens, Operand.tokens] at h
    cases h

end

/-- No two derivations of alternatives have the same tokens. -/
theorem Alternatives.eq_of_tokens_eq {a b : Alternatives} (h : a.tokens = b.tokens) : a = b := by
  have hrest : a.tokens ++ [] = b.tokens ++ [] := congrArg (· ++ []) h
  exact (Alternatives.unique a b endsAlternatives_nil endsAlternatives_nil hrest).1

end Uniqueness

end Runbook.Guard
