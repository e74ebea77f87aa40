import Runbook.Proofs.Derivations

/-!
Reading guards finds their derivations. Where a phrase is written and not continued, the reader of its
kind gives the phrase's expression and what comes after it, if it may go down as many levels as the
phrase has. On the other hand, whatever a reader accepts is a phrase of its kind. What goes wrong on
other tokens is an error in the grammar, except where a number has too many digits or the tokens have
signs enough to go down as many levels as there are.
-/
namespace Runbook.Guard

section Finding

/-- What is found where a phrase is written: its expression and what comes after it, unless the
phrase does not fit into the levels that may be read. -/
def Finds (found : Except Fault (Expression × Rest)) (meant : Except Fault Expression) (rest : Rest)
    (fits : Prop) : Prop :=
  found = meant.map (·, rest) ∨ found = .error .tooDeep ∧ ¬ fits

variable {found : Except Fault (Expression × Rest)} {meant : Except Fault Expression}
  {rest rest' : Rest} {fits fits' : Prop}

theorem Finds.of_imp (h : Finds found meant rest fits) (hfits : fits' → fits) :
    Finds found meant rest fits' :=
  h.imp_right fun hdeep => ⟨hdeep.1, fun hfit => hdeep.2 (hfits hfit)⟩

theorem finds_ok (e : Expression) (rest : Rest) : Finds (.ok (e, rest)) (.ok e) rest True :=
  Or.inl rfl

/-- One phrase after the other. -/
theorem Finds.bind {next : Expression × Rest → Except Fault (Expression × Rest)}
    {meantNext : Expression → Except Fault Expression} (h : Finds found meant rest fits)
    (hnext : ∀ e, Finds (next (e, rest)) (meantNext e) rest' fits') :
    Finds (found >>= next) (meant >>= meantNext) rest' (fits ∧ fits') := by
  rcases h with rfl | ⟨rfl, hfits⟩
  · cases meant with
    | error f => exact Or.inl rfl
    | ok e => exact (hnext e).of_imp And.right
  · exact Or.inr ⟨rfl, fun hboth => hfits hboth.1⟩

variable {part : List Token → Except Fault (Expression × Rest)} {sign : Sign}
  {join : Expression → Expression → Expression} {left : Expression}

theorem chain_of_ne {fuel : Nat} (h : rest.head? ≠ some (.sign sign)) :
    chain part sign join fuel left rest = .ok (left, rest) := by
  cases fuel with
  | zero => cases rest <;> rfl
  | succ fuel =>
    cases rest with
    | nil => rfl
    | cons token ts =>
      have hne : token ≠ .sign sign := by
        rintro rfl
        exact h rfl
      rw [chain, if_neg hne]

theorem chain_of_sign {fuel : Nat} {ts : List Token} :
    chain part sign join (fuel + 1) left (.sign sign :: ts) =
      part ts >>= fun found => chain part sign join fuel (join left found.1) found.2 := by
  rw [chain, if_pos rfl]

variable (size : Nat)

mutual

theorem Alternatives.finds (a : Alternatives) (depth : Nat) {rest : Rest}
    (hrest : EndsAlternatives rest) (hsize : a.tokens.length ≤ size) :
    Finds (readEither size depth (a.tokens ++ rest)) a.expression rest (a.height ≤ depth) := by
  match a, depth with
  | .list first more, 0 =>
    rw [readEither, Alternatives.height]
    exact Or.inr ⟨rfl, by omega⟩
  | .list first more, depth + 1 =>
    rw [Alternatives.tokens, List.length_append] at hsize
    rw [Alternatives.tokens, List.append_assoc, readEither, Alternatives.expression,
      Alternatives.height]
    refine Finds.of_imp (Finds.bind (first.finds depth (more.endsConjunction hrest) (by omega))
      fun e => more.finds depth size e hrest (by omega) (by omega)) ?_
    omega

theorem FurtherAlternatives.finds (more : FurtherAlternatives) (depth fuel : Nat)
    (left : Expression) {rest : Rest} (hrest : EndsAlternatives rest)
    (hsize : more.tokens.length ≤ size) (hfuel : more.tokens.length ≤ fuel) :
    Finds (chain (readBoth size depth) .either .either fuel left (more.tokens ++ rest))
      (more.extend left) rest (more.height ≤ depth) := by
  match more, fuel with
  | .done, fuel =>
    rw [FurtherAlternatives.tokens, FurtherAlternatives.extend, List.nil_append,
      chain_of_ne hrest.2]
    exact (finds_ok left rest).of_imp fun _ => trivial
  | .next c more, 0 =>
    rw [FurtherAlternatives.tokens] at hfuel
    exact absurd hfuel (Nat.not_succ_le_zero _)
  | .next c more, fuel + 1 =>
    rw [FurtherAlternatives.tokens, List.length_cons, List.length_append] at hsize hfuel
    rw [FurtherAlternatives.tokens, List.cons_append, List.append_assoc, chain_of_sign,
      FurtherAlternatives.extend, FurtherAlternatives.height]
    refine Finds.of_imp (Finds.bind (c.finds depth (more.endsConjunction hrest) (by omega))
      fun e => more.finds depth fuel (.either left e) hrest (by omega) (by omega)) ?_
    omega

theorem Conjunction.finds (a : Conjunction) (depth : Nat) {rest : Rest}
    (hrest : EndsConjunction rest) (hsize : a.tokens.length ≤ size) :
    Finds (readBoth size depth (a.tokens ++ rest)) a.expression rest (a.height ≤ depth) := by
  match a, depth with
  | .list first more, 0 =>
    rw [readBoth, Conjunction.height]
    exact Or.inr ⟨rfl, by omega⟩
  | .list first more, depth + 1 =>
    rw [Conjunction.tokens, List.length_append] at hsize
    rw [Conjunction.tokens, List.append_assoc, readBoth, Conjunction.expression,
      Conjunction.height]
    refine Finds.of_imp (Finds.bind (first.finds depth (more.endsAssertion hrest) (by omega))
      fun e => more.finds depth size e hrest (by omega) (by omega)) ?_
    omega

theorem FurtherConditions.finds (more : FurtherConditions) (depth fuel : Nat)
    (left : Expression) {rest : Rest} (hrest : EndsConjunction rest)
    (hsize : more.tokens.length ≤ size) (hfuel : more.tokens.length ≤ fuel) :
    Finds (chain (readNegation size depth) .both .both fuel left (more.tokens ++ rest))
      (more.extend left) rest (more.height ≤ depth) := by
  match more, fuel with
  | .done, fuel =>
    rw [FurtherConditions.tokens, FurtherConditions.extend, List.nil_append, chain_of_ne hrest.2]
    exact (finds_ok left rest).of_imp fun _ => trivial
  | .next c more, 0 =>
    rw [FurtherConditions.tokens] at hfuel
    exact absurd hfuel (Nat.not_succ_le_zero _)
  | .next c more, fuel + 1 =>
    rw [FurtherConditions.tokens, List.length_cons, List.length_append] at hsize hfuel
    rw [FurtherConditions.tokens, List.cons_append, List.append_assoc, chain_of_sign,
      FurtherConditions.extend, FurtherConditions.height]
    refine Finds.of_imp (Finds.bind (c.finds depth (more.endsAssertion hrest) (by omega))
      fun e => more.finds depth fuel (.both left e) hrest (by omega) (by omega)) ?_
    omega

theorem Condition.finds (a : Condition) (depth : Nat) {rest : Rest}
    (hrest : EndsAssertion rest) (hsize : a.tokens.length ≤ size) :
    Finds (readNegation size depth (a.tokens ++ rest)) a.expression rest (a.height ≤ depth) := by
  match a, depth with
  | .negated c, 0 | .plain a, 0 =>
    rw [readNegation, Condition.height]
    exact Or.inr ⟨rfl, by omega⟩
  | .negated c, depth + 1 =>
    rw [Condition.tokens, List.length_cons] at hsize
    rw [Condition.tokens, List.cons_append, readNegation, Condition.expression, Condition.height]
    refine Finds.of_imp (Finds.bind (c.finds depth hrest (by omega))
      fun e => finds_ok (.negation e) rest) ?_
    exact fun h => ⟨by omega, trivial⟩
  | .plain a, depth + 1 =>
    rw [Condition.tokens] at hsize
    rw [Condition.tokens, readNegation, Condition.expression, Condition.height]
    · exact Finds.of_imp (a.finds depth hrest hsize) (by omega)
    · exact a.tokens_ne_negation

theorem Assertion.finds (a : Assertion) (depth : Nat) {rest : Rest}
    (hrest : EndsAssertion rest) (hsize : a.tokens.length ≤ size) :
    Finds (readComparison size depth (a.tokens ++ rest)) a.expression rest (a.height ≤ depth) := by
  match a, depth with
  | .alone o, 0 | .compared left c right, 0 =>
    rw [readComparison, Assertion.height]
    exact Or.inr ⟨rfl, by omega⟩
  | .alone o, depth + 1 =>
    rw [Assertion.tokens] at hsize
    rw [Assertion.tokens, readComparison, Assertion.expression, Assertion.height,
      ← bind_pure o.expression]
    refine Finds.of_imp (Finds.bind (o.finds depth hsize)
      fun e => (?found : Finds _ _ _ True)) ?fits
    case found =>
      simp only
      split
      · exact absurd rfl (hrest _)
      · exact finds_ok e rest
    case fits => exact fun h => ⟨by omega, trivial⟩
  | .compared left c right, depth + 1 =>
    rw [Assertion.tokens, List.length_append, List.length_cons] at hsize
    rw [Assertion.tokens, List.append_assoc, List.cons_append, readComparison,
      Assertion.expression, Assertion.height]
    refine Finds.of_imp (Finds.bind (left.finds depth (by omega)) fun l =>
      Finds.bind (right.finds depth (by omega)) fun r => finds_ok (.compare c l r) rest) ?_
    exact fun h => ⟨by omega, by omega, trivial⟩

theorem Operand.finds (o : Operand) (depth : Nat) {rest : Rest}
    (hsize : o.tokens.length ≤ size) :
    Finds (readAtom size depth (o.tokens ++ rest)) o.expression rest (o.height ≤ depth) := by
  match o, depth with
  | .group a, 0 | .number digits, 0 | .quotation quote inside, 0 | .name s, 0 =>
    rw [readAtom, Operand.height]
    exact Or.inr ⟨rfl, by omega⟩
  | .group a, depth + 1 =>
    rw [Operand.tokens, List.length_cons, List.length_append] at hsize
    rw [Operand.tokens, List.cons_append, List.append_assoc, readAtom, Operand.expression,
      Operand.height, ← bind_pure a.expression]
    refine Finds.of_imp (Finds.bind (a.finds depth endsAlternatives_closing (by omega))
      fun e => finds_ok e rest) ?_
    exact fun h => ⟨by omega, trivial⟩
  | .number digits, depth + 1 =>
    rw [Operand.tokens, List.singleton_append, readAtom, Operand.expression]
    left
    cases numberValue digits <;> rfl
  | .quotation quote inside, depth + 1 =>
    rw [Operand.tokens, List.singleton_append, readAtom, Operand.expression]
    exact (finds_ok _ rest).of_imp fun _ => trivial
  | .name s, depth + 1 =>
    rw [Operand.tokens, List.singleton_append, readAtom, Operand.expression]
    exact (finds_ok _ rest).of_imp fun _ => trivial

end

end Finding

section Accepting

variable {size : Nat}

/-- What is accepted after the first of several alternatives, where every part of it is a
conjunction. -/
theorem FurtherAlternatives.exists_of_chain {depth : Nat}
    (hpart : ∀ ts e rest, readBoth size depth ts = .ok (e, rest) →
      ∃ c : Conjunction, ts = c.tokens ++ rest ∧ c.expression = .ok e ∧ c.height ≤ depth)
    (fuel : Nat) {left e : Expression} {ts : List Token} {rest : Rest}
    (h : chain (readBoth size depth) .either .either fuel left ts = .ok (e, rest)) :
    ∃ more : FurtherAlternatives, ts = more.tokens ++ rest ∧ more.extend left = .ok e ∧
      more.height ≤ depth := by
  induction fuel generalizing left ts with
  | zero =>
    rw [chain] at h
    · cases h
      exact ⟨.done, rfl, rfl, Nat.zero_le _⟩
    · nofun
  | succ fuel ih =>
    by_cases hsign : ts.head? = some (.sign .either)
    · obtain ⟨tail, rfl⟩ := List.head?_eq_some_iff.mp hsign
      rw [chain_of_sign] at h
      obtain ⟨⟨right, after⟩, hright, hchain⟩ := bind_eq_ok_iff.mp h
      obtain ⟨c, rfl, hc, hheight⟩ := hpart _ _ _ hright
      obtain ⟨more, rfl, hmore, hmoreHeight⟩ := ih hchain
      refine ⟨.next c more, ?_, ?_, ?_⟩
      · rw [FurtherAlternatives.tokens, List.cons_append, List.append_assoc]
      · rw [FurtherAlternatives.extend, hc]
        exact hmore
      · rw [FurtherAlternatives.height]
        omega
    · rw [chain_of_ne hsign] at h
      cases h
      exact ⟨.done, rfl, rfl, Nat.zero_le _⟩

theorem FurtherConditions.exists_of_chain {depth : Nat}
    (hpart : ∀ ts e rest, readNegation size depth ts = .ok (e, rest) →
      ∃ c : Condition, ts = c.tokens ++ rest ∧ c.expression = .ok e ∧ c.height ≤ depth)
    (fuel : Nat) {left e : Expression} {ts : List Token} {rest : Rest}
    (h : chain (readNegation size depth) .both .both fuel left ts = .ok (e, rest)) :
    ∃ more : FurtherConditions, ts = more.tokens ++ rest ∧ more.extend left = .ok e ∧
      more.height ≤ depth := by
  induction fuel generalizing left ts with
  | zero =>
    rw [chain] at h
    · cases h
      exact ⟨.done, rfl, rfl, Nat.zero_le _⟩
    · nofun
  | succ fuel ih =>
    by_cases hsign : ts.head? = some (.sign .both)
    · obtain ⟨tail, rfl⟩ := List.head?_eq_some_iff.mp hsign
      rw [chain_of_sign] at h
      obtain ⟨⟨right, after⟩, hright, hchain⟩ := bind_eq_ok_iff.mp h
      obtain ⟨c, rfl, hc, hheight⟩ := hpart _ _ _ hright
      obtain ⟨more, rfl, hmore, hmoreHeight⟩ := ih hchain
      refine ⟨.next c more, ?_, ?_, ?_⟩
      · rw [FurtherConditions.tokens, List.cons_append, List.append_assoc]
      · rw [FurtherConditions.extend, hc]
        exact hmore
      · rw [FurtherConditions.height]
        omega
    · rw [chain_of_ne hsign] at h
      cases h
      exact ⟨.done, rfl, rfl, Nat.zero_le _⟩

mutual

theorem exists_of_readEither (depth : Nat) {ts : List Token} {e : Expression} {rest : Rest}
    (h : readEither size depth ts = .ok (e, rest)) :
    ∃ a : Alternatives, ts = a.tokens ++ rest ∧ a.expression = .ok e ∧ a.height ≤ depth := by
  match depth with
  | 0 =>
    rw [readEither] at h
    cases h
  | depth + 1 =>
    rw [readEither] at h
    obtain ⟨⟨first, after⟩, hfirst, hchain⟩ := bind_eq_ok_iff.mp h
    obtain ⟨c, rfl, hc, hheight⟩ := exists_of_readBoth depth hfirst
    obtain ⟨more, rfl, hmore, hmoreHeight⟩ := FurtherAlternatives.exists_of_chain
      (fun _ _ _ hpart => exists_of_readBoth depth hpart) size hchain
    refine ⟨.list c more, ?_, ?_, ?_⟩
    · rw [Alternatives.tokens, List.append_assoc]
    · rw [Alternatives.expression, hc]
      exact hmore
    · rw [Alternatives.height]
      omega

theorem exists_of_readBoth (depth : Nat) {ts : List Token} {e : Expression} {rest : Rest}
    (h : readBoth size depth ts = .ok (e, rest)) :
    ∃ c : Conjunction, ts = c.tokens ++ rest ∧ c.expression = .ok e ∧ c.height ≤ depth := by
  match depth with
  | 0 =>
    rw [readBoth] at h
    cases h
  | depth + 1 =>
    rw [readBoth] at h
    obtain ⟨⟨first, after⟩, hfirst, hchain⟩ := bind_eq_ok_iff.mp h
    obtain ⟨c, rfl, hc, hheight⟩ := exists_of_readNegation depth hfirst
    obtain ⟨more, rfl, hmore, hmoreHeight⟩ := FurtherConditions.exists_of_chain
      (fun _ _ _ hpart => exists_of_readNegation depth hpart) size hchain
    refine ⟨.list c more, ?_, ?_, ?_⟩
    · rw [Conjunction.tokens, List.append_assoc]
    · rw [Conjunction.expression, hc]
      exact hmore
    · rw [Conjunction.height]
      omega

theorem exists_of_readNegation (depth : Nat) {ts : List Token} {e : Expression} {rest : Rest}
    (h : readNegation size depth ts = .ok (e, rest)) :
    ∃ c : Condition, ts = c.tokens ++ rest ∧ c.expression = .ok e ∧ c.height ≤ depth := by
  match depth with
  | 0 =>
    rw [readNegation] at h
    cases h
  | depth + 1 =>
    by_cases hsign : ∃ tail, ts = .sign .negation :: tail
    · obtain ⟨tail, rfl⟩ := hsign
      rw [readNegation] at h
      obtain ⟨⟨inner, after⟩, hinner, hpure⟩ := bind_eq_ok_iff.mp h
      cases hpure
      obtain ⟨c, rfl, hc, hheight⟩ := exists_of_readNegation depth hinner
      refine ⟨.negated c, ?_, ?_, ?_⟩
      · rw [Condition.tokens, List.cons_append]
      · rw [Condition.expression, hc]
        rfl
      · rw [Condition.height]
        omega
    · rw [readNegation] at h
      · obtain ⟨a, rfl, ha, hheight⟩ := exists_of_readComparison depth h
        refine ⟨.plain a, ?_, ?_, ?_⟩
        · rw [Condition.tokens]
        · rw [Condition.expression, ha]
        · rw [Condition.height]
          omega
      · exact fun tail htail => hsign ⟨tail, htail⟩

theorem exists_of_readComparison (depth : Nat) {ts : List Token} {e : Expression} {rest : Rest}
    (h : readComparison size depth ts = .ok (e, rest)) :
    ∃ a : Assertion, ts = a.tokens ++ rest ∧ a.expression = .ok e ∧ a.height ≤ depth := by
  match depth with
  | 0 =>
    rw [readComparison] at h
    cases h
  | depth + 1 =>
    rw [readComparison] at h
    obtain ⟨⟨left, after⟩, hleft, hafter⟩ := bind_eq_ok_iff.mp h
    obtain ⟨o, rfl, ho, hheight⟩ := exists_of_readAtom depth hleft
    simp only at hafter
    split at hafter
    · rename_i c more
      obtain ⟨⟨right, last⟩, hright, hpure⟩ := bind_eq_ok_iff.mp hafter
      cases hpure
      obtain ⟨r, rfl, hr, hrightHeight⟩ := exists_of_readAtom depth hright
      refine ⟨.compared o c r, ?_, ?_, ?_⟩
      · rw [Assertion.tokens, List.append_assoc, List.cons_append]
      · rw [Assertion.expression, ho, hr]
        rfl
      · rw [Assertion.height]
        omega
    · cases hafter
      refine ⟨.alone o, ?_, ?_, ?_⟩
      · rw [Assertion.tokens]
      · rw [Assertion.expression, ho]
      · rw [Assertion.height]
        omega

theorem exists_of_readAtom (depth : Nat) {ts : List Token} {e : Expression} {rest : Rest}
    (h : readAtom size depth ts = .ok (e, rest)) :
    ∃ o : Operand, ts = o.tokens ++ rest ∧ o.expression = .ok e ∧ o.height ≤ depth := by
  match depth, ts with
  | 0, _ =>
    rw [readAtom] at h
    cases h
  | depth + 1, [] =>
    rw [readAtom] at h
    cases h
  | depth + 1, .sign .opening :: ts =>
    rw [readAtom] at h
    obtain ⟨⟨inner, after⟩, hinner, hafter⟩ := bind_eq_ok_iff.mp h
    obtain ⟨a, rfl, ha, hheight⟩ := exists_of_readEither depth hinner
    simp only at hafter
    split at hafter
    · cases hafter
      refine ⟨.group a, ?_, ?_, ?_⟩
      · rw [Operand.tokens, List.cons_append, List.append_assoc, List.singleton_append]
      · rw [Operand.expression, ha]
      · rw [Operand.height]
        omega
    · cases hafter
  | depth + 1, .number digits :: ts =>
    rw [readAtom] at h
    obtain ⟨v, hv, hpure⟩ := bind_eq_ok_iff.mp h
    cases hpure
    refine ⟨.number digits, rfl, ?_, Nat.le_add_left 1 depth⟩
    rw [Operand.expression, hv]
    rfl
  | depth + 1, .quotation quote inside :: ts =>
    rw [readAtom] at h
    cases h
    exact ⟨.quotation quote inside, rfl, rfl, Nat.le_add_left 1 depth⟩
  | depth + 1, .name s :: ts =>
    rw [readAtom] at h
    cases h
    exact ⟨.name s, rfl, rfl, Nat.le_add_left 1 depth⟩
  | depth + 1, .sign .both :: ts | depth + 1, .sign .either :: ts
  | depth + 1, .sign .negation :: ts | depth + 1, .sign .closing :: ts
  | depth + 1, .sign (.comparison c) :: ts =>
    rw [readAtom] at h
    · cases h
    all_goals nofun

end

end Accepting

section Refusing

/-- How many levels tokens may go down by their parentheses and negations. -/
def levels (ts : List Token) : Nat :=
  5 * ts.count (.sign .opening) + ts.count (.sign .negation)

/-- How reading tokens goes wrong where a number of levels is left; a phrase of its kind goes down
some of them by itself. -/
inductive Refused (ts : List Token) (depth own : Nat) : Fault → Prop
  | ended : Refused ts depth own .ended
  | unexpected (token : String) : Refused ts depth own (.unexpected token)
  | unclosed : Refused ts depth own .unclosed
  | number {digits : List Char} {f : Fault} (hmem : .number digits ∈ ts)
      (hnumber : numberValue digits = .error f) : Refused ts depth own f
  | tooDeep (h : depth < levels ts + own) : Refused ts depth own .tooDeep

variable {ts ts' : List Token} {depth depth' own own' : Nat} {f : Fault}

theorem Refused.of_subset (h : Refused ts depth own f) (hts : ts ⊆ ts')
    (hlevels : depth < levels ts + own → depth' < levels ts' + own') : Refused ts' depth' own' f := by
  cases h with
  | ended => exact .ended
  | unexpected token => exact .unexpected token
  | unclosed => exact .unclosed
  | number hmem hnumber => exact .number (hts hmem) hnumber
  | tooDeep h => exact .tooDeep (hlevels h)

theorem Refused.deeper (h : Refused ts depth own f) : Refused ts (depth + 1) (own + 1) f :=
  h.of_subset (fun _ hx => hx) (by omega)

/-- What is refused after some tokens is refused with them. -/
theorem Refused.append (h : Refused ts depth own f) (front : List Token) :
    Refused (front ++ ts) depth own f := by
  refine h.of_subset (List.subset_append_right front ts) fun hdeep => ?_
  unfold levels at hdeep ⊢
  rw [List.count_append, List.count_append]
  omega

theorem Refused.cons (h : Refused ts depth own f) (token : Token) :
    Refused (token :: ts) depth own f := h.append [token]

theorem Refused.of_chain {part : List Token → Except Fault (Expression × Rest)} {sign : Sign}
    {join : Expression → Expression → Expression}
    (hrefused : ∀ ts f, part ts = .error f → Refused ts depth own f)
    (haccepted : ∀ ts e rest, part ts = .ok (e, rest) → ∃ front, ts = front ++ rest)
    (fuel : Nat) {left : Expression} (h : chain part sign join fuel left ts = .error f) :
    Refused ts depth own f := by
  induction fuel generalizing left ts with
  | zero =>
    rw [chain] at h
    · cases h
    · nofun
  | succ fuel ih =>
    by_cases hsign : ts.head? = some (.sign sign)
    · obtain ⟨tail, rfl⟩ := List.head?_eq_some_iff.mp hsign
      rw [chain_of_sign] at h
      refine Refused.cons ?_ _
      rcases bind_eq_error_iff.mp h with hpart | ⟨found, hpart, hchain⟩
      · exact hrefused tail f hpart
      · obtain ⟨front, rfl⟩ := haccepted tail found.1 found.2 hpart
        exact (ih hchain).append front
    · rw [chain_of_ne hsign] at h
      cases h

variable {size : Nat}

mutual

theorem refused_of_readEither (depth : Nat) {ts : List Token} {f : Fault}
    (h : readEither size depth ts = .error f) : Refused ts depth 5 f := by
  match depth with
  | 0 =>
    rw [readEither] at h
    cases h
    exact .tooDeep (Nat.succ_pos _)
  | depth + 1 =>
    rw [readEither] at h
    refine Refused.deeper ?_
    rcases bind_eq_error_iff.mp h with hfirst | ⟨⟨first, after⟩, hfirst, hchain⟩
    · exact refused_of_readBoth depth hfirst
    · obtain ⟨c, rfl, -⟩ := exists_of_readBoth depth hfirst
      refine (Refused.of_chain (fun _ _ hpart => refused_of_readBoth depth hpart) ?_ size
        hchain).append _
      intro ts e rest hpart
      obtain ⟨c, hc, -⟩ := exists_of_readBoth depth hpart
      exact ⟨c.tokens, hc⟩

theorem refused_of_readBoth (depth : Nat) {ts : List Token} {f : Fault}
    (h : readBoth size depth ts = .error f) : Refused ts depth 4 f := by
  match depth with
  | 0 =>
    rw [readBoth] at h
    cases h
    exact .tooDeep (Nat.succ_pos _)
  | depth + 1 =>
    rw [readBoth] at h
    refine Refused.deeper ?_
    rcases bind_eq_error_iff.mp h with hfirst | ⟨⟨first, after⟩, hfirst, hchain⟩
    · exact refused_of_readNegation depth hfirst
    · obtain ⟨c, rfl, -⟩ := exists_of_readNegation depth hfirst
      refine (Refused.of_chain (fun _ _ hpart => refused_of_readNegation depth hpart) ?_ size
        hchain).append _
      intro ts e rest hpart
      obtain ⟨c, hc, -⟩ := exists_of_readNegation depth hpart
      exact ⟨c.tokens, hc⟩

theorem refused_of_readNegation (depth : Nat) {ts : List Token} {f : Fault}
    (h : readNegation size depth ts = .error f) : Refused ts depth 3 f := by
  match depth with
  | 0 =>
    rw [readNegation] at h
    cases h
    exact .tooDeep (Nat.succ_pos _)
  | depth + 1 =>
    by_cases hsign : ∃ tail, ts = .sign .negation :: tail
    · obtain ⟨tail, rfl⟩ := hsign
      rw [readNegation] at h
      rcases bind_eq_error_iff.mp h with hinner | ⟨found, -, hpure⟩
      · refine (refused_of_readNegation depth hinner).of_subset (List.subset_cons_self _ _) ?_
        unfold levels
        rw [List.count_cons_of_ne (by decide), List.count_cons_self]
        omega
      · cases hpure
    · rw [readNegation] at h
      · exact (refused_of_readComparison depth h).deeper
      · exact fun tail htail => hsign ⟨tail, htail⟩

theorem refused_of_readComparison (depth : Nat) {ts : List Token} {f : Fault}
    (h : readComparison size depth ts = .error f) : Refused ts depth 2 f := by
  match depth with
  | 0 =>
    rw [readComparison] at h
    cases h
    exact .tooDeep (Nat.succ_pos _)
  | depth + 1 =>
    rw [readComparison] at h
    refine Refused.deeper ?_
    rcases bind_eq_error_iff.mp h with hleft | ⟨⟨left, after⟩, hleft, hafter⟩
    · exact refused_of_readAtom depth hleft
    · obtain ⟨o, rfl, -⟩ := exists_of_readAtom depth hleft
      refine Refused.append ?_ _
      simp only at hafter
      split at hafter
      · refine Refused.cons ?_ _
        rcases bind_eq_error_iff.mp hafter with hright | ⟨found, -, hpure⟩
        · exact refused_of_readAtom depth hright
        · cases hpure
      · cases hafter

theorem refused_of_readAtom (depth : Nat) {ts : List Token} {f : Fault}
    (h : readAtom size depth ts = .error f) : Refused ts depth 1 f := by
  match depth, ts with
  | 0, _ =>
    rw [readAtom] at h
    cases h
    exact .tooDeep (Nat.succ_pos _)
  | depth + 1, [] =>
    rw [readAtom] at h
    cases h
    exact .ended
  | depth + 1, .sign .opening :: ts =>
    rw [readAtom] at h
    rcases bind_eq_error_iff.mp h with hinner | ⟨⟨inner, after⟩, -, hafter⟩
    · refine (refused_of_readEither depth hinner).of_subset (List.subset_cons_self _ _) ?_
      unfold levels
      rw [List.count_cons_self, List.count_cons_of_ne (by decide)]
      omega
    · simp only at hafter
      split at hafter
      · cases hafter
      · cases hafter
        exact .unclosed
  | depth + 1, .number digits :: ts =>
    rw [readAtom] at h
    rcases bind_eq_error_iff.mp h with hnumber | ⟨v, -, hpure⟩
    · exact .number (List.mem_cons_self ..) hnumber
    · cases hpure
  | depth + 1, .quotation quote inside :: ts =>
    rw [readAtom] at h
    cases h
  | depth + 1, .name s :: ts =>
    rw [readAtom] at h
    cases h
  | depth + 1, .sign .both :: ts | depth + 1, .sign .either :: ts
  | depth + 1, .sign .negation :: ts | depth + 1, .sign .closing :: ts
  | depth + 1, .sign (.comparison c) :: ts =>
    rw [readAtom] at h
    · cases h
      exact .unexpected _
    all_goals nofun

end

end Refusing

end Runbook.Guard
