import Runbook.Proofs.Meaning

/-!
Guards put together from the texts of others. What is read in parentheses is read as it was, since
the tokens of a text end at the parenthesis behind it; so negations, conjunctions and alternatives
of texts in parentheses are those of their expressions. Each pair of parentheses goes down five
levels, which the text inside has to leave: a guard that is read by itself may be too deep in them.
-/
namespace Runbook.Guard

open Text

section Seams

variable {cs rest lexeme : List Char} {t : Token} {ts us : List Token} {c : Char}

/-- Of all tokens only quotations hold such a character behind their first one. -/
def EndsToken (c : Char) : Prop := isBlank c = true ∨ c = ')'

instance (c : Char) : Decidable (EndsToken c) := inferInstanceAs (Decidable (_ ∨ _))

/-- A spelling that is no quotation's begins with no quote, and no character in it ends a token. -/
inductive Solid : List Char → Prop
  | intro {c : Char} {tail : List Char} (hquote : ¬ (c = '\x22' ∨ c = '\x27'))
      (htail : ∀ x ∈ tail, ¬ EndsToken x) : Solid (c :: tail)

theorem Solid.of_forall (hne : cs ≠ [])
    (h : ∀ x ∈ cs, ¬ (x = '\x22' ∨ x = '\x27') ∧ ¬ EndsToken x) : Solid cs := by
  obtain ⟨c, tail, rfl⟩ := List.exists_cons_of_ne_nil hne
  apply Solid.intro
  · exact (h c (List.mem_cons_self ..)).1
  · intro x hx
    exact (h x (List.mem_cons_of_mem c hx)).2

theorem eq_of_mem_isUnsigned (h : IsUnsigned cs) (hc : c ∈ cs) : isDigit c = true ∨ c = '.' := by
  cases h with
  | whole h => exact Or.inl (h.2 c hc)
  | decimal h hplaces =>
    rcases List.mem_append.mp hc with hc | hc
    · exact Or.inl (h.2 c hc)
    · rcases List.mem_cons.mp hc with hc | hc
      · exact Or.inr hc
      · exact Or.inl (hplaces.2 c hc)

theorem IsNumber.solid (h : IsNumber cs) : Solid cs := by
  have hdigit : ∀ x, isDigit x = true → ¬ (x = '\x22' ∨ x = '\x27') ∧ ¬ EndsToken x := by
    intro x hx
    have hne : ∀ other, isDigit other = false → x ≠ other := fun _ => ne_of_isDigit hx
    refine ⟨not_or.mpr ⟨hne _ (by decide), hne _ (by decide)⟩, not_or.mpr ⟨?_, hne _ (by decide)⟩⟩
    rw [isBlank_of_isDigit hx]
    exact Bool.false_ne_true
  have hsign : ∀ x, x = '.' ∨ x = '-' → ¬ (x = '\x22' ∨ x = '\x27') ∧ ¬ EndsToken x := by
    rintro x (rfl | rfl) <;> exact ⟨by decide, by decide⟩
  have hunsigned : ∀ {ds}, IsUnsigned ds →
      ∀ x ∈ ds, ¬ (x = '\x22' ∨ x = '\x27') ∧ ¬ EndsToken x := by
    intro ds hds x hx
    rcases eq_of_mem_isUnsigned hds hx with hx | hx
    · exact hdigit x hx
    · exact hsign x (Or.inl hx)
  cases h with
  | plain h =>
    obtain ⟨c, tail, rfl, -⟩ := h.exists_head
    exact .of_forall nofun (hunsigned h)
  | negative h =>
    apply Solid.intro (by decide)
    intro x hx
    exact (hunsigned h x hx).2

theorem IsName.solid (h : IsName cs) : Solid cs := by
  obtain ⟨c, tail, rfl, hc, htail⟩ := h
  apply Solid.intro
  · rintro (rfl | rfl) <;> exact absurd hc (by decide)
  · intro x hx
    have hx := htail x hx
    rw [isNameChar, Bool.or_eq_true, beq_iff_eq] at hx
    rintro (hblank | rfl)
    · rcases hx with hx | rfl
      · rw [isBlank_of_isIdentChar hx] at hblank
        cases hblank
      · exact absurd hblank (by decide)
    · exact absurd hx (by decide)

/-- A token is a quotation, or it is spelled in one piece. -/
theorem Token.Spelled.inside_or_solid (h : t.Spelled lexeme) :
    (∃ quote inside, (quote = '\x22' ∨ quote = '\x27') ∧ IsInside quote inside ∧
      t = .quotation quote inside ∧ lexeme = quote :: (inside ++ [quote])) ∨ Solid lexeme := by
  cases h with
  | number h => exact Or.inr h.solid
  | quotation hquote hinside => exact Or.inl ⟨_, _, hquote, hinside, rfl, rfl⟩
  | sign s =>
    right
    have hpair : ∀ b, ¬ EndsToken b → ∀ x ∈ [b], ¬ EndsToken x := fun b hb x hx =>
      List.mem_singleton.mp hx ▸ hb
    cases s with
    | comparison c =>
      cases c with
      | equal | unequal | atMost | atLeast => exact .intro (by decide) (hpair '=' (by decide))
      | less | greater => exact .intro (by decide) nofun
    | both => exact .intro (by decide) (hpair '&' (by decide))
    | either => exact .intro (by decide) (hpair '|' (by decide))
    | negation | opening | closing => exact .intro (by decide) nofun
  | name h _ => exact Or.inr h.solid
  | word h _ => exact Or.inr h.solid

/-- The longest spelling at the front of a text is the longest one in front of more text too, if
that begins where tokens end. -/
theorem Longest.append_seam (h : Longest t lexeme (lexeme ++ cs)) (hc : EndsToken c) :
    Longest t lexeme (lexeme ++ (cs ++ c :: rest)) := by
  rcases h.spelled.inside_or_solid with ⟨quote, inside, hquote, hinside, rfl, rfl⟩ | hsolid
  · have htake := takeToken?_of_inside hquote hinside (cs ++ c :: rest)
    obtain ⟨more, hlongest, heq⟩ := takeToken?_eq_some_iff.mp htake
    obtain rfl := List.append_cancel_right heq
    exact hlongest
  · refine ⟨h.spelled, List.prefix_append .., fun other more hother hfront => ?_⟩
    have hsame : lexeme ++ cs <+: lexeme ++ (cs ++ c :: rest) := by
      rw [← List.append_assoc]
      exact List.prefix_append ..
    rcases List.prefix_or_prefix_of_prefix hfront hsame with hshort | ⟨beyond, rfl⟩
    · exact h.longest other more hother hshort
    · cases beyond with
      | nil =>
        rw [List.append_nil] at hother ⊢
        exact h.longest other _ hother List.prefix_rfl
      | cons b beyond =>
        -- the other token would go on over the seam
        exfalso
        obtain ⟨tail, htail⟩ := hfront
        have hb : b = c := by
          simp only [List.append_assoc, List.cons_append, List.append_cancel_left_eq,
            List.cons.injEq] at htail
          exact htail.1
        obtain ⟨hhead, -⟩ := hsolid
        rcases hother.inside_or_solid with ⟨quote, inside, hquote, -, -, heq⟩ | hother
        · obtain ⟨rfl, -⟩ := List.cons.inj heq
          exact hhead hquote
        · cases hother with
          | intro _ hmore =>
            apply hmore c _ hc
            rw [hb]
            simp

/-- Texts split into tokens one after the other, if the second begins where tokens end. -/
theorem Splits.append_seam (h : Splits cs ts) (hc : EndsToken c) (hrest : Splits (c :: rest) us) :
    Splits (cs ++ c :: rest) (ts ++ us) := by
  induction h with
  | done => exact hrest
  | token hgap hlongest _ ih =>
    rw [List.append_assoc, List.append_assoc, List.cons_append]
    exact .token hgap (hlongest.append_seam hc) ih

theorem Splits.gap_append {gap : List Char} (h : Splits cs ts) (hne : cs ≠ [])
    (hgap : Blanks gap) : Splits (gap ++ cs) ts := by
  cases h with
  | done => exact absurd rfl hne
  | token hfront hlongest hrest =>
    rw [← List.append_assoc]
    exact .token (List.forall_mem_append.mpr ⟨hgap, hfront⟩) hlongest hrest

theorem takeToken?_sign (s : Sign) (h : s = .opening ∨ s = .closing ∨ s = .both ∨ s = .either) :
    takeToken? (s.text.toList ++ rest) = some (.sign s, rest) := by
  rw [takeToken?_of_sign]
  rcases h with rfl | rfl | rfl | rfl <;> rfl

/-- A text in parentheses splits into its tokens between theirs, whatever comes behind. -/
theorem splits_group {a : String} (ha : Splits (trim a.toList) ts) (hrest : Splits rest us) :
    Splits ('(' :: (a.toList ++ ')' :: rest))
      (.sign .opening :: (ts ++ .sign .closing :: us)) := by
  have hnone : Blanks [] := nofun
  have hclosing : Splits (')' :: rest) (.sign .closing :: us) :=
    .of_takeToken? hnone (takeToken?_sign .closing (by simp)) hrest
  obtain ⟨gap, gap', hgap, hgap', hsplit, -⟩ := exists_trim a.toList
  have hbehind : Splits (trim a.toList ++ (gap' ++ ')' :: rest)) (ts ++ .sign .closing :: us) := by
    cases gap' with
    | nil => exact ha.append_seam (Or.inr rfl) hclosing
    | cons b gap' =>
      apply ha.append_seam (Or.inl (hgap' b (List.mem_cons_self ..)))
      exact hclosing.gap_append nofun hgap'
  have hinside : Splits (a.toList ++ ')' :: rest) (ts ++ .sign .closing :: us) := by
    rw [hsplit, List.append_assoc, List.append_assoc]
    exact hbehind.gap_append (by simp) hgap
  exact .of_takeToken? hnone (takeToken?_sign .opening (by simp)) hinside

end Seams

section Phrases

/-- A guard in parentheses. -/
def grouped (a : String) : String := "(" ++ a ++ ")"

def negated (a : String) : String := "!" ++ grouped a

def conjoined (a b : String) : String := grouped a ++ " && " ++ grouped b

def disjoined (a b : String) : String := grouped a ++ " || " ++ grouped b

/-- That neither of two guards holds. -/
def neither (a b : String) : String := negated a ++ " && " ++ negated b

/-- Alternatives in parentheses. -/
def Condition.ofGroup (a : Alternatives) : Condition := .plain (.alone (.group a))

def Alternatives.ofCondition (c : Condition) : Alternatives := .list (.list c .done) .done

def Alternatives.ofBoth (c c' : Condition) : Alternatives :=
  .list (.list c (.next c' .done)) .done

def Alternatives.ofEither (c c' : Condition) : Alternatives :=
  .list (.list c .done) (.next (.list c' .done) .done)

/-- A text is read through a derivation, as its expression. -/
structure ReadBy (s : String) (a : Alternatives) (e : Expression) : Prop where
  splits : Splits (trim s.toList) a.tokens
  expression : a.expression = .ok e

variable {a b : String} {A B : Alternatives} {ea eb e : Expression} {s : String}

theorem exists_readBy (h : Expression.read s = .ok e) :
    ∃ A : Alternatives, ReadBy s A e ∧ A.height ≤ depthLimit := by
  obtain ⟨A, hsplits, hA, hheight⟩ := Expression.exists_of_read h
  exact ⟨A, ⟨hsplits, hA⟩, hheight⟩

/-- What has a derivation is read exactly if the levels it goes down are there. -/
theorem ReadBy.read_eq (h : ReadBy s A e) :
    Expression.read s = if A.height ≤ depthLimit then .ok e else .error .tooDeep := by
  rw [Expression.read_of_splits h.splits]
  rcases Expression.ofTokens_of_tokens A with hread | ⟨hread, hdeep⟩
  · rw [h.expression] at hread
    obtain ⟨B, hB, -, hheight⟩ := Expression.exists_of_ofTokens hread
    obtain rfl := Alternatives.eq_of_tokens_eq hB
    rw [hread, if_pos hheight]
  · rw [hread, if_neg (not_le.mpr hdeep)]

/-- A text that reads as a condition wherever it is written, with a parenthesis at its end. -/
structure Condition.Stands (c : Condition) (s : String) (e : Expression) : Prop where
  ends : ∃ b cs, s.toList = b :: (cs ++ [')']) ∧ isBlank b = false
  splits : ∀ {rest us}, Splits rest us → Splits (s.toList ++ rest) (c.tokens ++ us)
  expression : c.expression = .ok e

variable {c c' : Condition} {e' : Expression} {s' : String}

theorem ReadBy.stands_grouped (h : ReadBy a A ea) :
    (Condition.ofGroup A).Stands (grouped a) ea := by
  have htext : (grouped a).toList = '(' :: (a.toList ++ [')']) := by
    simp [grouped]
  refine ⟨⟨'(', a.toList, htext, by decide⟩, fun hrest => ?_, ?_⟩
  · have hsplits := splits_group h.splits hrest
    rw [htext]
    simpa [Condition.ofGroup, Condition.tokens, Assertion.tokens, Operand.tokens] using hsplits
  · rw [Condition.ofGroup, Condition.expression, Assertion.expression, Operand.expression]
    exact h.expression

theorem ReadBy.stands_negated (h : ReadBy a A ea) :
    (Condition.negated (.ofGroup A)).Stands (negated a) (.negation ea) := by
  obtain ⟨⟨b, cs, htext, -⟩, hsplits, hexpression⟩ := h.stands_grouped
  have hb : b = '(' := by
    rw [grouped] at htext
    simp only [String.toList_append] at htext
    exact (List.cons.inj htext).1.symm
  have hnegated : (negated a).toList = '!' :: (grouped a).toList := by
    simp [negated]
  refine ⟨⟨'!', b :: cs, by rw [hnegated, htext, List.cons_append], by decide⟩, ?_, ?_⟩
  · intro rest us hrest
    have hnone : Blanks [] := nofun
    have hnext : ∀ tail, (grouped a).toList ++ rest ≠ '=' :: tail := by
      intro tail heq
      rw [htext, hb] at heq
      cases heq
    have htake : takeToken? ('!' :: ((grouped a).toList ++ rest)) =
        some (.sign .negation, (grouped a).toList ++ rest) := by
      rw [takeToken?_of_head (by decide) (by decide) (by decide), (takeSign?_alone hnext).2.2]
      rfl
    rw [hnegated, List.cons_append, Condition.tokens, List.cons_append]
    exact .of_takeToken? hnone htake (hsplits hrest)
  · rw [Condition.expression, hexpression]
    rfl

theorem Condition.Stands.trim_eq (h : c.Stands s e) (more : List Char)
    (hmore : Stops isBlank (s.toList ++ more).reverse) :
    trim (s.toList ++ more) = s.toList ++ more := by
  obtain ⟨b, cs, htext, hb⟩ := h.ends
  apply trim_of_stops _ hmore
  rw [htext]
  exact stops_cons.mpr hb

theorem Condition.Stands.stops (h : c.Stands s e) (front : List Char) :
    Stops isBlank (front ++ s.toList).reverse := by
  obtain ⟨b, cs, htext, -⟩ := h.ends
  rw [htext, List.reverse_append, List.reverse_cons, List.reverse_append]
  exact stops_cons.mpr (by decide)

theorem Condition.Stands.readBy (h : c.Stands s e) : ReadBy s (.ofCondition c) e := by
  have htrim := h.trim_eq [] (by simpa using h.stops [])
  have hsplits := h.splits .done
  rw [List.append_nil] at htrim
  constructor
  · rw [htrim]
    simpa [Alternatives.ofCondition, Alternatives.tokens, FurtherAlternatives.tokens,
      Conjunction.tokens, FurtherConditions.tokens] using hsplits
  · rw [Alternatives.ofCondition, Alternatives.expression, Conjunction.expression, h.expression]
    rfl

/-- A sign between blanks joins the texts at its sides. -/
theorem Condition.Stands.splits_joined (h : c.Stands s e) (h' : c'.Stands s' e') (sign : Sign)
    (hsign : sign = .opening ∨ sign = .closing ∨ sign = .both ∨ sign = .either) :
    Splits (trim (s.toList ++ ([' '] ++ (sign.text.toList ++ ([' '] ++ s'.toList)))))
      (c.tokens ++ .sign sign :: c'.tokens) := by
  have hblank : Blanks [' '] := by decide
  have hlast := h'.stops (s.toList ++ ([' '] ++ (sign.text.toList ++ [' '])))
  rw [h.trim_eq _ (by simpa using hlast)]
  apply h.splits
  apply Splits.of_takeToken? hblank (takeToken?_sign sign hsign)
  obtain ⟨b, cs, htext, -⟩ := h'.ends
  have hsplits := h'.splits .done
  rw [List.append_nil, List.append_nil] at hsplits
  exact hsplits.gap_append (by rw [htext]; nofun) hblank

theorem Condition.Stands.readBy_both (h : c.Stands s e) (h' : c'.Stands s' e') :
    ReadBy (s ++ " && " ++ s') (.ofBoth c c') (.both e e') := by
  have hsplits := h.splits_joined h' .both (by simp)
  constructor
  · simpa [Alternatives.ofBoth, Alternatives.tokens, FurtherAlternatives.tokens,
      Conjunction.tokens, FurtherConditions.tokens, Sign.text] using hsplits
  · simp only [Alternatives.ofBoth, Alternatives.expression, FurtherAlternatives.extend,
      Conjunction.expression, FurtherConditions.extend, h.expression, h'.expression]
    rfl

theorem Condition.Stands.readBy_either (h : c.Stands s e) (h' : c'.Stands s' e') :
    ReadBy (s ++ " || " ++ s') (.ofEither c c') (.either e e') := by
  have hsplits := h.splits_joined h' .either (by simp)
  constructor
  · simpa [Alternatives.ofEither, Alternatives.tokens, FurtherAlternatives.tokens,
      Conjunction.tokens, FurtherConditions.tokens, Sign.text] using hsplits
  · simp only [Alternatives.ofEither, Alternatives.expression, FurtherAlternatives.extend,
      Conjunction.expression, FurtherConditions.extend, h.expression, h'.expression]
    rfl

end Phrases

section Levels

theorem Condition.height_ofGroup (A : Alternatives) :
    (Condition.ofGroup A).height = A.height + 3 := by
  simp only [Condition.ofGroup, Condition.height, Assertion.height, Operand.height]

theorem Alternatives.height_ofCondition (c : Condition) :
    (Alternatives.ofCondition c).height = c.height + 2 := by
  simp [Alternatives.ofCondition, Alternatives.height, Conjunction.height,
    FurtherConditions.height, FurtherAlternatives.height]

theorem Alternatives.height_ofBoth (c c' : Condition) :
    (Alternatives.ofBoth c c').height = max c.height c'.height + 2 := by
  simp [Alternatives.ofBoth, Alternatives.height, Conjunction.height,
    FurtherConditions.height, FurtherAlternatives.height]

theorem Alternatives.height_ofEither (c c' : Condition) :
    (Alternatives.ofEither c c').height = max c.height c'.height + 2 := by
  simp only [Alternatives.ofEither, Alternatives.height, Conjunction.height,
    FurtherConditions.height, FurtherAlternatives.height]
  omega

variable {bindings : Fields}

/-- What a guard put together from others comes to: it is read as an expression if the levels it
goes down are there, and refused for its depth otherwise; where it is read, it means what it should,
unless its expression has more levels than can be evaluated. -/
structure ComesTo (s : String) (height : Nat) (e : Expression)
    (meant : Fields → Except Fault Bool) : Prop where
  read_eq : Expression.read s = if height ≤ depthLimit then .ok e else .error .tooDeep
  evaluate_eq : height ≤ depthLimit → ∀ bindings, evaluate s bindings = meant bindings ∨
    evaluate s bindings = .error .tooDeep ∧ depthLimit < e.levels

theorem value_of_read (h : Expression.read s = .ok e) (bindings : Fields) :
    value s bindings = e.eval bindings depthLimit := by
  unfold value
  rw [h]
  rfl

theorem evaluate_of_read (h : Expression.read s = .ok e) (bindings : Fields) :
    evaluate s bindings = (e.eval bindings depthLimit).map truth := by
  unfold evaluate
  rw [value_of_read h]

/-- An expression means what its parts say with all levels there are, unless it has more of them. -/
theorem Expression.eval_eq_evalWith_or (e : Expression) (depth : Nat) :
    e.eval bindings depth = e.evalWith bindings (eval bindings · depth) ∨
      e.eval bindings depth = .error .tooDeep ∧ depth < e.levels := by
  rw [ ← e.eval_succ]
  exact e.eval_eq_or_succ depth

theorem ReadBy.comesTo {meant : Fields → Except Fault Bool} (h : ReadBy s A e) {height : Nat}
    (hheight : A.height = height)
    (hmeant : ∀ bindings,
      (e.evalWith bindings (Expression.eval bindings · depthLimit)).map truth = meant bindings) :
    ComesTo s height e meant := by
  have hread := h.read_eq
  rw [hheight] at hread
  refine ⟨hread, fun hfits bindings => ?_⟩
  rw [if_pos hfits] at hread
  rw [evaluate_of_read hread]
  rcases e.eval_eq_evalWith_or depthLimit with hsame | ⟨hdeep, hlevels⟩
  · left
    rw [hsame, hmeant]
  · right
    rw [hdeep]
    exact ⟨rfl, hlevels⟩

section Parts

variable {part : Expression → Except Fault Value} {left right : Expression}

theorem truth_negation : ((Expression.negation left).evalWith bindings part).map truth =
    (do return !(← (part left).map truth)) := by
  rw [Expression.evalWith]
  cases part left <;> rfl

theorem truth_both : ((Expression.both left right).evalWith bindings part).map truth =
    (do if ← (part left).map truth then (part right).map truth else return false) := by
  rw [Expression.evalWith]
  cases part left with
  | error f => rfl
  | ok l =>
    change Except.map truth (if truth l then _ else _) = if truth l then _ else _
    cases truth l with
    | false => rfl
    | true => cases part right <;> rfl

theorem truth_either : ((Expression.either left right).evalWith bindings part).map truth =
    (do if ← (part left).map truth then return true else (part right).map truth) := by
  rw [Expression.evalWith]
  cases part left with
  | error f => rfl
  | ok l =>
    change Except.map truth (if truth l then _ else _) = if truth l then _ else _
    cases truth l with
    | false => cases part right <;> rfl
    | true => rfl

/-- A negated alternative and a conjunction of negations go down as many levels and mean the same.
-/
theorem eval_deMorgan (depth : Nat) :
    ((Expression.negation (.either left right)).eval bindings depth).map truth =
      ((Expression.both (.negation left) (.negation right)).eval bindings depth).map truth := by
  cases depth with
  | zero => rw [(Expression.eval_zero _).1, (Expression.eval_zero _).1]
  | succ depth =>
    rw [Expression.eval_succ, Expression.eval_succ, truth_negation, truth_both]
    cases depth with
    | zero =>
      rw [(Expression.eval_zero _).1, (Expression.eval_zero _).1]
      rfl
    | succ depth =>
      simp only [Expression.eval_succ, truth_negation, truth_either]
      cases (left.eval bindings depth).map truth with
      | error f => rfl
      | ok l =>
        cases l with
        | false => rfl
        | true => rfl

end Parts

end Levels

section Guards

variable {a b : String} {ea eb : Expression}

/-- Guards in parentheses make up others: alone they are what they were, and a negation, a
conjunction and an alternative of them mean what these say of their parts, the second of which is
looked at only where the first does not settle it. An error in a part that is looked at is one of
the whole. All that keeps them from being read is the number of levels they go down, five for their
parentheses and one for a negation, and all that changes their meaning is a level too much in their
expressions. A negated alternative agrees with the conjunction of the negations on all variables. -/
theorem composed_of_read (ha : Expression.read a = .ok ea) (hb : Expression.read b = .ok eb) :
    ∃ A B : Alternatives, Splits (trim a.toList) A.tokens ∧ Splits (trim b.toList) B.tokens ∧
      A.height ≤ depthLimit ∧ B.height ≤ depthLimit ∧
      (Expression.read (grouped a) =
        if A.height + 5 ≤ depthLimit then .ok ea else .error .tooDeep) ∧
      (A.height + 5 ≤ depthLimit → ∀ bindings, value (grouped a) bindings = value a bindings) ∧
      ComesTo (negated a) (A.height + 6) (.negation ea)
        (fun bindings => do return !(← evaluate a bindings)) ∧
      ComesTo (conjoined a b) (max A.height B.height + 5) (.both ea eb)
        (fun bindings => do if ← evaluate a bindings then evaluate b bindings else return false) ∧
      ComesTo (disjoined a b) (max A.height B.height + 5) (.either ea eb)
        (fun bindings => do if ← evaluate a bindings then return true else evaluate b bindings) ∧
      (max A.height B.height + 11 ≤ depthLimit → ∀ bindings,
        evaluate (negated (disjoined a b)) bindings = evaluate (neither a b) bindings) := by
  obtain ⟨A, hA, hheightA⟩ := exists_readBy ha
  obtain ⟨B, hB, hheightB⟩ := exists_readBy hb
  have hgrouped := hA.stands_grouped.readBy
  have hdisjoined := hA.stands_grouped.readBy_either hB.stands_grouped
  have hgroupedHeight : (Alternatives.ofCondition (.ofGroup A)).height = A.height + 5 := by
    rw [Alternatives.height_ofCondition, Condition.height_ofGroup]
  have hdisjoinedHeight : (Alternatives.ofEither (.ofGroup A) (.ofGroup B)).height =
      max A.height B.height + 5 := by
    rw [Alternatives.height_ofEither, Condition.height_ofGroup, Condition.height_ofGroup]
    omega
  have hreadGrouped := hgrouped.read_eq
  rw [hgroupedHeight] at hreadGrouped
  refine ⟨A, B, hA.splits, hB.splits, hheightA, hheightB, hreadGrouped, ?_, ?_, ?_, ?_, ?_⟩
  · intro hfits bindings
    rw [if_pos hfits] at hreadGrouped
    rw [value_of_read hreadGrouped, value_of_read ha]
  · refine hA.stands_negated.readBy.comesTo ?_ fun bindings => ?_
    · rw [Alternatives.height_ofCondition, Condition.height, Condition.height_ofGroup]
    · rw [evaluate_of_read ha]
      exact truth_negation
  · refine (hA.stands_grouped.readBy_both hB.stands_grouped).comesTo ?_ fun bindings => ?_
    · rw [Alternatives.height_ofBoth, Condition.height_ofGroup, Condition.height_ofGroup]
      omega
    · rw [evaluate_of_read ha, evaluate_of_read hb]
      exact truth_both
  · refine hdisjoined.comesTo hdisjoinedHeight fun bindings => ?_
    rw [evaluate_of_read ha, evaluate_of_read hb]
    exact truth_either
  · intro hfits bindings
    have hnegated := hdisjoined.stands_negated.readBy.read_eq
    have hneither := (hA.stands_negated.readBy_both hB.stands_negated).read_eq
    rw [Alternatives.height_ofCondition, Condition.height, Condition.height_ofGroup,
      hdisjoinedHeight, if_pos (by omega)] at hnegated
    rw [Alternatives.height_ofBoth, Condition.height, Condition.height, Condition.height_ofGroup,
      Condition.height_ofGroup, if_pos (by omega)] at hneither
    have hnegated : Expression.read (negated (disjoined a b)) = .ok _ := hnegated
    have hneither : Expression.read (neither a b) = .ok _ := hneither
    rw [evaluate_of_read hnegated, evaluate_of_read hneither]
    exact eval_deMorgan depthLimit

/-- A quotation may hold a parenthesis of its own. -/
theorem composed_of_quotedParenthesis :
    Expression.read "x" = .ok (.variable "x") ∧
      Expression.read "y == \x22)\x22" =
        .ok (.compare .equal (.variable "y") (.constant (.text ")"))) ∧
      (∀ bindings, evaluate "(x) && (y == \x22)\x22)" bindings =
        (do if ← evaluate "x" bindings then evaluate "y == \x22)\x22" bindings
            else return false)) ∧
      ∀ bindings, evaluate "!((x) || (y == \x22)\x22))" bindings =
        evaluate "!(x) && !(y == \x22)\x22)" bindings := by
  have hx : tokens "x" = .ok [.name "x"] := by decide +kernel
  have hy : tokens "y == \x22)\x22" =
      .ok [.name "y", .sign (.comparison .equal), .quotation '\x22' [')']] := by decide +kernel
  have ha : Expression.read "x" = .ok (.variable "x") := by
    rw [Expression.read_of_splits (tokens_eq_ok_iff.mp hx)]
    rfl
  have hb : Expression.read "y == \x22)\x22" =
      .ok (.compare .equal (.variable "y") (.constant (.text ")"))) := by
    rw [Expression.read_of_splits (tokens_eq_ok_iff.mp hy)]
    rfl
  obtain ⟨A, B, hA, hB, -, -, -, -, -, hboth, -, hneither⟩ := composed_of_read ha hb
  obtain rfl : Alternatives.ofCondition (.plain (.alone (.name "x"))) = A :=
    Alternatives.eq_of_tokens_eq ((tokens_eq_ok_iff.mp hx).unique hA)
  obtain rfl : Alternatives.ofCondition (.plain (.compared (.name "y") .equal
      (.quotation '\x22' [')']))) = B :=
    Alternatives.eq_of_tokens_eq ((tokens_eq_ok_iff.mp hy).unique hB)
  refine ⟨ha, hb, fun bindings => ?_, fun bindings => hneither (by decide) bindings⟩
  rcases hboth.evaluate_eq (by decide) bindings with hmeant | ⟨-, hlevels⟩
  · exact hmeant
  · exact absurd hlevels (by decide)

/-- A name in so many pairs of parentheses. -/
def nested : Nat → String
  | 0 => "x"
  | n + 1 => grouped (nested n)

theorem exists_readBy_nested (n : Nat) :
    ∃ A : Alternatives, ReadBy (nested n) A (.variable "x") ∧ A.height = 5 * (n + 1) := by
  induction n with
  | zero =>
    have hx : tokens "x" = .ok [.name "x"] := by decide +kernel
    have hname : ofName "x" = .variable "x" := by
      rw [ofName, show constant? "x" = none by decide +kernel]
    refine ⟨.ofCondition (.plain (.alone (.name "x"))), ⟨tokens_eq_ok_iff.mp hx, ?_⟩, ?_⟩
    · simp only [Alternatives.ofCondition, Alternatives.expression, FurtherAlternatives.extend,
        Conjunction.expression, FurtherConditions.extend, Condition.expression,
        Assertion.expression, Operand.expression, hname]
      rfl
    · rw [Alternatives.height_ofCondition, Condition.height, Assertion.height, Operand.height]
  | succ n ih =>
    obtain ⟨A, hA, hheight⟩ := ih
    refine ⟨_, hA.stands_grouped.readBy, ?_⟩
    rw [Alternatives.height_ofCondition, Condition.height_ofGroup, hheight]
    omega

/-- A guard that is read may be too deep in parentheses. -/
theorem not_read_grouped_nested :
    Expression.read (nested 196) = .ok (.variable "x") ∧
      Expression.read (grouped (nested 196)) = .error .tooDeep := by
  obtain ⟨A, hA, hheight⟩ := exists_readBy_nested 196
  obtain ⟨B, hB, hheight'⟩ := exists_readBy_nested 197
  have hread := hA.read_eq
  have hdeep := hB.read_eq
  rw [hheight, if_pos (by decide)] at hread
  rw [hheight', if_neg (by decide)] at hdeep
  exact ⟨hread, hdeep⟩

end Guards

end Runbook.Guard
