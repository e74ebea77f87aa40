import Runbook.Guard.Evaluation
import Runbook.Proofs.Lexemes

/-!
Texts that are written in guards. Between quotes of either kind any text can be written, if a
backslash is put before every backslash and every quote of this kind: what is read there is the text
again, so that a variable that holds a text is equal to what is written exactly if the texts are the
same.
-/
namespace Runbook.Guard

open Text

/-- A text as it stands between quotes of a kind. -/
def escapedIn (quote : Char) : List Char → List Char
  | [] => []
  | c :: cs =>
    if c = '\\' ∨ c = quote then '\\' :: c :: escapedIn quote cs else c :: escapedIn quote cs

/-- A text between quotes. -/
def literal (quote : Char) (s : String) : String :=
  String.ofList (quote :: (escapedIn quote s.toList ++ [quote]))

/-- The guard that compares a variable with what is written behind the sign. -/
def comparing (name : String) (c : Comparison) (operand : String) : String :=
  name ++ " " ++ c.sign ++ " " ++ operand

section Quoting

variable {quote : Char} {cs : List Char}

theorem isInside_escapedIn (hbreak : quote ≠ '\n') (cs : List Char) :
    IsInside quote (escapedIn quote cs) := by
  induction cs with
  | nil => exact .nil
  | cons c cs ih =>
    rw [escapedIn]
    split
    · rename_i hspecial
      refine .escaped ?_ ih
      rcases hspecial with rfl | rfl
      · decide
      · exact hbreak
    · rename_i hplain
      rw [not_or] at hplain
      exact .plain hplain.2 hplain.1 ih

theorem resolveEscapes_cons {c : Char} (h : c ≠ '\\') :
    resolveEscapes (c :: cs) = c :: resolveEscapes cs := by
  rw [resolveEscapes]
  exact fun _ _ heq _ => h heq

theorem resolveEscapes_escapedIn (quote : Char) (cs : List Char) :
    resolveEscapes (escapedIn quote cs) = cs := by
  induction cs with
  | nil => rfl
  | cons c cs ih =>
    rw [escapedIn]
    split
    · rw [resolveEscapes, ih]
    · rename_i hplain
      rw [resolveEscapes_cons (not_or.mp hplain).1, ih]

/-- The whole of a literal is one token. -/
theorem takeToken?_literal (hquote : quote = '\x22' ∨ quote = '\x27') (s : String) :
    takeToken? (literal quote s).toList =
      some (.quotation quote (escapedIn quote s.toList), []) := by
  have hbreak : quote ≠ '\n' := by
    rcases hquote with rfl | rfl <;> decide
  have htake := takeToken?_of_inside hquote (isInside_escapedIn hbreak s.toList) []
  unfold literal
  rwa [String.toList_ofList, ← List.append_nil (quote :: _)]

theorem isBlank_of_quote (hquote : quote = '\x22' ∨ quote = '\x27') : isBlank quote = false := by
  rcases hquote with rfl | rfl <;> decide

/-- A literal ends with its quote. -/
theorem stops_reverse_literal (hquote : quote = '\x22' ∨ quote = '\x27') (s : String) :
    Stops isBlank (literal quote s).toList.reverse := by
  unfold literal
  rw [String.toList_ofList, ← List.cons_append, List.reverse_append, List.reverse_singleton,
    List.singleton_append]
  exact stops_cons.mpr (isBlank_of_quote hquote)

theorem read_literal (hquote : quote = '\x22' ∨ quote = '\x27') (s : String) :
    Expression.read (literal quote s) = .ok (.constant (.text s)) := by
  have hfirst : Stops isBlank (literal quote s).toList := by
    unfold literal
    rw [String.toList_ofList]
    exact stops_cons.mpr (isBlank_of_quote hquote)
  have htokens : tokens (literal quote s) =
      .ok [.quotation quote (escapedIn quote s.toList)] := by
    rw [tokens_eq_ok_iff, trim_of_stops hfirst (stops_reverse_literal hquote s)]
    have hnone : Blanks [] := nofun
    exact .of_takeToken? hnone (takeToken?_literal hquote s) .done
  have hread : Expression.ofTokens [.quotation quote (escapedIn quote s.toList)] =
      .ok (.constant (.text (String.ofList (resolveEscapes (escapedIn quote s.toList))))) := rfl
  rw [resolveEscapes_escapedIn, String.ofList_toList] at hread
  unfold Expression.read
  rw [htokens]
  exact hread

end Quoting

section Comparing

variable {x : String} {c : Comparison}

/-- A text that is one name is spelled without blanks. -/
theorem isName_of_tokens (h : tokens x = .ok [.name x]) :
    IsName x.toList ∧ wordSign? x = none := by
  have hsplits := tokens_eq_ok_iff.mp h
  generalize trim x.toList = cs at hsplits
  cases hsplits with
  | token hgap hlongest hrest =>
    have hspelled := hlongest.spelled
    generalize hn : x = name at hspelled
    cases hspelled with
    | name hname hplain =>
      subst hn
      rw [String.toList_ofList]
      exact ⟨hname, hplain⟩

theorem takeToken?_of_name (hname : IsName x.toList) (hplain : wordSign? x = none)
    (rest : List Char) : takeToken? (x.toList ++ ' ' :: rest) = some (.name x, ' ' :: rest) := by
  obtain ⟨first, tail, hx, hfirst, htail⟩ := hname
  have hstops : Stops isNameChar (' ' :: rest) := stops_cons.mpr (by decide)
  obtain ⟨htake, hdrop⟩ := split_iff.mpr ⟨rfl, htail, hstops⟩
  have hword : String.ofList (first :: tail) = x := by rw [ ← hx, String.ofList_toList]
  rw [hx, List.cons_append, takeToken?_of_isIdentStart hfirst, takeName?, if_pos hfirst, htake,
    hdrop, hword, ofWord, hplain]

theorem takeToken?_of_comparison (c : Comparison) (rest : List Char) :
    takeToken? (c.sign.toList ++ ' ' :: rest) = some (.sign (.comparison c), ' ' :: rest) := by
  have hblank : ∀ tail, ' ' :: rest ≠ '=' :: tail := nofun
  obtain ⟨hless, hgreater, -⟩ := takeSign?_alone hblank
  have htake : takeSign? (c.sign.toList ++ ' ' :: rest) =
      some (.sign (.comparison c), ' ' :: rest) := by
    cases c with
    | equal | unequal | atMost | atLeast => rfl
    | less => exact hless
    | greater => exact hgreater
  have hsign := takeToken?_of_sign (.comparison c) (' ' :: rest)
  rw [Sign.text, htake, Option.some_or] at hsign
  exact hsign

/-- The guard is a name, a sign and the token behind it. -/
theorem tokens_comparing (hname : IsName x.toList) (hplain : wordSign? x = none) (c : Comparison)
    {operand : String} {t : Token} (htake : takeToken? operand.toList = some (t, []))
    (hlast : Stops isBlank operand.toList.reverse) :
    tokens (comparing x c operand) = .ok [.name x, .sign (.comparison c), t] := by
  have htext : (comparing x c operand).toList =
      x.toList ++ ([' '] ++ (c.sign.toList ++ ([' '] ++ operand.toList))) := by
    unfold comparing
    simp only [String.toList_append, List.append_assoc]
    rfl
  have hfront : Stops isBlank (comparing x c operand).toList := by
    obtain ⟨first, tail, hx, hfirst⟩ := hname.exists_head
    rw [htext, hx]
    exact stops_cons.mpr hfirst
  have hend : Stops isBlank (comparing x c operand).toList.reverse := by
    obtain ⟨lexeme, hspelled, hoperand⟩ := spelled_of_takeToken? htake
    obtain ⟨first, tail, rfl, -⟩ := hspelled.exists_head
    have hne : operand.toList ≠ [] := by
      rw [hoperand]
      exact List.cons_ne_nil first (tail ++ [])
    obtain ⟨last, before, hreverse⟩ :=
      List.exists_cons_of_ne_nil (mt List.reverse_eq_nil_iff.mp hne)
    unfold comparing
    rw [String.toList_append, List.reverse_append, hreverse]
    rw [hreverse] at hlast
    exact stops_cons.mpr (stops_cons.mp hlast)
  have hgap : Blanks [' '] := by
    intro c hc
    rw [List.mem_singleton.mp hc]
    decide
  have hnone : Blanks [] := nofun
  rw [tokens_eq_ok_iff, trim_of_stops hfront hend, htext, ← List.nil_append (x.toList ++ _)]
  refine .of_takeToken? hnone (takeToken?_of_name hname hplain _) ?_
  refine .of_takeToken? hgap (takeToken?_of_comparison c _) ?_
  exact .of_takeToken? hgap htake .done

/-- A guard that compares a variable with a constant compares the variable's value with it. -/
theorem evaluate_compared {guard : String} {v : Value} (hvariable : constant? x = none)
    (hread : Expression.read guard = .ok (.compare c (ofName x) (.constant v)))
    (bindings : Fields) :
    evaluate guard bindings = compareValues c (lookup (.record bindings) (nameParts x)) v := by
  unfold evaluate value
  rw [hread, ofName, hvariable]
  change (Except.map truth do
    let b ← compareValues c (lookup (.record bindings) (nameParts x)) v
    pure (Value.bool b)) = _
  cases compareValues c (lookup (.record bindings) (nameParts x)) v <;> rfl

theorem evaluate_comparing_literal (hname : IsName x.toList) (hplain : wordSign? x = none)
    (hvariable : constant? x = none) (c : Comparison) {quote : Char}
    (hquote : quote = '\x22' ∨ quote = '\x27') (s : String) (bindings : Fields) :
    evaluate (comparing x c (literal quote s)) bindings =
      compareValues c (lookup (.record bindings) (nameParts x)) (.text s) := by
  have hread : Expression.ofTokens [.name x, .sign (.comparison c),
      .quotation quote (escapedIn quote s.toList)] = .ok (.compare c (ofName x)
        (.constant (.text (String.ofList (resolveEscapes (escapedIn quote s.toList)))))) := rfl
  rw [resolveEscapes_escapedIn, String.ofList_toList] at hread
  refine evaluate_compared hvariable ?_ bindings
  unfold Expression.read
  rw [tokens_comparing hname hplain c (takeToken?_literal hquote s)
    (stops_reverse_literal hquote s)]
  exact hread

end Comparing

/-- Every text is the value of its literal between quotes of either kind, on all variables. Where a
variable holds a text, asking whether it is equal to the literal is asking whether the texts are the
same, and asking whether it is not gives the opposite answer. -/
theorem literal_lossless {quote : Char} (hquote : quote = '\x22' ∨ quote = '\x27') (s : String) :
    (∀ bindings, value (literal quote s) bindings = .ok (.text s)) ∧
    ∀ x, tokens x = .ok [.name x] → constant? x = none → ∀ bindings t,
      lookup (.record bindings) (nameParts x) = .text t →
        evaluate (comparing x .equal (literal quote s)) bindings = .ok (decide (t = s)) ∧
        evaluate (comparing x .unequal (literal quote s)) bindings = .ok (!decide (t = s)) := by
  constructor
  · intro bindings
    unfold value
    rw [read_literal hquote]
    rfl
  · intro x hx hvariable bindings t hlookup
    obtain ⟨hname, hplain⟩ := isName_of_tokens hx
    have hequal : compareValues .equal (.text t) (.text s) = .ok (t == s) := rfl
    have hunequal : compareValues .unequal (.text t) (.text s) = .ok (!(t == s)) := rfl
    rw [evaluate_comparing_literal hname hplain hvariable .equal hquote,
      evaluate_comparing_literal hname hplain hvariable .unequal hquote, hlookup, hequal, hunequal]
    exact ⟨rfl, rfl⟩

/-- A text of a backslash, an apostrophe, a quotation mark and a line feed, between apostrophes: a
variable that holds it is equal to it, and one that holds it without the backslash is not. -/
theorem literal_lossless_quotes :
    literal '\x27' "\\\x27\x22\n" = "\x27\\\\\\\x27\x22\n\x27" ∧
      evaluate "job.note == \x27\\\\\\\x27\x22\n\x27"
        [("job", .record [("note", .text "\\\x27\x22\n")])] = .ok true ∧
      evaluate "job.note != \x27\\\\\\\x27\x22\n\x27"
        [("job", .record [("note", .text "\x27\x22\n")])] = .ok true := by
  have hliteral : literal '\x27' "\\\x27\x22\n" = "\x27\\\\\\\x27\x22\n\x27" := by
    decide +kernel
  have hx : tokens "job.note" = .ok [.name "job.note"] := by decide +kernel
  have hvariable : constant? "job.note" = none := by decide +kernel
  have hparts : nameParts "job.note" = ["job", "note"] := by decide +kernel
  have hlookup : ∀ t, lookup (.record [("job", .record [("note", .text t)])])
      (nameParts "job.note") = .text t := by
    intro t
    rw [hparts]
    rfl
  obtain ⟨-, hcompares⟩ := literal_lossless (Or.inr rfl) "\\\x27\x22\n"
  have hsame := (hcompares _ hx hvariable _ _ (hlookup "\\\x27\x22\n")).1
  have hother := (hcompares _ hx hvariable _ _ (hlookup "\x27\x22\n")).2
  rw [hliteral] at hsame hother
  have hequal : comparing "job.note" .equal "\x27\\\\\\\x27\x22\n\x27" =
      "job.note == \x27\\\\\\\x27\x22\n\x27" := by decide +kernel
  have hunequal : comparing "job.note" .unequal "\x27\\\\\\\x27\x22\n\x27" =
      "job.note != \x27\\\\\\\x27\x22\n\x27" := by decide +kernel
  rw [hequal, decide_eq_true rfl] at hsame
  rw [hunequal, decide_eq_false (by decide)] at hother
  exact ⟨hliteral, hsame, hother⟩

end Runbook.Guard
