import Runbook.Proofs.Literals
import Runbook.Workflow.Host

/-!
Variables that an action sets, and guards that ask for them. A guard can ask whether a variable has
any text at all, if quotes and backslashes are written behind a backslash. After the action it holds,
whatever the text; but a name with a point in it is no name of a variable to a guard, which looks for
a record there and in it for the rest of the name, so that the action makes no difference to it.
-/
namespace Runbook.Guard

open Text

/-- A text as it is written between double quotes. -/
def escaped : List Char → List Char
  | [] => []
  | c :: cs => if c = '\\' ∨ c = '\x22' then '\\' :: c :: escaped cs else c :: escaped cs

/-- The guard that asks whether a variable has a text. -/
def equalsText (name v : String) : String :=
  String.ofList (name.toList ++ " == \x22".toList ++ escaped v.toList ++ ['\x22'])

section Reading

variable {n : String}

theorem escaped_eq (cs : List Char) : escaped cs = escapedIn '\x22' cs := by
  induction cs with
  | nil => rfl
  | cons c cs ih => rw [escaped, escapedIn, ih]

theorem equalsText_eq (n v : String) :
    equalsText n v = comparing n .equal (literal '\x22' v) := by
  unfold equalsText comparing literal
  rw [ ← String.toList_inj, escaped_eq]
  simp [Comparison.sign]

/-- The guard holds if the variable has the text, read as far as it has to be. -/
theorem evaluate_equalsText (hname : IsName n.toList) (hplain : wordSign? n = none)
    (hvariable : constant? n = none) (v : String) (bindings : Fields) :
    evaluate (equalsText n v) bindings =
      compareValues .equal (lookup (.record bindings) (nameParts n)) (.text v) := by
  rw [equalsText_eq]
  exact evaluate_comparing_literal hname hplain hvariable .equal (Or.inl rfl) v bindings

end Reading

section Names

variable {cs part : List Char} {rest : List (List Char)}

theorem not_mem_of_parts (h : parts '.' cs = part :: rest) : '.' ∉ part := by
  induction cs generalizing part rest with
  | nil =>
    cases h
    exact List.not_mem_nil
  | cons c cs ih =>
    rw [parts] at h
    split at h
    · cases h
      exact List.not_mem_nil
    · rename_i hc
      split at h
      · cases h
        simpa using Ne.symm hc
      · rename_i first more hparts
        cases h
        rw [List.mem_cons, not_or]
        exact ⟨Ne.symm hc, ih hparts⟩

theorem parts_of_not_mem (h : '.' ∉ cs) : parts '.' cs = [cs] := by
  induction cs with
  | nil => rfl
  | cons c cs ih =>
    rw [List.mem_cons, not_or] at h
    rw [parts, if_neg (Ne.symm h.1), ih h.2]

/-- What is set under a name is found under it if it has no point; otherwise it makes no difference
to what is found. -/
theorem lookup_set (n : String) (v : Value) (bindings : Fields) :
    lookup (.record (Keyed.set n v bindings)) (nameParts n) =
      if '.' ∈ n.toList then lookup (.record bindings) (nameParts n) else v := by
  unfold nameParts
  split
  · rename_i hpoint
    cases hparts : parts '.' n.toList with
    | nil => exact absurd hparts (parts_ne_nil '.' n.toList)
    | cons part rest =>
      have hne : String.ofList part ≠ n := by
        rintro rfl
        rw [String.toList_ofList] at hpoint hparts
        exact not_mem_of_parts hparts hpoint
      rw [List.map_cons, lookup, lookup, Keyed.get?_set_ne hne]
  · rename_i hplain
    rw [parts_of_not_mem hplain, List.map_singleton, String.ofList_toList, lookup,
      Keyed.get?_set_self]
    rfl

end Names

end Runbook.Guard

namespace Runbook.Workflow

open Guard

/-- After an action that sets a variable, the guard that asks for its text holds if its name has no
point; otherwise the guard is answered as it was before. -/
theorem evaluate_carryOut_set {n : String} (hn : tokens n = .ok [.name n])
    (hvariable : constant? n = none) (v : String) (prompts : PromptSource) (s : Scene) :
    evaluate (equalsText n v) (carryOut prompts (.set n v) s).bindings =
      if '.' ∈ n.toList then evaluate (equalsText n v) s.bindings else .ok true := by
  obtain ⟨hname, hplain⟩ := isName_of_tokens hn
  rw [evaluate_equalsText hname hplain hvariable, evaluate_equalsText hname hplain hvariable]
  change compareValues .equal (lookup (.record (Keyed.set n (.text v) s.bindings)) (nameParts n))
    (.text v) = _
  rw [lookup_set]
  split
  · rfl
  · have hsame : compareValues .equal (.text v) (.text v) = .ok (v == v) := rfl
    rw [hsame, beq_self_eq_true]

/-- A variable with a point in its name is set, and the guard that asks for it still fails. -/
theorem evaluate_carryOut_set_of_point :
    tokens "build.status" = .ok [.name "build.status"] ∧ constant? "build.status" = none ∧
      equalsText "build.status" "green" = "build.status == \x22green\x22" ∧
      evaluate (equalsText "build.status" "green")
        (carryOut none (.set "build.status" "green") ⟨"run-1", "flow", "A", []⟩).bindings =
          .ok false := by
  have hn : tokens "build.status" = .ok [.name "build.status"] := by decide +kernel
  have hvariable : constant? "build.status" = none := by decide +kernel
  refine ⟨hn, hvariable, by decide +kernel, ?_⟩
  obtain ⟨hname, hplain⟩ := isName_of_tokens hn
  rw [evaluate_carryOut_set hn hvariable, if_pos (by decide),
    evaluate_equalsText hname hplain hvariable]
  have hparts : nameParts "build.status" = ["build", "status"] := by decide +kernel
  rw [hparts]
  rfl

end Runbook.Workflow
