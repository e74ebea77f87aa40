import Runbook.Proofs.Success
import Runbook.Workflow.Document
import Runbook.Workflow.Machine

/-!
Documents as lists of lines. A text written line by line is read as the same lines, so that what a
document means is a question about its lines alone, and a run of it can be computed from them.
-/
namespace Runbook

namespace Text

/-- Lines as a text, each with a line feed at its end. -/
def unlines (ls : List String) : String := String.ofList (ls.flatMap fun l => l.toList ++ ['\n'])

/-- Whether a text holds no line break. -/
def unbroken (l : String) : Bool := l.toList.all fun c => !isLineBreak c

theorem brokenLines_append {cs : List Char} (h : ∀ c ∈ cs, isLineBreak c = false)
    (rest : List Char) :
    brokenLines (cs ++ '\n' :: rest) = (cs, ['\n']) :: brokenLines rest := by
  induction cs with
  | nil => rfl
  | cons c cs ih =>
    have hc : isLineBreak c = false := h c (List.mem_cons_self ..)
    have hcarriage : c ≠ '\r' := by
      intro heq
      obtain rfl := heq
      exact absurd hc (by decide)
    have hcs := ih fun b hb => h b (List.mem_cons_of_mem _ hb)
    rw [List.cons_append, brokenLines]
    · simp [hc, hcs]
    · intro tail heq
      exact absurd heq hcarriage

theorem lines_unlines {ls : List String} (h : ∀ l ∈ ls, unbroken l = true) :
    lines (unlines ls) = ls := by
  unfold lines unlines
  rw [String.toList_ofList]
  induction ls with
  | nil => rfl
  | cons l rest ih =>
    have hl : ∀ c ∈ l.toList, isLineBreak c = false := by
      have hall := h l (List.mem_cons_self ..)
      simpa [unbroken] using hall
    have hrest := ih fun k hk => h k (List.mem_cons_of_mem _ hk)
    rw [List.flatMap_cons, List.append_assoc, List.singleton_append, brokenLines_append hl,
      List.map_cons, hrest, String.ofList_toList]

end Text

namespace Workflow.Definition

/-- Reads the numbered lines of a workflow document. -/
def parseLines (document : List NumberedLine) (name : Option String) : Parsed Definition := do
  let layout ← (Document.layout document).mapError .fault
  let header ← Document.readHeader layout.header layout.first
  let body ← (Document.splitBody layout.body).mapError .fault
  let draft ← (Draft.ofLines body.fenced body.diagram body.actions).mapError .fault
  pure (ofDraft name header draft)

theorem numbered_unlines {ls : List String} (h : ∀ l ∈ ls, Text.unbroken l = true) :
    Document.numbered (Text.unlines ls) = (ls.zipIdx 1).map fun l => (l.2, l.1) := by
  unfold Document.numbered
  rw [Text.lines_unlines h]

theorem parse_unlines {ls : List String} (h : ∀ l ∈ ls, Text.unbroken l = true)
    (name : Option String) :
    parse (Text.unlines ls) name = parseLines ((ls.zipIdx 1).map fun l => (l.2, l.1)) name := by
  unfold parse parseLines
  rw [numbered_unlines h]

end Workflow.Definition

namespace Workflow.Definition

/-- Whether lines make a valid definition that passes a test. -/
def readsWith (ls : List String) (test : Definition → Bool) : Bool :=
  succeedsWith (fun d => !d.validate.hasErrors && test d)
    (parseLines ((ls.zipIdx 1).map fun l => (l.2, l.1)) none)

theorem exists_read (ls : List String) (test : Definition → Bool)
    (hlines : ∀ l ∈ ls, Text.unbroken l = true) (h : readsWith ls test = true) :
    ∃ d, parse (Text.unlines ls) none = .ok d ∧ d.validate.hasErrors = false ∧ test d = true := by
  unfold readsWith at h
  obtain ⟨d, hparse, hd⟩ := succeedsWith_iff.mp h
  rw [Bool.and_eq_true, Bool.not_eq_true'] at hd
  refine ⟨d, ?_, hd⟩
  rw [parse_unlines hlines]
  exact hparse

end Workflow.Definition

namespace Workflow.Machine

/-- The standard host with a clock that stands still, and no prompts. -/
def quietHost : Host := Host.standard (fun _ => ⟨0, some 0⟩) none

/-- Whether lines make a valid definition whose run starts, and both pass a test. -/
def startsWith (ls : List String) (bindings : Fields) (test : Definition → Machine → Bool) : Bool :=
  succeedsWith
    (fun d => !d.validate.hasErrors &&
      succeedsWith (test d) (start quietHost d bindings "run-1" 0 0 0))
    (Definition.parseLines ((ls.zipIdx 1).map fun l => (l.2, l.1)) none)

theorem exists_started (ls : List String) (bindings : Fields) (test : Definition → Machine → Bool)
    (hlines : ∀ l ∈ ls, Text.unbroken l = true) (h : startsWith ls bindings test = true) :
    ∃ d m, Definition.parse (Text.unlines ls) none = .ok d ∧ d.validate.hasErrors = false ∧
      start quietHost d bindings "run-1" 0 0 0 = .ok m ∧ test d m = true := by
  obtain ⟨d, hparse, hv, hstart⟩ := Definition.exists_read ls _ hlines h
  obtain ⟨m, hm, htest⟩ := succeedsWith_iff.mp hstart
  exact ⟨d, m, hparse, hv, hm, htest⟩

end Workflow.Machine

end Runbook
