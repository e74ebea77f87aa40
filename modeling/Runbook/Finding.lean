import Runbook.Text.Quoted

/-!
Findings of checks. An error keeps a workflow from being run and a warning does not. A report
gathers the findings on some files.
-/
namespace Runbook

inductive Severity where
  | error
  | warning
  deriving DecidableEq, Repr

def Severity.name : Severity → String
  | .error => "error"
  | .warning => "warning"

def Severity.mark : Severity → String
  | .error => "ERROR"
  | .warning => "WARNING"

structure Finding where
  severity : Severity
  code : String
  message : String
  workflow : Option String
  state : Option String
  deriving DecidableEq, Repr

namespace Finding

/-- The workflow and the state a finding is about; a hyphen stands for no workflow. -/
def place (f : Finding) : String :=
  let workflow := match f.workflow with
    | some w => if w.isEmpty then "-" else w
    | none => "-"
  match f.state with
  | some s => if s.isEmpty then workflow else s!"{workflow}:{s}"
  | none => workflow

def text (f : Finding) : String := s!"[{f.severity.mark}] {f.place}: {f.message}"

end Finding

structure Report where
  findings : List Finding
  filesChecked : Nat
  deriving DecidableEq, Repr

namespace Report

def empty : Report := ⟨[], 0⟩

/-- Two reports as one, the findings of the first in front. -/
def merge (a b : Report) : Report :=
  ⟨a.findings ++ b.findings, a.filesChecked + b.filesChecked⟩

def errors (r : Report) : List Finding := r.findings.filter fun f => f.severity == .error

def warnings (r : Report) : List Finding := r.findings.filter fun f => f.severity == .warning

def hasErrors (r : Report) : Bool := r.findings.any fun f => f.severity == .error

end Report

/-- What is said of a workflow that cannot be run for its errors. -/
def invalidWorkflowMessage (workflow : String) (errors : List Finding) : String :=
  let summary := String.intercalate "; " (errors.map Finding.message)
  s!"Workflow {Text.quoted workflow} is invalid: {summary}"

end Runbook
