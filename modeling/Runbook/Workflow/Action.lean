import Runbook.Number.Binary64

/-!
What happens when a run enters a state: a line is logged, a variable is set, time passes, or a
prompt is looked up and stored.
-/
namespace Runbook.Workflow

inductive Action where
  | log (message level : String)
  | set (name value : String)
  | wait (seconds : Number.Binary64)
  /-- A prompt, arguments for it, and the variable that takes its template. -/
  | prompt (name : String) (arguments : List (String × String)) (result : String)
  deriving DecidableEq, Repr

end Runbook.Workflow
