import Runbook.Guard.Evaluation
import Runbook.Workflow.Journal
import Runbook.Workflow.Run

/-!
The host of a run: the clock, the judge of guards and whatever carries out actions. Each of them
is told how often it has been asked before, so that its answers may change in the course of a
run. The standard host judges guards by their expressions, logs, sets variables, sleeps and
looks prompts up.
-/
namespace Runbook.Workflow

/-- What an action may see of the run it belongs to. -/
structure Scene where
  run : String
  workflow : String
  state : String
  bindings : Fields
  deriving Repr

inductive Outcome where
  | succeeded (message : String) (details : Option Fields)
  | failed (message : String)
  /-- The action was broken off with an error. -/
  | raised (message : String)
  deriving Repr

/-- Why an action failed, if it did. -/
def Outcome.fault? : Outcome → Option String
  | .succeeded _ _ => none
  | .failed message | .raised message => some message

/-- The outcome of an action, the variables after it, and what it did on the way. -/
structure Response where
  outcome : Outcome
  bindings : Fields
  effects : Effects
  deriving Repr

/-- Why a step of a run breaks off. -/
inductive Interruption where
  /-- A transition leads to a state that is not declared. -/
  | stray (state : String)
  /-- A number in a guard has more digits than an integer is read from. -/
  | tooManyDigits (digits : Nat)
  /-- A guard has more levels than are read or evaluated. -/
  | tooDeep
  deriving DecidableEq, Repr

def Interruption.message : Interruption → String
  | .stray state => Text.quoted state
  | .tooManyDigits n => Number.tooLongToRead n
  | .tooDeep => "maximum recursion depth exceeded"

/-- Why a guard neither holds nor fails to hold. -/
inductive GuardFault where
  /-- The guard has no value, which makes its run fail. -/
  | valueless (message : String)
  | interrupted (why : Interruption)
  deriving DecidableEq, Repr

structure Host where
  clock : Nat → Timestamp
  guard : Nat → String → Fields → Except GuardFault Bool
  invoke : Nat → Action → Scene → Response

/-- The templates of prompts by name, where there are prompts at all. -/
abbrev PromptSource := Option (String → Option String)

/-- The level a log action writes at: that of its word, or the level of information. -/
def actionLevel (word : String) : Int := (Log.level? word).getD Log.info

/-- Carries out an action. -/
def carryOut (prompts : PromptSource) (a : Action) (s : Scene) : Response :=
  match a with
  | .log message level =>
    let record := Log.Record.plain (actionLevel level) "toolsmith.workflow.actions" message
      [("run_id", .text s.run), ("state", .text s.state)]
    ⟨.succeeded "Logged" none, s.bindings, [.logged record]⟩
  | .set name v =>
    ⟨.succeeded "Set" (some [(name, .text v)]), Keyed.set name (.text v) s.bindings, []⟩
  | .wait seconds =>
    ⟨.succeeded "Waited" (some [("seconds", .float seconds)]), s.bindings, [.slept seconds]⟩
  | .prompt name arguments result =>
    match prompts with
    | none => ⟨.failed "No prompt library configured", s.bindings, []⟩
    | some lookup =>
      match lookup name with
      | none => ⟨.failed s!"Unknown prompt: {name}", s.bindings, [.lookedUp name]⟩
      | some template =>
        let given : Fields := arguments.map fun a => (a.1, .text a.2)
        let details := [("prompt", .text name), ("arguments", .record given)]
        ⟨.succeeded "Prompt resolved" (some details),
          Keyed.set result (.text template) s.bindings, [.lookedUp name]⟩

/-- What a fault of a guard is to the run that meets it. -/
def GuardFault.ofFault (guard : String) : Guard.Fault → GuardFault
  | .tooManyDigits n => .interrupted (.tooManyDigits n)
  | .tooDeep => .interrupted .tooDeep
  | fault => .valueless (fault.message guard)

def judge (guard : String) (bindings : Fields) : Except GuardFault Bool :=
  (Guard.evaluate guard bindings).mapError (GuardFault.ofFault guard)

/-- The standard host with a clock. -/
def Host.standard (clock : Nat → Timestamp) (prompts : PromptSource) : Host :=
  ⟨clock, fun _ => judge, fun _ => carryOut prompts⟩

end Runbook.Workflow
