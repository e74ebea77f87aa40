import Runbook.Log.Record
import Runbook.Workflow.Action

/-!
What a run does that can be seen from outside, in order: events for listeners, log records,
actions that are carried out, waits and prompt lookups.
-/
namespace Runbook.Workflow

inductive EventKind where
  | runStarted
  | stateEntered
  | stateExited
  | joinWaiting
  | runCompleted
  | runFailed
  | runSuspended
  | runResumed
  | runCancelled
  deriving DecidableEq, Repr

def EventKind.name : EventKind → String
  | .runStarted => "run_started"
  | .stateEntered => "state_entered"
  | .stateExited => "state_exited"
  | .joinWaiting => "join_waiting"
  | .runCompleted => "run_completed"
  | .runFailed => "run_failed"
  | .runSuspended => "run_suspended"
  | .runResumed => "run_resumed"
  | .runCancelled => "run_cancelled"

structure Event where
  kind : EventKind
  run : String
  workflow : String
  state : Option String
  payload : Fields
  deriving Repr

inductive Entry where
  | event (e : Event)
  | logged (r : Log.Record)
  | invoked (state : String) (action : Action)
  | slept (seconds : Number.Binary64)
  | lookedUp (prompt : String)
  deriving Repr

abbrev Journal := List Entry

/-- What an action does on its way; it tells listeners nothing. -/
inductive Effect where
  | logged (r : Log.Record)
  | slept (seconds : Number.Binary64)
  | lookedUp (prompt : String)
  deriving Repr

def Effect.entry : Effect → Entry
  | .logged r => .logged r
  | .slept s => .slept s
  | .lookedUp p => .lookedUp p

abbrev Effects := List Effect

namespace Journal

def events (j : Journal) : List Event :=
  j.filterMap fun e => match e with
    | .event e => some e
    | _ => none

def records (j : Journal) : List Log.Record :=
  j.filterMap fun e => match e with
    | .logged r => some r
    | _ => none

def sleeps (j : Journal) : List Number.Binary64 :=
  j.filterMap fun e => match e with
    | .slept s => some s
    | _ => none

def lookups (j : Journal) : List String :=
  j.filterMap fun e => match e with
    | .lookedUp p => some p
    | _ => none

def invocations (j : Journal) : List (String × Action) :=
  j.filterMap fun e => match e with
    | .invoked s a => some (s, a)
    | _ => none

end Journal

namespace Effects

def entries (effects : Effects) : Journal := effects.map Effect.entry

def records (effects : Effects) : List Log.Record := effects.entries.records

def sleeps (effects : Effects) : List Number.Binary64 := effects.entries.sleeps

end Effects

end Runbook.Workflow
