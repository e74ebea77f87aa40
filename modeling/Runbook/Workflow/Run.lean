import Runbook.Calendar
import Runbook.Value

/-!
Runs of workflows: what is known of one execution. A run is running or suspended until it is
completed, cancelled or failed for good. It remembers every visit to a state in the order in
which the states were entered, and the arrivals at every join that still waits.
-/
namespace Runbook.Workflow

inductive Status where
  | running
  | suspended
  | completed
  | cancelled
  | failed
  deriving DecidableEq, Repr

namespace Status

def name : Status → String
  | .running => "running"
  | .suspended => "suspended"
  | .completed => "completed"
  | .cancelled => "cancelled"
  | .failed => "failed"

def all : List Status := [.running, .suspended, .completed, .cancelled, .failed]

def ofName? (s : String) : Option Status := all.find? fun k => k.name == s

def isFinished : Status → Bool
  | .running | .suspended => false
  | .completed | .cancelled | .failed => true

end Status

/-- Why a run failed, and in which state. -/
structure Failure where
  kind : String
  state : Option String
  message : String
  deriving DecidableEq, Repr

namespace Failure

def unknownState (id : String) : Failure :=
  ⟨"UnknownState", some id, "State is not part of the definition"⟩

def stuck (id : String) : Failure :=
  ⟨"StuckState", some id, "No outgoing transition is satisfied"⟩

def guardError (id message : String) : Failure := ⟨"GuardError", some id, message⟩

def actionFailed (id message : String) : Failure := ⟨"ActionFailed", some id, message⟩

def deadlock (current : List String) : Failure :=
  ⟨"Deadlock", none, "Pending joins wait on each other: " ++ String.intercalate ", " current⟩

def text (f : Failure) : String :=
  let subject := match f.state with
    | some s => if s.isEmpty then f.kind else s!"{f.kind}({s})"
    | none => f.kind
  if f.message.isEmpty then subject else s!"{subject}: {f.message}"

end Failure

/-- A stay in a state; it is open until the state is left. -/
structure Visit where
  state : String
  entered : Timestamp
  exited : Option Timestamp
  deriving DecidableEq, Repr

structure Run where
  id : String
  workflow : String
  status : Status
  current : List String
  /-- The states whose runs have arrived at each waiting join. -/
  pending : List (String × List String)
  history : List Visit
  bindings : Fields
  failure : Option Failure
  created : Timestamp
  updated : Timestamp
  deriving Repr

namespace Run

def isRunning (r : Run) : Bool := r.status == .running

/-- Occupies a state unless it is occupied. -/
def occupy (r : Run) (id : String) : Run :=
  if r.current.contains id then r else { r with current := r.current ++ [id] }

/-- Gives up one stay in a state. -/
def vacate (r : Run) (id : String) : Run := { r with current := r.current.erase id }

/-- Notes an arrival at a join. -/
def awaitJoin (r : Run) (join source : String) : Run :=
  let arrived := (Keyed.get? join r.pending).getD []
  { r with pending := Keyed.set join (arrived ++ [source]) r.pending }

def openVisit (r : Run) (id : String) (time : Timestamp) : Run :=
  { r with history := r.history ++ [⟨id, time, none⟩] }

def hasOpenVisit (r : Run) (id : String) : Bool :=
  r.history.any fun v => v.state == id && v.exited.isNone

/-- Closes the first open visit to a state in a list. -/
def closeFirst (id : String) (time : Timestamp) : List Visit → List Visit
  | [] => []
  | v :: rest =>
    if v.state == id && v.exited.isNone then { v with exited := some time } :: rest
    else v :: closeFirst id time rest

/-- Closes the latest open visit to a state. -/
def closeVisit (r : Run) (id : String) (time : Timestamp) : Run :=
  { r with history := (closeFirst id time r.history.reverse).reverse }

end Run

end Runbook.Workflow
