import Runbook.Checked
import Runbook.Workflow.Run

/-!
Runs as records, the form in which they are stored. Reading a record ignores fields it does not
know and gives a default to those that may be missing. A double that is no number, or infinite,
is recorded as null, and a half of a surrogate pair in a key as three signs of replacement.
-/
namespace Runbook.Workflow

open Number Checked

mutual

/-- A value as records hold it. -/
def storable : Value → Value
  | .float x => if x.isNaN || x.isInfinite then .null else .float x
  | .list items => .list (storableItems items)
  | .record fields => .record (storableFields fields)
  | v => v

def storableItems : List Value → List Value
  | [] => []
  | v :: rest => storable v :: storableItems rest

def storableFields : Fields → Fields
  | [] => []
  | (k, v) :: rest => (Text.replaceHalves k, storable v) :: storableFields rest

end

def textOrNull : Option String → Value
  | some s => .text s
  | none => .null

def timeValue (t : Timestamp) : Value := .text t.recordText

def textList (ids : List String) : Value := .list (ids.map .text)

def Visit.record (v : Visit) : Value :=
  .record [("state_id", .text v.state), ("entered_at", timeValue v.entered),
    ("exited_at", (v.exited.map timeValue).getD .null)]

def Failure.record (f : Failure) : Value :=
  .record [("kind", .text f.kind), ("state_id", textOrNull f.state), ("message", .text f.message)]

def Run.record (r : Run) : Value :=
  .record [("run_id", .text r.id), ("workflow_name", .text r.workflow),
    ("status", .text r.status.name), ("current_states", textList r.current),
    ("pending_joins", .record (r.pending.map fun p => (p.1, textList p.2))),
    ("history", .list (r.history.map Visit.record)), ("variables", storable (.record r.bindings)),
    ("failure", (r.failure.map Failure.record).getD .null), ("created_at", timeValue r.created),
    ("updated_at", timeValue r.updated)]

/-- A time as text or as a number of seconds since 1970. -/
def readTime : Value → Checked Timestamp
  | .text s => ofOption (Timestamp.read? s)
  | .int n => ofOption (Timestamp.ofUnix? n 0)
  | .float x => ofOption (Timestamp.ofDouble? x)
  | _ => wrong

def readStatus : Value → Checked Status
  | .text s => ofOption (Status.ofName? s)
  | _ => wrong

def Visit.read : Value → Checked Visit :=
  Checked.record fun fields =>
    let visit := (field "state_id" Checked.text fields).map Visit.mk
    let visit := also visit (field "entered_at" readTime fields)
    also visit (fieldOr "exited_at" none (optional readTime) fields)

def Failure.read : Value → Checked Failure :=
  Checked.record fun fields =>
    let failure := (field "kind" Checked.text fields).map Failure.mk
    let failure := also failure (fieldOr "state_id" none (optional Checked.text) fields)
    also failure (fieldOr "message" "" Checked.text fields)

/-- Reads the record of a run. -/
def Run.read : Value → Checked Run :=
  Checked.record fun fields =>
    let run := (field "run_id" Checked.text fields).map Run.mk
    let run := also run (field "workflow_name" Checked.text fields)
    let run := also run (fieldOr "status" .running readStatus fields)
    let run := also run (fieldOr "current_states" [] (list Checked.text) fields)
    let run := also run (fieldOr "pending_joins" [] (dictionary (list Checked.text)) fields)
    let run := also run (fieldOr "history" [] (list Visit.read) fields)
    let run := also run (fieldOr "variables" [] (dictionary .ok) fields)
    let run := also run (fieldOr "failure" none (optional Failure.read) fields)
    let run := also run (field "created_at" readTime fields)
    also run (field "updated_at" readTime fields)

end Runbook.Workflow
