import Runbook.Resource.Layers
import Runbook.Resource.Shipped
import Runbook.Workflow.Machine
import Runbook.Workflow.Store

/-!
The toolkit: prompts and workflows of all layers together, and runs of the workflows. A load
replaces both kinds at once or, if anything is wrong, neither. Runs are kept in a store; every
operation on a run takes it from there and puts it back only when it has gone well.
-/
namespace Runbook

open Workflow

structure Toolkit where
  prompts : Layers Prompt
  workflows : Layers Definition
  library : Collection Prompt
  registry : Collection Definition
  loaded : Bool
  store : Store
  /-- How many steps a run is driven at most, unless another number is asked for. -/
  maxSteps : Int

/-- A toolkit at work: the files it sees, how often it has read the clock and named a run, and
what it has done. -/
structure Session where
  toolkit : Toolkit
  files : Files
  reads : Nat
  named : Nat
  journal : Journal

/-- What a toolkit takes from outside: the time, and names for runs. -/
structure Surroundings where
  clock : Nat → Timestamp
  identifier : Nat → String

inductive ToolkitFault where
  | load (f : LoadFault)
  | store (f : StoreFault)
  | unknownKind (name : String)
  | workflowNotFound (name : String)
  | runNotFound (id : String)
  | invalid (workflow : String) (errors : List Finding)
  | status (r : Machine.StatusRefusal)
  | foreign (run workflow definition : String)
  | interrupted (why : Interruption)

namespace ToolkitFault

def message : ToolkitFault → String
  | .load f => f.message
  | .store f => f.message
  | .unknownKind name =>
    s!"Unknown resource kind {Text.quoted name}; expected one of prompts, workflows"
  | .workflowNotFound name => s!"Workflow not found: {Text.quoted name}"
  | .runNotFound id => s!"Run not found: {Text.quoted id}"
  | .invalid workflow errors => invalidWorkflowMessage workflow errors
  | .status r => r.message
  | .foreign run workflow d => Machine.foreignMessage run workflow d
  | .interrupted why => why.message

/-- The name by which logs call a fault that a user can do something about. -/
def logName? : ToolkitFault → Option String
  | .load (.unreadable _) => some "ResourceIOError"
  | .load (.refused (.fault f)) =>
    some (if f.cause.isAmbiguity then "AmbiguousTransitionError" else "ParseError")
  | .workflowNotFound _ => some "WorkflowNotFoundError"
  | .runNotFound _ => some "RunNotFoundError"
  | .invalid .. => some "WorkflowValidationError"
  | .status _ => some "InvalidStateTransitionError"
  | _ => none

end ToolkitFault

abbrev Work (α : Type) : Type := ExceptT ToolkitFault (StateM Session) α

namespace Toolkit

/-- A toolkit that has loaded nothing yet. -/
def new (home start : Path) (dirName : String) (maxSteps : Int) (store : Store) : Toolkit where
  prompts := Layers.new Prompt.kind Shipped.prompts home start dirName
  workflows := Layers.new Definition.kind Shipped.workflows home start dirName
  library := []
  registry := []
  loaded := false
  store := store
  maxSteps := maxSteps

def logger : String := "toolsmith.core.toolkit"

def note (entries : Journal) : Work Unit :=
  modify fun s => { s with journal := s.journal ++ entries }

def log (message : String) (extra : Fields) : Work Unit :=
  note [.logged (.plain Log.info logger message extra)]

def adjust (f : Toolkit → Toolkit) : Work Unit :=
  modify fun s => { s with toolkit := f s.toolkit }

/-- Does work that writes records. They are kept whether it goes well or not. -/
def recorded {ε α : Type} (wrap : ε → ToolkitFault) (work : Log.Recorded ε α) : Work α := do
  let (result, records) := work.outcome
  note (records.map .logged)
  match result with
  | .ok a => pure a
  | .error e => throw (wrap e)

/-! Resources. -/

/-- Loads all layers of both kinds. -/
def load : Work Unit := do
  let s ← get
  let t := s.toolkit
  let prompts ← recorded .load (t.prompts.resolve s.files)
  let workflows ← recorded .load (t.workflows.resolve s.files)
  let (promptLayers, library) ← recorded .load (t.prompts.commit s.files prompts [])
  let (workflowLayers, registry) ← recorded .load (t.workflows.commit s.files workflows [])
  adjust fun t => { t with
    prompts := promptLayers
    workflows := workflowLayers
    library := library
    registry := registry
    loaded := true }
  log "Toolkit loaded" [("prompts", .int library.length), ("workflows", .int registry.length)]

def ensureLoaded : Work Unit := do
  if !(← get).toolkit.loaded then load

inductive Kind where
  | prompts
  | workflows
  deriving DecidableEq, Repr

def Kind.name : Kind → String
  | .prompts => "prompts"
  | .workflows => "workflows"

def Kind.all : List Kind := [.prompts, .workflows]

/-- The kind with a name. -/
def kind (name : String) : Work Kind :=
  match Kind.all.find? fun k => k.name == name with
  | some k => pure k
  | none => throw (.unknownKind name)

/-- The names of a kind in order, each with the tier it comes from. -/
def list (k : Kind) : Work (List (String × Tier)) := do
  ensureLoaded
  let t := (← get).toolkit
  pure (Keyed.sorted (match k with
    | .prompts => t.prompts.sources
    | .workflows => t.workflows.sources))

/-- The directories that resources of a kind come from. -/
def directories (k : Kind) : Work (List Path) := do
  let s ← get
  match k with
  | .prompts =>
    let (paths, layers) := s.toolkit.prompts.directories s.files
    adjust fun t => { t with prompts := layers }
    pure paths
  | .workflows =>
    let (paths, layers) := s.toolkit.workflows.directories s.files
    adjust fun t => { t with workflows := layers }
    pure paths

def prompt? (name : String) : Work (Option Prompt) := do
  ensureLoaded
  return Keyed.get? name (← get).toolkit.library

def workflow (name : String) : Work Definition := do
  ensureLoaded
  match Keyed.get? name (← get).toolkit.registry with
  | some d => pure d
  | none => throw (.workflowNotFound name)

/-- What is found in a resource that is malformed. -/
def malformed (r : Resource) (f : DocumentFault) : Report :=
  ⟨[⟨.error, "parse_error", f.message, some r.name, none⟩], 1⟩

/-- Checks resources one after another. One that is malformed is a finding. -/
def checkAll {α : Type} (layers : Layers α) (check : α → Report) :
    Report → List Resource → Work Report
  | report, [] => pure report
  | report, r :: rest => do
    let (result, records) := (layers.parse r).outcome
    note (records.map .logged)
    match result with
    | .ok item => checkAll layers check (report.merge (check item)) rest
    | .error (.refused (.fault f)) => checkAll layers check (report.merge (malformed r f)) rest
    | .error e => throw (.load e)

def checkLayers {α : Type} (layers : Layers α) (check : α → Report) : Work Report := do
  let resources ← recorded .load (layers.scan (← get).files)
  checkAll layers check Report.empty resources

/-- Checks every resource of a kind as it is now, loaded or not. -/
def validate (k : Kind) : Work Report := do
  let t := (← get).toolkit
  let report ← match k with
    | .prompts => checkLayers t.prompts fun _ => ⟨[], 1⟩
    | .workflows => checkLayers t.workflows Definition.validate
  log "Validation finished"
    [("kind", .text k.name), ("files_checked", .int report.filesChecked),
      ("errors", .int report.errors.length), ("warnings", .int report.warnings.length)]
  pure report

/-! Runs. -/

/-- The standard host, which looks prompts up in the library. -/
def host (around : Surroundings) : Work Host := do
  let library := (← get).toolkit.library
  pure (Host.standard around.clock
    (some fun name => (Keyed.get? name library).map Prompt.template))

def storedRun (id : String) : Work Run := do
  let s ← get
  match ← recorded .store (s.toolkit.store.get s.files id) with
  | some run => pure run
  | none => throw (.runNotFound id)

def keep (run : Run) : Work Unit := do
  let s ← get
  let p := s.toolkit.store.put s.files run
  note (p.records.map .logged)
  modify fun s => { s with files := p.files, toolkit := { s.toolkit with store := p.store } }
  match p.fault? with
  | some f => throw (.store f)
  | none => pure ()

/-- A run as it is taken up again. -/
def machine (run : Run) : Work Machine := do
  return ⟨run, (← get).reads, 0, 0, []⟩

/-- Takes over what a machine has done, whether it goes on or not. -/
def takeOver (m : Machine) : Work Unit := do
  modify fun s => { s with reads := m.reads }
  note m.journal

/-- The run of a machine that has gone well. -/
def moved (result : Except Machine.Refusal Machine) : Work Run := do
  match result with
  | .ok m =>
    takeOver m
    pure m.run
  | .error (.foreign run workflow d) => throw (.foreign run workflow d)
  | .error (.interrupted i) =>
    takeOver i.machine
    throw (.interrupted i.why)

def changed (result : Except Machine.StatusRefusal Machine) : Work Run := do
  match result with
  | .ok m =>
    takeOver m
    pure m.run
  | .error r => throw (.status r)

/-- Starts a run of a workflow and gives its identifier. -/
def start (around : Surroundings) (name : String) (bindings : Fields) : Work String := do
  let d ← workflow name
  let s ← get
  let host ← host around
  match Machine.start host d bindings (around.identifier s.named) s.reads 0 0 with
  | .error (.invalid errors) => throw (.invalid d.name errors)
  | .error (.refused r) =>
    modify fun s => { s with named := s.named + 1 }
    let run ← moved (.error r)
    pure run.id
  | .ok m =>
    modify fun s => { s with named := s.named + 1 }
    let run ← moved (.ok m)
    keep run
    pure run.id

def advance (around : Surroundings) (id : String) : Work Run := do
  let run ← storedRun id
  let d ← workflow run.workflow
  let host ← host around
  let run ← moved ((← machine run).advance host d)
  keep run
  pure run

/-- Drives a run until it is no longer running, up to a number of steps. -/
def settle (around : Surroundings) (id : String) (limit : Option Int) : Work Run := do
  let run ← storedRun id
  let d ← workflow run.workflow
  let host ← host around
  let limit := limit.getD (← get).toolkit.maxSteps
  let run ← moved ((← machine run).settle host d limit)
  keep run
  pure run

def suspend (around : Surroundings) (id : String) : Work Run := do
  let m ← machine (← storedRun id)
  let run ← changed (m.suspend (← host around))
  keep run
  pure run

def resume (around : Surroundings) (id : String) : Work Run := do
  let m ← machine (← storedRun id)
  let run ← changed (m.resume (← host around))
  keep run
  pure run

def cancel (around : Surroundings) (id : String) : Work Run := do
  let m ← machine (← storedRun id)
  let run ← changed (m.cancel (← host around))
  keep run
  pure run

def runs : Work (List Run) := do
  let s ← get
  recorded .store (s.toolkit.store.list s.files)

end Toolkit

end Runbook
