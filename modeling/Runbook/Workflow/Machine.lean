import Runbook.Workflow.Host
import Runbook.Workflow.Validation

/-!
Runs in motion. A step takes every occupied state one transition on, one state after another. A
fork goes to all its targets; any other state goes where its first satisfied guard points, or
else along its unguarded exit. A join waits until no other occupied state can still reach it.
Whatever goes wrong inside a run makes it fail and is no error of the step, unless the step
breaks off.
-/
namespace Runbook.Workflow

/-- A run with its journal, and how often the clock, the guards and the actions have been asked. -/
structure Machine where
  run : Run
  reads : Nat
  judged : Nat
  invoked : Nat
  journal : Journal

/-- A step that broke off; the machine as it was left. -/
structure Interrupted where
  why : Interruption
  machine : Machine

namespace Machine

def isRunning (m : Machine) : Bool := m.run.isRunning

def note (m : Machine) (entries : Journal) : Machine := { m with journal := m.journal ++ entries }

def emit (m : Machine) (kind : EventKind) (state : Option String) (payload : Fields) : Machine :=
  m.note [.event ⟨kind, m.run.id, m.run.workflow, state, payload⟩]

def log (m : Machine) (level : Int) (message : String) (extra : Fields) : Machine :=
  m.note [.logged (.plain level "toolsmith.workflow.executor" message
    (("run_id", .text m.run.id) :: extra))]

/-- The time, and the machine after the clock was read. -/
def readClock (host : Host) (m : Machine) : Timestamp × Machine :=
  (host.clock m.reads, { m with reads := m.reads + 1 })

def mapRun (f : Run → Run) (m : Machine) : Machine := { m with run := f m.run }

def touch (host : Host) (m : Machine) : Machine :=
  let (time, m) := m.readClock host
  m.mapRun fun r => { r with updated := time }

def fail (m : Machine) (f : Failure) : Machine :=
  let m := m.mapRun fun r => { r with status := .failed, failure := some f }
  let m := m.log Log.warning "Run failed"
    [("workflow", .text m.run.workflow), ("reason", .text f.text)]
  m.emit .runFailed f.state [("reason", .text f.text)]

def complete (m : Machine) : Machine :=
  let m := m.mapRun fun r => { r with status := .completed, current := [endId] }
  let m := m.log Log.info "Run completed" [("workflow", .text m.run.workflow)]
  m.emit .runCompleted none []

/-- Carries out the actions of a state until one of them fails. -/
def act (host : Host) (state : String) : List Action → Machine → Machine
  | [], m => m
  | a :: rest, m =>
    let response := host.invoke m.invoked a ⟨m.run.id, m.run.workflow, state, m.run.bindings⟩
    let m := ({ m with invoked := m.invoked + 1 }.mapRun fun r =>
      { r with bindings := response.bindings }).note (.invoked state a :: response.effects.entries)
    match response.outcome.fault? with
    | some message => m.fail (.actionFailed state message)
    | none => act host state rest m

def enter (host : Host) (s : State) (m : Machine) : Machine :=
  let (time, m) := m.readClock host
  let m := m.mapRun fun r => r.openVisit s.id time
  (m.emit .stateEntered (some s.id) []).act host s.id s.actions

/-- Leaves a state; pseudostates are left without notice. -/
def leave (host : Host) (s : State) (m : Machine) : Machine :=
  let m := m.mapRun fun r => r.vacate s.id
  if s.kind.isPseudo then m
  else
    let m := if m.run.hasOpenVisit s.id then
        let (time, m) := m.readClock host
        m.mapRun fun r => r.closeVisit s.id time
      else m
    m.emit .stateExited (some s.id) []

/-- Arrives at a state that is declared: a terminal state is only occupied, a join waits, and any
other state is entered. -/
def arriveAt (host : Host) (source : String) (target : State) (m : Machine) : Machine :=
  match target.kind with
  | .terminal => m.mapRun fun r => r.occupy target.id
  | .join =>
    let m := m.mapRun fun r => (r.awaitJoin target.id source).occupy target.id
    let arrived := (Keyed.get? target.id m.run.pending).getD []
    m.emit .joinWaiting (some target.id) [("arrived", .list (arrived.map .text))]
  | _ => (m.mapRun fun r => r.occupy target.id).enter host target

/-- Arrives at the targets of a state, one after another while the run goes on. -/
def arrive (host : Host) (d : Definition) (source : String) :
    List String → Machine → Except Interrupted Machine
  | [], m => .ok m
  | target :: rest, m =>
    match d.state? target with
    | none => .error ⟨.stray target, m⟩
    | some s =>
      let m := m.arriveAt host source s
      if m.isRunning then arrive host d source rest m else .ok m

/-- The target of the first exit whose guard holds, or else of the first unguarded one; none if
the run has failed over it. -/
def select (host : Host) (state : String) :
    Option String → List Transition → Machine → Except Interrupted (Option String × Machine)
  | some fallback, [], m => .ok (some fallback, m)
  | none, [], m => .ok (none, m.fail (.stuck state))
  | fallback, t :: rest, m =>
    match t.guard with
    | none => select host state (fallback.or (some t.target)) rest m
    | some guard =>
      let answer := host.guard m.judged guard m.run.bindings
      let m := { m with judged := m.judged + 1 }
      match answer with
      | .error (.valueless message) => .ok (none, m.fail (.guardError state message))
      | .error (.interrupted why) => .error ⟨why, m⟩
      | .ok true => .ok (some t.target, m)
      | .ok false => select host state fallback rest m

/-- Where a state is left for; none if the run has failed over it. -/
def targets (host : Host) (d : Definition) (s : State) (m : Machine) :
    Except Interrupted (Option (List String) × Machine) := do
  if s.kind = .fork then pure (some ((d.outgoing s.id).map Transition.target), m)
  else
    let (target, m) ← m.select host s.id none (d.outgoing s.id)
    pure (target.map ([·]), m)

/-- Whether no other occupied state can still reach a join. -/
def joinReady (d : Definition) (join : String) (occupied : List String) : Bool :=
  occupied.all fun id =>
    id == join ||
      match d.state? id with
      | none => true
      | some s => s.kind == .terminal || !d.canReach id join

/-- Takes the arrivals from a join. -/
def fire (join : String) (m : Machine) : Machine :=
  let arrived := (Keyed.get? join m.run.pending).getD []
  let m := m.mapRun fun r => { r with pending := Keyed.erase join r.pending }
  m.log Log.debug "Join fired" [("state", .text join), ("arrived", .list (arrived.map .text))]

def awaits (m : Machine) (s : State) : Bool := s.kind == .join && Keyed.has s.id m.run.pending

/-- Takes one occupied state on. The flag says whether it moved. -/
def move (host : Host) (d : Definition) (occupied : List String) (s : State) (m : Machine) :
    Except Interrupted (Bool × Machine) :=
  if s.kind = .terminal then .ok (false, m)
  else if m.awaits s then
    if joinReady d s.id occupied then .ok (true, (m.fire s.id).enter host s) else .ok (false, m)
  else
    match m.targets host d s with
    | .error e => .error e
    | .ok (none, m) => .ok (false, m)
    | .ok (some targets, m) => do
      let m ← (m.leave host s).arrive host d s.id targets
      pure (true, m)

/-- Takes the occupied states on, one after another while the run goes on. The flag says whether
any of them has moved. -/
def moveAll (host : Host) (d : Definition) (occupied : List String) :
    List String → Bool → Machine → Except Interrupted (Bool × Machine)
  | [], moved, m => .ok (moved, m)
  | id :: rest, moved, m =>
    if !m.isRunning then .ok (moved, m)
    else
      match d.state? id with
      | none => .ok (moved, m.fail (.unknownState id))
      | some s => do
        let (here, m) ← m.move host d occupied s
        moveAll host d occupied rest (moved || here) m

def isTerminal (d : Definition) (id : String) : Bool :=
  ((d.state? id).map State.kind) == some .terminal

/-- What a step comes to: the run is complete when only terminal states are occupied, and it
cannot go on when nothing has moved. -/
def conclude (d : Definition) (moved : Bool) (m : Machine) : Machine :=
  if !m.isRunning then m
  else if !m.run.current.isEmpty && m.run.current.all (isTerminal d) then m.complete
  else if !moved then m.fail (.deadlock m.run.current)
  else m

/-- Why a step is not taken. -/
inductive Refusal where
  /-- The run is one of another workflow. -/
  | foreign (run workflow definition : String)
  | interrupted (i : Interrupted)

def foreignMessage (run workflow definition : String) : String :=
  s!"Run {run} belongs to {Text.quoted workflow}, not {Text.quoted definition}"

/-- One step of a run, if it is running. -/
def advance (host : Host) (d : Definition) (m : Machine) : Except Refusal Machine :=
  if m.run.workflow ≠ d.name then .error (.foreign m.run.id m.run.workflow d.name)
  else if !m.isRunning then
    .ok (m.log Log.info "Run not advanced" [("status", .text m.run.status.name)])
  else
    match m.moveAll host d m.run.current m.run.current false with
    | .error i => .error (.interrupted i)
    | .ok (moved, m) => .ok ((m.conclude d moved).touch host)

/-- Steps while the run is running, up to a number of them. -/
def steps (host : Host) (d : Definition) : Nat → Machine → Except Refusal Machine
  | 0, m => .ok m
  | n + 1, m => if m.isRunning then do steps host d n (← m.advance host d) else .ok m

/-- Steps until the run is no longer running, and a warning if it still is after the last of them.
-/
def settle (host : Host) (d : Definition) (limit : Int) (m : Machine) : Except Refusal Machine := do
  let m ← m.steps host d limit.toNat
  if m.isRunning then
    pure (m.log Log.warning "Run still running after step limit" [("max_steps", .int limit)])
  else pure m

/-- Why a run cannot be started. -/
inductive StartRefusal where
  | invalid (errors : List Finding)
  | refused (r : Refusal)

def fresh (id workflow initial : String) (bindings : Fields) (time : Timestamp) : Run :=
  ⟨id, workflow, .running, [initial], [], [], bindings, none, time, time⟩

/-- Starts a run of a valid definition and takes it into its first state. `reads`, `judged` and
`invoked` count what the host has been asked before. -/
def start (host : Host) (d : Definition) (bindings : Fields) (id : String)
    (reads judged invoked : Nat) : Except StartRefusal Machine :=
  let report := d.validate
  if report.hasErrors then .error (.invalid report.errors)
  else
    match d.initial? with
    | none =>
      let missing : Finding :=
        ⟨.error, "no_initial", "Workflow has no single initial state", some d.name, none⟩
      .error (.invalid [missing])
    | some initial =>
      let run := fresh id d.name initial.id bindings (host.clock reads)
      let m : Machine := ⟨run, reads + 1, judged, invoked, []⟩
      let m := m.log Log.info "Run started" [("workflow", .text d.name)]
      let m := m.emit .runStarted none []
      (m.advance host d).mapError .refused

/-- A change of status that a run's status does not allow. -/
structure StatusRefusal where
  verb : String
  run : String
  status : Status
  deriving DecidableEq, Repr

def StatusRefusal.message (r : StatusRefusal) : String :=
  s!"Cannot {r.verb} run {r.run}: status is {r.status.name}"

def setStatus (host : Host) (status : Status) (m : Machine) : Machine :=
  (m.mapRun fun r => { r with status := status }).touch host

def suspend (host : Host) (m : Machine) : Except StatusRefusal Machine :=
  if m.run.status = .running then
    .ok ((m.setStatus host .suspended).emit .runSuspended none [])
  else .error ⟨"suspend", m.run.id, m.run.status⟩

def resume (host : Host) (m : Machine) : Except StatusRefusal Machine :=
  if m.run.status = .suspended then
    .ok ((m.setStatus host .running).emit .runResumed none [])
  else .error ⟨"resume", m.run.id, m.run.status⟩

/-- Cancelling a run again changes nothing. -/
def cancel (host : Host) (m : Machine) : Except StatusRefusal Machine :=
  if m.run.status = .cancelled then .ok m
  else if m.run.status.isFinished then .error ⟨"cancel", m.run.id, m.run.status⟩
  else
    .ok (((m.setStatus host .cancelled).log Log.info "Run cancelled" []).emit .runCancelled none [])

end Machine

end Runbook.Workflow
