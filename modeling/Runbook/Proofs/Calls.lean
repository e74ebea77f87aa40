import Runbook.Proofs.Turns

/-!
Calls upon a run after its start. A refused call leaves the run as it is, and a step that breaks
off leaves it as it was at that moment. A property that steps and changes of status keep, and
that does not depend on variables or logs, holds after any calls if it holds before them.
-/
namespace Runbook.Workflow.Machine

/-- A request made of a run. -/
inductive Call where
  | advance
  | settle (limit : Int)
  | suspend
  | resume
  | cancel
  deriving DecidableEq, Repr

/-- The machine that a step leaves behind, whatever comes of it. -/
def leftBy (m : Machine) : Except Refusal Machine → Machine
  | .ok after => after
  | .error (.foreign ..) => m
  | .error (.interrupted i) => i.machine

/-- The machine that a change of status leaves behind. -/
def unlessRefused (m : Machine) : Except StatusRefusal Machine → Machine
  | .ok after => after
  | .error _ => m

def call (host : Host) (d : Definition) (m : Machine) : Call → Machine
  | .advance => m.leftBy (m.advance host d)
  | .settle limit => m.leftBy (m.settle host d limit)
  | .suspend => m.unlessRefused (m.suspend host)
  | .resume => m.unlessRefused (m.resume host)
  | .cancel => m.unlessRefused (m.cancel host)

/-- The machine after some calls, one after another. -/
def after (host : Host) (d : Definition) (m : Machine) (calls : List Call) : Machine :=
  calls.foldl (call host d) m

theorem after_append (host : Host) (d : Definition) (m : Machine) (calls more : List Call) :
    m.after host d (calls ++ more) = (m.after host d calls).after host d more :=
  List.foldl_append ..

/-- The changes of status that are made on request, with the events that tell of them. -/
inductive Requested : Status → Status → EventKind → Prop
  | suspended : Requested .running .suspended .runSuspended
  | resumed : Requested .suspended .running .runResumed
  | cancelled {status : Status} (h : status.isFinished = false) :
      Requested status .cancelled .runCancelled

theorem Requested.unfinished {before after : Status} {kind : EventKind}
    (h : Requested before after kind) : before.isFinished = false := by
  cases h with
  | suspended => rfl
  | resumed => rfl
  | cancelled h => exact h

theorem Requested.ne_verdict {before after : Status} {kind : EventKind}
    (h : Requested before after kind) : after ≠ .failed ∧ after ≠ .completed := by
  cases h with
  | suspended => exact ⟨nofun, nofun⟩
  | resumed => exact ⟨nofun, nofun⟩
  | cancelled => exact ⟨nofun, nofun⟩

/-- The second machine has changed its status on request and told of it. -/
structure Restated (kind : EventKind) (m after : Machine) : Prop where
  requested : Requested m.run.status after.run.status kind
  run : after.run = { m.run with status := after.run.status, updated := after.run.updated }
  events : after.journal.events =
    m.journal.events ++ [⟨kind, m.run.id, m.run.workflow, none, []⟩]
  invocations : after.journal.invocations = m.journal.invocations
  invoked : after.invoked = m.invoked

variable {host : Host} {d : Definition} {m : Machine}

theorem unlessRefused_suspend :
    m.unlessRefused (m.suspend host) = m ∨
      ∃ kind, Restated kind m (m.unlessRefused (m.suspend host)) := by
  unfold suspend
  split
  · rename_i h
    exact Or.inr ⟨.runSuspended, by rw [h]; exact .suspended, rfl, emit_events ..,
      emit_invocations .., rfl⟩
  · exact Or.inl rfl

theorem unlessRefused_resume :
    m.unlessRefused (m.resume host) = m ∨
      ∃ kind, Restated kind m (m.unlessRefused (m.resume host)) := by
  unfold resume
  split
  · rename_i h
    exact Or.inr ⟨.runResumed, by rw [h]; exact .resumed, rfl, emit_events ..,
      emit_invocations .., rfl⟩
  · exact Or.inl rfl

theorem unlessRefused_cancel :
    m.unlessRefused (m.cancel host) = m ∨
      ∃ kind, Restated kind m (m.unlessRefused (m.cancel host)) := by
  unfold cancel
  split
  · exact Or.inl rfl
  · split
    · exact Or.inl rfl
    · rename_i h
      refine Or.inr ⟨.runCancelled, .cancelled (Bool.eq_false_iff.mpr h), rfl, ?_, ?_, rfl⟩
      · exact (emit_events ..).trans (congrArg (· ++ _) (log_events ..))
      · exact (emit_invocations ..).trans (log_invocations ..)

theorem workflow_turned {s : State} {occupied : List String} {moved : Bool} {after : Machine}
    (hrunning : m.isRunning = true) (hturned : Turned host d occupied s m moved after) :
    after.run.workflow = m.run.workflow := by
  cases hturned with
  | stays => rfl
  | fires => exact enter_workflow ..
  | fails hkind hwaits hasked => exact hasked.workflow_eq
  | @goes asked targets hkind hwaits hasked =>
    have hleft := (leave_workflow host asked s).trans hasked.workflow_eq
    exact arriveAll_keeps (P := fun after => after.run.workflow = m.run.workflow)
      (fun _ _ _ _ hbefore => (arriveAt_workflow ..).trans hbefore)
      (hasked.isRunning_leave host s hrunning) hleft

theorem conclude_workflow (d : Definition) (moved : Bool) (m : Machine) :
    (m.conclude d moved).run.workflow = m.run.workflow := by
  unfold conclude
  split
  · rfl
  · split
    · rfl
    · split <;> rfl

/-- A step is taken, or refused to a run of another workflow, or broken off by the judge. -/
theorem advance_cases (hlinked : d.Linked) (host : Host) (m : Machine) :
    (∃ after, m.advance host d = .ok after ∧ after.run.workflow = m.run.workflow ∧
      m.run.workflow = d.name) ∨
    (m.run.workflow ≠ d.name ∧
      m.advance host d = .error (.foreign m.run.id m.run.workflow d.name)) ∨
    ∃ i, m.advance host d = .error (.interrupted i) ∧ host.Interrupts i.why := by
  unfold Machine.advance
  by_cases hworkflow : m.run.workflow = d.name
  · rw [if_neg (not_not.mpr hworkflow)]
    split
    · exact Or.inl ⟨_, rfl, rfl, hworkflow⟩
    · have hturns := moveAll_holds host m.run.current hlinked
        (P := fun _ after => after.run.workflow = m.run.workflow) (fun _ _ _ _ _ hm => hm)
        (fun _ _ _ ha hm => ha.workflow_eq.trans hm)
        (fun _ _ _ _ _ _ hgoing hturned hm => (workflow_turned hgoing hturned).trans hm)
        m.run.current false rfl
      rcases hturns with ⟨moved, last, -, he, hlast, -⟩ | ⟨why, last, -, he, hwhy, -⟩
      · rw [he]
        exact Or.inl ⟨_, rfl, (conclude_workflow ..).trans hlast, hworkflow⟩
      · rw [he]
        exact Or.inr (Or.inr ⟨_, rfl, hwhy⟩)
  · exact Or.inr (Or.inl ⟨hworkflow, if_pos hworkflow⟩)

theorem steps_of_stopped (host : Host) (d : Definition) (n : Nat) (h : m.isRunning = false) :
    m.steps host d n = .ok m := by
  cases n with
  | zero => rfl
  | succ n => simp [steps, h]

/-- A run that is not running is not settled any further. -/
theorem settle_of_stopped (host : Host) (d : Definition) (limit : Int)
    (h : m.isRunning = false) : m.settle host d limit = .ok m := by
  simp [settle, steps_of_stopped host d limit.toNat h, bind, Except.bind, h, pure, Except.pure]

/-- What every call keeps. -/
structure Kept (host : Host) (d : Definition) (Q : Machine → Prop) : Prop where
  unmoved : ∀ m after, Unmoved m after → Q m → Q after
  restated : ∀ kind m after, Restated kind m after → Q m → Q after
  advanced : ∀ m, Q m → Q (m.leftBy (m.advance host d))

namespace Kept

variable {Q : Machine → Prop}

theorem steps (h : Kept host d Q) (n : Nat) (hm : Q m) :
    Q (m.leftBy (Machine.steps host d n m)) := by
  -- a step that is refused inside is traced back to the machine before all of them
  suffices hall : ∀ first, Q first → Q (first.leftBy (Machine.steps host d n m)) from hall m hm
  induction n generalizing m with
  | zero => exact fun _ _ => hm
  | succ n ih =>
    intro first hfirst
    unfold Machine.steps
    split
    · have hstep := h.advanced m hm
      cases hadvance : m.advance host d with
      | ok next =>
        rw [hadvance] at hstep
        exact ih hstep first hfirst
      | error refusal =>
        rw [hadvance] at hstep
        cases refusal with
        | foreign => exact hfirst
        | interrupted i => exact hstep
    · exact hm

theorem settle (h : Kept host d Q) (limit : Int) (hm : Q m) :
    Q (m.leftBy (m.settle host d limit)) := by
  have hsteps := h.steps limit.toNat hm
  unfold Machine.settle
  cases hresult : Machine.steps host d limit.toNat m with
  | ok final =>
    rw [hresult] at hsteps
    simp only [bind, Except.bind]
    split
    · exact h.unmoved final _ (unmoved_log ..) hsteps
    · exact hsteps
  | error refusal =>
    rw [hresult] at hsteps
    exact hsteps

theorem call (h : Kept host d Q) (c : Call) (hm : Q m) : Q (m.call host d c) := by
  have hrestated : ∀ after, (after = m ∨ ∃ kind, Restated kind m after) → Q after := by
    intro after hcase
    rcases hcase with rfl | ⟨kind, hafter⟩
    · exact hm
    · exact h.restated kind m after hafter hm
  cases c with
  | advance => exact h.advanced m hm
  | settle limit => exact h.settle limit hm
  | suspend => exact hrestated _ unlessRefused_suspend
  | resume => exact hrestated _ unlessRefused_resume
  | cancel => exact hrestated _ unlessRefused_cancel

theorem after (h : Kept host d Q) (calls : List Call) (hm : Q m) : Q (m.after host d calls) := by
  unfold Machine.after
  induction calls generalizing m with
  | nil => exact hm
  | cons c rest ih => exact ih (h.call c hm)

end Kept

/-- What all turns of a step keep holds at its end, which makes good what holds between turns only.
-/
theorem leftBy_advance (hv : d.validate.hasErrors = false) {P : List String → Machine → Prop}
    {Q : Machine → Prop} (hbegin : m.isRunning = true → P m.run.current m)
    (hdeclared : ∀ ids m, P ids m → ∀ id ∈ ids, ∃ s, d.state? id = some s)
    (hunmoved : ∀ ids m asked, Unmoved m asked → P ids m → P ids asked)
    (hturn : ∀ s rest before moved after, d.state? s.id = some s → before.isRunning = true →
      Turned host d m.run.current s before moved after → P (s.id :: rest) before → P rest after)
    (hconclude : ∀ rest moved m, (m.isRunning = true → rest = []) → P rest m →
      Q ((m.conclude d moved).touch host))
    (hbroken : ∀ rest m, (∃ id ∈ rest, isTerminal d id = false) → P rest m → Q m)
    (hidle : ∀ after, Unmoved m after → Q after) : Q (m.leftBy (m.advance host d)) := by
  unfold advance
  split
  · exact hidle m (Unmoved.refl m)
  · by_cases hrunning : m.isRunning = true
    · simp only [hrunning, Bool.not_true, Bool.false_eq_true, if_false]
      rcases moveAll_keeps host m.run.current hv hdeclared hunmoved hturn false
          (hbegin hrunning) with
        ⟨moved, after, rest, he, hafter, hrest⟩ | ⟨why, after, rest, he, -, hafter, hopen⟩
      · rw [he]
        exact hconclude rest moved after hrest hafter
      · rw [he]
        exact hbroken rest after hopen hafter
    · simp only [hrunning, Bool.not_false, if_true]
      exact hidle _ (unmoved_log ..)

/-- A step keeps what its turns keep, if its end makes good what only holds between turns. -/
theorem leftBy_advance_keeps (hv : d.validate.hasErrors = false)
    {P : List String → List String → Machine → Prop} {Q : Machine → Prop}
    (hbegin : ∀ m, m.isRunning = true → Q m → P m.run.current m.run.current m)
    (hdeclared : ∀ occupied ids m, P occupied ids m → ∀ id ∈ ids, ∃ s, d.state? id = some s)
    (hunmoved : ∀ occupied ids m asked, Unmoved m asked →
      P occupied ids m → P occupied ids asked)
    (hturn : ∀ occupied s rest m moved after, d.state? s.id = some s → m.isRunning = true →
      Turned host d occupied s m moved after → P occupied (s.id :: rest) m →
      P occupied rest after)
    (hconclude : ∀ occupied rest moved m, (m.isRunning = true → rest = []) →
      P occupied rest m → Q ((m.conclude d moved).touch host))
    (hbroken : ∀ occupied rest m, (∃ id ∈ rest, isTerminal d id = false) →
      P occupied rest m → Q m)
    (hlog : ∀ m after, Unmoved m after → Q m → Q after)
    (hm : Q m) : Q (m.leftBy (m.advance host d)) :=
  leftBy_advance hv (fun hrunning => hbegin m hrunning hm) (hdeclared m.run.current)
    (hunmoved m.run.current) (hturn m.run.current) (hconclude m.run.current)
    (hbroken m.run.current) fun after ha => hlog m after ha hm

/-- What every turn and the end of a step keep, a step of any run keeps. -/
theorem leftBy_advance_holds (hlinked : d.Linked) {Q : Machine → Prop}
    (hunmoved : ∀ m after, Unmoved m after → Q m → Q after)
    (hunknown : ∀ id m, m.isRunning = true → Q m → Q (m.fail (.unknownState id)))
    (hturn : ∀ occupied s m moved after, d.state? s.id = some s → m.isRunning = true →
      Turned host d occupied s m moved after → Q m → Q after)
    (hconclude : ∀ moved m, Q m → Q ((m.conclude d moved).touch host)) (hm : Q m) :
    Q (m.leftBy (m.advance host d)) := by
  unfold advance
  split
  · exact hm
  · split
    · exact hunmoved m _ (unmoved_log ..) hm
    · have hturns := moveAll_holds host m.run.current hlinked (P := fun _ m => Q m)
        (fun id _ m _ hrunning => hunknown id m hrunning) (fun _ => hunmoved)
        (fun s _ => hturn m.run.current s) m.run.current false hm
      rcases hturns with ⟨moved, last, -, he, hlast, -⟩ | ⟨why, last, -, he, -, hlast, -⟩
      · rw [he]
        exact hconclude moved last hlast
      · rw [he]
        exact hlast

/-- A machine with a run that has just been made, in the initial state. -/
def begun (host : Host) (d : Definition) (bindings : Fields) (id : String)
    (reads judged invoked : Nat) (initial : State) : Machine :=
  let run := fresh id d.name initial.id bindings (host.clock reads)
  let m : Machine := ⟨run, reads + 1, judged, invoked, []⟩
  (m.log Log.info "Run started" [("workflow", .text d.name)]).emit .runStarted none []

section Begun

variable {bindings : Fields} {id : String} {reads judged invoked : Nat} {initial : State}

theorem begun_events :
    (begun host d bindings id reads judged invoked initial).journal.events =
      [⟨.runStarted, id, d.name, none, []⟩] :=
  (emit_events ..).trans (congrArg (· ++ _) (log_events ..))

theorem begun_invocations :
    (begun host d bindings id reads judged invoked initial).journal.invocations = [] :=
  (emit_invocations ..).trans (log_invocations ..)

/-- A start takes one step from a run that has just been made. -/
theorem exists_begun (h : start host d bindings id reads judged invoked = .ok m) :
    ∃ initial, d.initial? = some initial ∧
      (begun host d bindings id reads judged invoked initial).advance host d = .ok m := by
  unfold start at h
  simp only at h
  split at h
  · cases h
  · split at h
    · cases h
    · rename_i initial hinitial
      exact ⟨initial, hinitial, mapError_eq_ok_iff.mp h⟩

theorem start_cases (h : start host d bindings id reads judged invoked = .ok m) :
    ∃ (initial : State) (before : Machine), d.initial? = some initial ∧
      before.run = fresh id d.name initial.id bindings (host.clock reads) ∧
      before.journal.events = [⟨.runStarted, id, d.name, none, []⟩] ∧
      before.advance host d = .ok m := by
  obtain ⟨initial, hinitial, hadvance⟩ := exists_begun h
  exact ⟨initial, _, hinitial, rfl, begun_events, hadvance⟩

/-- What holds of every run that has just been made and is kept holds after a start and any calls.
-/
theorem Kept.begun {Q : Machine → Prop} (h : Kept host d Q)
    (hbegun : ∀ initial, d.initial? = some initial →
      Q (begun host d bindings id reads judged invoked initial))
    (hstart : start host d bindings id reads judged invoked = .ok m) (calls : List Call) :
    Q (m.after host d calls) := by
  obtain ⟨initial, hinitial, hadvance⟩ := exists_begun hstart
  have hstep := h.advanced _ (hbegun initial hinitial)
  rw [hadvance] at hstep
  exact h.after calls hstep

theorem Kept.reached {Q : Machine → Prop} (h : Kept host d Q)
    (hfresh : ∀ before initial, d.initial? = some initial →
      before.run = fresh id d.name initial.id bindings (host.clock reads) →
      before.journal.events = [⟨.runStarted, id, d.name, none, []⟩] → Q before)
    (hstart : start host d bindings id reads judged invoked = .ok m) (calls : List Call) :
    Q (m.after host d calls) :=
  h.begun (fun initial hinitial => hfresh _ initial hinitial rfl begun_events) hstart calls

end Begun

end Runbook.Workflow.Machine
