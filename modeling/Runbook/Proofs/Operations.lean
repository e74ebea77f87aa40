import Runbook.Workflow.Machine

/-!
What each operation of a machine does to its run and to the events it has told. Asking guards and
logging changes nothing of a run. Actions change variables and may end in a failure, and nothing
else; entering, leaving and arriving change the occupied states, the waiting joins and the visits
in the ways stated here.
-/
namespace Runbook.Workflow.Machine

/-- The second machine has the same run as the first but for its variables, and has told the same
events. -/
structure Alike (m m' : Machine) : Prop where
  run : m'.run = { m.run with bindings := m'.run.bindings }
  events : m'.journal.events = m.journal.events

namespace Alike

theorem refl (m : Machine) : Alike m m := ⟨rfl, rfl⟩

theorem trans {a b c : Machine} (hab : Alike a b) (hbc : Alike b c) : Alike a c := by
  refine ⟨?_, hbc.events.trans hab.events⟩
  rw [hbc.run, hab.run]

variable {m m' : Machine}

theorem workflow_eq (h : Alike m m') : m'.run.workflow = m.run.workflow := by rw [h.run]

theorem current_eq (h : Alike m m') : m'.run.current = m.run.current := by rw [h.run]

theorem pending_eq (h : Alike m m') : m'.run.pending = m.run.pending := by rw [h.run]

theorem history_eq (h : Alike m m') : m'.run.history = m.run.history := by rw [h.run]

theorem status_eq (h : Alike m m') : m'.run.status = m.run.status := by rw [h.run]

theorem failure_eq (h : Alike m m') : m'.run.failure = m.run.failure := by rw [h.run]

theorem isRunning_eq (h : Alike m m') : m'.isRunning = m.isRunning := by
  unfold isRunning Run.isRunning
  rw [h.status_eq]

theorem awaits_eq (h : Alike m m') (s : State) : m'.awaits s = m.awaits s := by
  unfold awaits
  rw [h.pending_eq]

end Alike

/-- Between the two machines guards were asked or something was logged, and that is all. -/
structure Unmoved (m m' : Machine) : Prop extends Alike m m' where
  bindings : m'.run.bindings = m.run.bindings
  invocations : m'.journal.invocations = m.journal.invocations
  reads : m'.reads = m.reads
  invoked : m'.invoked = m.invoked

namespace Unmoved

theorem refl (m : Machine) : Unmoved m m := ⟨Alike.refl m, rfl, rfl, rfl, rfl⟩

theorem trans {a b c : Machine} (hab : Unmoved a b) (hbc : Unmoved b c) : Unmoved a c :=
  ⟨hab.toAlike.trans hbc.toAlike, hbc.bindings.trans hab.bindings,
    hbc.invocations.trans hab.invocations, hbc.reads.trans hab.reads,
    hbc.invoked.trans hab.invoked⟩

theorem run_eq {m m' : Machine} (h : Unmoved m m') : m'.run = m.run := by
  rw [h.run, h.bindings]

end Unmoved

theorem events_append (a b : Journal) :
    Journal.events (a ++ b) = Journal.events a ++ Journal.events b := List.filterMap_append ..

theorem events_entries (effects : Effects) : effects.entries.events = [] := by
  induction effects with
  | nil => rfl
  | cons e rest ih => cases e <;> exact ih

theorem invocations_append (a b : Journal) :
    Journal.invocations (a ++ b) = Journal.invocations a ++ Journal.invocations b :=
  List.filterMap_append ..

theorem invocations_entries (effects : Effects) : effects.entries.invocations = [] := by
  induction effects with
  | nil => rfl
  | cons e rest ih => cases e <;> exact ih

variable (host : Host) (m : Machine)

@[simp] theorem note_run (entries : Journal) : (m.note entries).run = m.run := rfl

@[simp] theorem emit_run (kind : EventKind) (state : Option String) (payload : Fields) :
    (m.emit kind state payload).run = m.run := rfl

@[simp] theorem log_run (level : Int) (message : String) (extra : Fields) :
    (m.log level message extra).run = m.run := rfl

@[simp] theorem mapRun_run (f : Run → Run) : (m.mapRun f).run = f m.run := rfl

@[simp] theorem mapRun_journal (f : Run → Run) : (m.mapRun f).journal = m.journal := rfl

@[simp] theorem emit_events (kind : EventKind) (state : Option String) (payload : Fields) :
    (m.emit kind state payload).journal.events =
      m.journal.events ++ [⟨kind, m.run.id, m.run.workflow, state, payload⟩] :=
  events_append ..

@[simp] theorem log_events (level : Int) (message : String) (extra : Fields) :
    (m.log level message extra).journal.events = m.journal.events := by
  unfold log note
  rw [events_append]
  exact List.append_nil _

@[simp] theorem emit_invocations (kind : EventKind) (state : Option String) (payload : Fields) :
    (m.emit kind state payload).journal.invocations = m.journal.invocations := by
  unfold emit note
  rw [invocations_append]
  exact List.append_nil _

@[simp] theorem log_invocations (level : Int) (message : String) (extra : Fields) :
    (m.log level message extra).journal.invocations = m.journal.invocations := by
  unfold log note
  rw [invocations_append]
  exact List.append_nil _

theorem unmoved_log (level : Int) (message : String) (extra : Fields) :
    Unmoved m (m.log level message extra) :=
  ⟨⟨rfl, log_events ..⟩, rfl, log_invocations .., rfl, rfl⟩

@[simp] theorem fail_run (f : Failure) :
    (m.fail f).run = { m.run with status := .failed, failure := some f } := rfl

theorem fail_events (f : Failure) :
    (m.fail f).journal.events = m.journal.events ++
      [⟨.runFailed, m.run.id, m.run.workflow, f.state, [("reason", .text f.text)]⟩] := by
  unfold fail
  simp

theorem not_isRunning_fail (f : Failure) : (m.fail f).isRunning = false := rfl

theorem isRunning_iff : m.isRunning = true ↔ m.run.status = .running := by
  simp [isRunning, Run.isRunning]

section Acting

/-- Actions only change variables, and end in a failure when one of them fails. -/
theorem act_cases (state : String) (actions : List Action) :
    ∃ after, Alike m after ∧ (act host state actions m = after ∨
      ∃ message, act host state actions m = after.fail (.actionFailed state message)) := by
  induction actions generalizing m with
  | nil => exact ⟨m, Alike.refl m, Or.inl rfl⟩
  | cons a rest ih =>
    unfold act
    simp only
    generalize hresponse : host.invoke m.invoked a _ = response
    have hdone : Alike m (({ m with invoked := m.invoked + 1 }.mapRun fun r =>
        { r with bindings := response.bindings }).note
          (.invoked state a :: response.effects.entries)) := by
      refine ⟨rfl, ?_⟩
      unfold note
      rw [events_append]
      have hquiet : Journal.events (.invoked state a :: response.effects.entries) = [] :=
        events_entries response.effects
      rw [hquiet]
      exact List.append_nil _
    split
    · rename_i message _
      exact ⟨_, hdone, Or.inr ⟨message, rfl⟩⟩
    · obtain ⟨after, hafter, hcases⟩ := ih _
      exact ⟨after, hdone.trans hafter, hcases⟩

/-- A machine that has opened its visit to a state and told of it. -/
def opened (s : State) : Machine :=
  ((m.readClock host).2.mapRun fun r => r.openVisit s.id (host.clock m.reads)).emit
    .stateEntered (some s.id) []

theorem enter_cases (s : State) :
    ∃ after, Alike (m.opened host s) after ∧ (m.enter host s = after ∨
      ∃ message, m.enter host s = after.fail (.actionFailed s.id message)) :=
  act_cases host (m.opened host s) s.id s.actions

variable (s : State)

theorem enter_current : (m.enter host s).run.current = m.run.current := by
  obtain ⟨after, hafter, he | ⟨message, he⟩⟩ := m.enter_cases host s <;>
    (rw [he]; exact hafter.current_eq)

theorem enter_pending : (m.enter host s).run.pending = m.run.pending := by
  obtain ⟨after, hafter, he | ⟨message, he⟩⟩ := m.enter_cases host s <;>
    (rw [he]; exact hafter.pending_eq)

theorem enter_workflow : (m.enter host s).run.workflow = m.run.workflow := by
  obtain ⟨after, hafter, he | ⟨message, he⟩⟩ := m.enter_cases host s <;>
    (rw [he]; exact hafter.workflow_eq)

theorem enter_history :
    (m.enter host s).run.history = m.run.history ++ [⟨s.id, host.clock m.reads, none⟩] := by
  obtain ⟨after, hafter, he | ⟨message, he⟩⟩ := m.enter_cases host s <;>
    (rw [he]; exact hafter.history_eq)

/-- Entering a state leaves the status as it is, or an action of the state has failed. -/
theorem enter_status :
    ((m.enter host s).run.status = m.run.status ∧
      (m.enter host s).run.failure = m.run.failure) ∨
    ∃ message, (m.enter host s).run.status = .failed ∧
      (m.enter host s).run.failure = some (.actionFailed s.id message) := by
  obtain ⟨after, hafter, he | ⟨message, he⟩⟩ := m.enter_cases host s
  · left
    rw [he]
    exact ⟨hafter.status_eq, hafter.failure_eq⟩
  · right
    rw [he]
    exact ⟨message, rfl, rfl⟩

/-- Entering a state tells of it, and then at most of a failure. -/
theorem enter_events :
    ∃ failures : List Event, (∀ e ∈ failures, e.kind = .runFailed) ∧
      (m.enter host s).journal.events = m.journal.events ++
        ⟨.stateEntered, m.run.id, m.run.workflow, some s.id, []⟩ :: failures := by
  obtain ⟨after, hafter, he | ⟨message, he⟩⟩ := m.enter_cases host s
  · refine ⟨[], nofun, ?_⟩
    rw [he, hafter.events]
    exact emit_events ..
  · refine ⟨[⟨.runFailed, after.run.id, after.run.workflow, some s.id,
      [("reason", .text (Failure.actionFailed s.id message).text)]⟩], ?_, ?_⟩
    · intro e hmem
      rw [List.mem_singleton.mp hmem]
    · rw [he, fail_events, hafter.events]
      exact (congrArg (· ++ _) (emit_events ..)).trans (List.append_assoc ..)

end Acting

section Leaving

variable (s : State)

theorem closeFirst_of_none_open {id : String} {time : Timestamp} {visits : List Visit}
    (h : ∀ v ∈ visits, (v.state == id && v.exited.isNone) = false) :
    Run.closeFirst id time visits = visits := by
  induction visits with
  | nil => rfl
  | cons v rest ih =>
    have hv := h v (List.mem_cons_self ..)
    have hrest := ih fun w hw => h w (List.mem_cons_of_mem _ hw)
    simp [Run.closeFirst, hv, hrest]

theorem closeVisit_of_not_hasOpenVisit {r : Run} {id : String} (time : Timestamp)
    (h : r.hasOpenVisit id = false) : r.closeVisit id time = r := by
  have hnone : ∀ v ∈ r.history.reverse, (v.state == id && v.exited.isNone) = false := by
    intro v hv
    rw [Run.hasOpenVisit, List.any_eq_false] at h
    exact Bool.eq_false_iff.mpr (h v (List.mem_reverse.mp hv))
  unfold Run.closeVisit
  rw [closeFirst_of_none_open hnone, List.reverse_reverse]

/-- Leaving a state gives it up and closes the latest open visit to it; a pseudostate has none. -/
theorem leave_run :
    (m.leave host s).run = if s.kind.isPseudo then m.run.vacate s.id
      else (m.run.vacate s.id).closeVisit s.id (host.clock m.reads) := by
  unfold leave
  by_cases hp : s.kind.isPseudo
  · simp [hp]
  · simp only [hp, Bool.false_eq_true, if_false]
    by_cases ho : (m.run.vacate s.id).hasOpenVisit s.id
    · simp only [mapRun_run, ho, if_true, emit_run]
      rfl
    · simp only [mapRun_run, ho, Bool.false_eq_true, if_false, emit_run]
      exact (closeVisit_of_not_hasOpenVisit _ (by simpa using ho)).symm

theorem leave_current : (m.leave host s).run.current = m.run.current.erase s.id := by
  rw [leave_run]
  split <;> rfl

theorem leave_pending : (m.leave host s).run.pending = m.run.pending := by
  rw [leave_run]
  split <;> rfl

theorem leave_workflow : (m.leave host s).run.workflow = m.run.workflow := by
  rw [leave_run]
  split <;> rfl

theorem leave_status : (m.leave host s).run.status = m.run.status := by
  rw [leave_run]
  split <;> rfl

theorem leave_isRunning : (m.leave host s).isRunning = m.isRunning := by
  unfold isRunning Run.isRunning
  rw [leave_status]

variable {m} in
theorem Alike.isRunning_leave {asked : Machine} (h : Alike m asked) (host : Host) (s : State)
    (hrunning : m.isRunning = true) : (asked.leave host s).isRunning = true :=
  (leave_isRunning host asked s).trans (h.isRunning_eq.trans hrunning)

theorem leave_failure : (m.leave host s).run.failure = m.run.failure := by
  rw [leave_run]
  split <;> rfl

/-- Leaving a state asks neither guards nor actions. -/
theorem leave_counts :
    (m.leave host s).judged = m.judged ∧ (m.leave host s).invoked = m.invoked := by
  unfold leave
  split
  · exact ⟨rfl, rfl⟩
  · simp only
    split <;> exact ⟨rfl, rfl⟩

theorem leave_events :
    (m.leave host s).journal.events = m.journal.events ++
      if s.kind.isPseudo then []
      else [⟨.stateExited, m.run.id, m.run.workflow, some s.id, []⟩] := by
  unfold leave
  by_cases hp : s.kind.isPseudo
  · simp [hp]
  · by_cases ho : (m.run.vacate s.id).hasOpenVisit s.id
    · simp only [hp, mapRun_run, ho, if_true, emit_events, Bool.false_eq_true, if_false]
      rfl
    · simp only [hp, mapRun_run, ho, emit_events, Bool.false_eq_true, if_false]
      rfl

end Leaving

end Runbook.Workflow.Machine
