import Runbook.Proofs.Orderly

/-!
The life of a run. Its status changes only along the edges of the life cycle, and every change is
told by an event, also where a step gives its verdict in the middle of the turns. A call that is
refused is refused for how it finds the run, and leaves it so. A run that has finished is not
changed by any later call.
-/
namespace Runbook.Workflow

namespace Status

/-- The edges of the life cycle. -/
inductive Yields : Status → Status → Prop
  | suspended : Yields .running .suspended
  | completed : Yields .running .completed
  | failed : Yields .running .failed
  | cancelled : Yields .running .cancelled
  | resumed : Yields .suspended .running
  | abandoned : Yields .suspended .cancelled

/-- A way along the edges from a status, with the statuses that follow, to the last of them. -/
inductive Path : Status → List Status → Status → Prop
  | nil (a : Status) : Path a [] a
  | cons {a b c : Status} {rest : List Status} (head : a.Yields b) (tail : Path b rest c) :
      Path a (b :: rest) c

theorem Path.single {a b : Status} (h : a.Yields b) : Path a [b] b := .cons h (.nil b)

theorem Path.append {a b c : Status} {first second : List Status} (h : Path a first b)
    (h' : Path b second c) : Path a (first ++ second) c := by
  induction h with
  | nil => exact h'
  | cons head _ ih => exact .cons head (ih h')

end Status

/-- The status that an event tells of, if it is news of one. -/
def EventKind.status? : EventKind → Option Status
  | .runSuspended => some .suspended
  | .runResumed => some .running
  | .runCompleted => some .completed
  | .runFailed => some .failed
  | .runCancelled => some .cancelled
  | .runStarted | .stateEntered | .stateExited | .joinWaiting => none

/-- The changes of status that events tell of. -/
def statuses (events : List Event) : List Status := events.filterMap fun e => e.kind.status?

/-- A running run has moved, and its status is still the same. -/
def EventKind.isMove : EventKind → Bool
  | .stateEntered | .stateExited | .joinWaiting => true
  | .runStarted | .runCompleted | .runFailed | .runSuspended | .runResumed | .runCancelled => false

theorem EventKind.status?_of_isMove {kind : EventKind} (h : kind.isMove = true) :
    kind.status? = none := by
  cases kind <;> first | rfl | cases h

namespace Status

/-- What is told on the way from a status to another: the moves of a run while it is running, and
every edge that is taken. -/
inductive Course : Status → List Event → Status → Prop
  | nil (a : Status) : Course a [] a
  | moved {c : Status} {e : Event} {rest : List Event} (head : e.kind.isMove = true)
      (tail : Course .running rest c) : Course .running (e :: rest) c
  | changed {a b c : Status} {e : Event} {rest : List Event} (head : a.Yields b)
      (news : e.kind.status? = some b) (tail : Course b rest c) : Course a (e :: rest) c

theorem Course.single {a b : Status} {e : Event} (head : a.Yields b)
    (news : e.kind.status? = some b) : Course a [e] b := .changed head news (.nil b)

theorem Course.moves {events : List Event} (h : ∀ e ∈ events, e.kind.isMove = true) :
    Course .running events .running := by
  induction events with
  | nil => exact .nil _
  | cons e rest ih =>
    have htail := ih fun other hother => h other (List.mem_cons_of_mem _ hother)
    exact .moved (h e (List.mem_cons_self ..)) htail

theorem Course.append {a b c : Status} {first second : List Event} (h : Course a first b)
    (h' : Course b second c) : Course a (first ++ second) c := by
  induction h with
  | nil => exact h'
  | moved head _ ih => exact .moved head (ih h')
  | changed head news _ ih => exact .changed head news (ih h')

theorem Course.path {a b : Status} {events : List Event} (h : Course a events b) :
    a.Path (statuses events) b := by
  induction h with
  | nil a => exact .nil a
  | moved head _ ih =>
    simp only [statuses, List.filterMap_cons, EventKind.status?_of_isMove head]
    exact ih
  | changed head news _ ih =>
    simp only [statuses, List.filterMap_cons, news]
    exact .cons head ih

end Status

namespace Machine

variable {host : Host} {d : Definition} {m next : Machine} {s : State} {occupied : List String}

/-- The status has gone along edges of the life cycle between two machines, as the events tell. -/
def Told (m next : Machine) : Prop :=
  ∃ news, next.journal.events = m.journal.events ++ news ∧
    m.run.status.Path (statuses news) next.run.status

/-- Between two machines a run has taken its course, as the events tell. -/
def Unfolded (m next : Machine) : Prop :=
  ∃ news, next.journal.events = m.journal.events ++ news ∧
    m.run.status.Course news next.run.status

namespace Unfolded

theorem refl (m : Machine) : Unfolded m m := ⟨[], (List.append_nil _).symm, .nil _⟩

theorem trans {a b c : Machine} (hab : Unfolded a b) (hbc : Unfolded b c) : Unfolded a c := by
  obtain ⟨first, hfirst, hcourse⟩ := hab
  obtain ⟨second, hsecond, hcourse'⟩ := hbc
  exact ⟨first ++ second, by rw [hsecond, hfirst, List.append_assoc], hcourse.append hcourse'⟩

/-- Nothing is told where the status stays as it is. -/
theorem silent (hevents : next.journal.events = m.journal.events)
    (hstatus : next.run.status = m.run.status) : Unfolded m next := by
  refine ⟨[], hevents.trans (List.append_nil _).symm, ?_⟩
  rw [hstatus]
  exact .nil _

theorem alike (h : Alike m next) : Unfolded m next := silent h.events h.status_eq

/-- Only moves are told while a run goes on. -/
theorem moves (hrunning : m.isRunning = true) (news : List Event)
    (hevents : next.journal.events = m.journal.events ++ news)
    (hmoves : ∀ e ∈ news, e.kind.isMove = true) (hstatus : next.run.status = m.run.status) :
    Unfolded m next := by
  refine ⟨news, hevents, ?_⟩
  rw [hstatus, (isRunning_iff m).mp hrunning]
  exact .moves hmoves

theorem fail (hrunning : m.isRunning = true) (f : Failure) : Unfolded m (m.fail f) := by
  refine ⟨_, fail_events m f, ?_⟩
  rw [(isRunning_iff m).mp hrunning]
  exact .single .failed rfl

theorem enter (hrunning : m.isRunning = true) (host : Host) (s : State) :
    Unfolded m (m.enter host s) := by
  have hopened : Unfolded m (m.opened host s) := by
    refine moves hrunning _ (emit_events ..) ?_ rfl
    intro e he
    rw [List.mem_singleton.mp he]
    rfl
  obtain ⟨acted, hacted, he | ⟨message, he⟩⟩ := m.enter_cases host s
  · rw [he]
    exact hopened.trans (alike hacted)
  · rw [he]
    have hgoing : acted.isRunning = true := hacted.isRunning_eq.trans hrunning
    exact (hopened.trans (alike hacted)).trans (fail hgoing _)

theorem leave (hrunning : m.isRunning = true) (host : Host) (s : State) :
    Unfolded m (m.leave host s) := by
  refine moves hrunning _ (leave_events host m s) ?_ (leave_status ..)
  intro e he
  split at he
  · cases he
  · rw [List.mem_singleton.mp he]
    rfl

theorem arriveAt (hrunning : m.isRunning = true) (host : Host) (source : String) (t : State) :
    Unfolded m (m.arriveAt host source t) := by
  have hoccupy : Unfolded m (m.mapRun fun r => r.occupy t.id) := by
    refine silent rfl ?_
    rw [mapRun_run, Run.occupy_eq]
  rcases arriveAt_cases host source m t with ⟨-, he⟩ | ⟨-, payload, he⟩ | ⟨-, -, he⟩
  · rw [he]
    exact hoccupy
  · rw [he]
    refine moves hrunning _ (emit_events ..) ?_ ?_
    · intro e he
      rw [List.mem_singleton.mp he]
      rfl
    · rw [emit_run, mapRun_run, Run.occupy_eq]
      rfl
  · rw [he]
    have hgoing := (isRunning_occupied m t.id).trans hrunning
    exact hoccupy.trans (enter hgoing host t)

theorem turned {moved : Bool} (hrunning : m.isRunning = true)
    (hturned : Turned host d occupied s m moved next) : Unfolded m next := by
  cases hturned with
  | stays => exact refl m
  | fires =>
    have hfired : Unfolded m (m.fire s.id) := silent (log_events ..) rfl
    have hgoing : (m.fire s.id).isRunning = true := hrunning
    exact hfired.trans (enter hgoing host s)
  | fails hkind hwaits hasked =>
    exact (alike hasked.toAlike).trans (fail (hasked.isRunning_eq.trans hrunning) _)
  | @goes asked targets hkind hwaits hasked =>
    have hgoing : asked.isRunning = true := hasked.isRunning_eq.trans hrunning
    have hleft : Unfolded m (asked.leave host s) :=
      (alike hasked.toAlike).trans (leave hgoing host s)
    refine arriveAll_keeps (P := Unfolded m) ?_ (hasked.isRunning_leave host s hrunning) hleft
    intro t _ before hgoing hbefore
    exact hbefore.trans (arriveAt hgoing host s.id t)

theorem conclude (host : Host) (d : Definition) (moved : Bool) (m : Machine) :
    Unfolded m ((m.conclude d moved).touch host) := by
  have htouched : ∀ ended : Machine, Unfolded m ended → Unfolded m (ended.touch host) := by
    intro ended hended
    exact hended.trans (silent rfl rfl)
  apply htouched
  unfold Machine.conclude
  split
  · exact refl m
  · rename_i hstopped
    have hrunning : m.isRunning = true := by simpa using hstopped
    split
    · have hevents : m.complete.journal.events = m.journal.events ++
          [⟨.runCompleted, m.run.id, m.run.workflow, none, []⟩] :=
        (emit_events ..).trans (congrArg (· ++ _) (log_events ..))
      refine ⟨_, hevents, ?_⟩
      rw [(isRunning_iff m).mp hrunning]
      exact .single .completed rfl
    · split
      · exact fail hrunning _
      · exact refl m

/-- A step takes its course even where it is broken off. -/
theorem advance (hlinked : d.Linked) (m : Machine) :
    Unfolded m (m.leftBy (m.advance host d)) :=
  leftBy_advance_holds hlinked (fun _ _ ha h => h.trans (alike ha.toAlike))
    (fun _ _ hrunning h => h.trans (fail hrunning _))
    (fun _ _ _ _ _ _ hrunning hturned h => h.trans (turned hrunning hturned))
    (fun moved m h => h.trans (conclude host d moved m)) (refl m)

theorem restated {kind : EventKind} (h : Restated kind m next) : Unfolded m next := by
  refine ⟨_, h.events, ?_⟩
  have hrequested := h.requested
  revert hrequested
  generalize m.run.status = before
  generalize next.run.status = last
  intro hrequested
  cases hrequested with
  | suspended => exact .single .suspended rfl
  | resumed => exact .single .resumed rfl
  | cancelled hopen =>
    cases before with
    | running => exact .single .cancelled rfl
    | suspended => exact .single .abandoned rfl
    | completed | cancelled | failed => cases hopen

theorem kept (hlinked : d.Linked) (first : Machine) : Kept host d (Unfolded first) where
  unmoved := fun _ _ ha h => h.trans (alike ha.toAlike)
  restated := fun _ _ _ ha h => h.trans (restated ha)
  advanced := fun m h => h.trans (advance hlinked m)

theorem reached (hlinked : d.Linked) (host : Host) (m : Machine) (calls : List Call) :
    Unfolded m (m.after host d calls) := (kept hlinked m).after calls (refl m)

end Unfolded

theorem Told.reached (hlinked : d.Linked) (host : Host) (m : Machine) (calls : List Call) :
    Told m (m.after host d calls) := by
  obtain ⟨news, hevents, hcourse⟩ := Unfolded.reached hlinked host m calls
  exact ⟨news, hevents, hcourse.path⟩

/-- What keeps a call from being carried out. -/
inductive Obstacle where
  | step (refusal : Refusal)
  | status (refusal : StatusRefusal)

/-- The machine that a call leads to, or what keeps it from being carried out. -/
def attempt (host : Host) (d : Definition) (m : Machine) : Call → Except Obstacle Machine
  | .advance => (m.advance host d).mapError .step
  | .settle limit => (m.settle host d limit).mapError .step
  | .suspend => (m.suspend host).mapError .status
  | .resume => (m.resume host).mapError .status
  | .cancel => (m.cancel host).mapError .status

/-- A call is refused where a step is wanted of another workflow's run, or a change of status that
the status of the run does not allow. -/
def Refused (d : Definition) (m : Machine) : Call → Prop
  | .advance => m.run.workflow ≠ d.name
  | .settle limit => m.isRunning = true ∧ 0 < limit ∧ m.run.workflow ≠ d.name
  | .suspend => m.run.status ≠ .running
  | .resume => m.run.status ≠ .suspended
  | .cancel => m.run.status = .completed ∨ m.run.status = .failed

/-- What a refused call meets. -/
def refusal (d : Definition) (m : Machine) : Call → Obstacle
  | .advance | .settle _ => .step (.foreign m.run.id m.run.workflow d.name)
  | .suspend => .status ⟨"suspend", m.run.id, m.run.status⟩
  | .resume => .status ⟨"resume", m.run.id, m.run.status⟩
  | .cancel => .status ⟨"cancel", m.run.id, m.run.status⟩

section Refusing

/-- Steps that follow one that was taken are not refused, since the run stays with its workflow. -/
theorem steps_error (hlinked : d.Linked) {n : Nat} {r : Refusal}
    (h : steps host d n m = .error r) :
    (∃ i, r = .interrupted i ∧ host.Interrupts i.why) ∨
      m.isRunning = true ∧ 0 < n ∧ m.run.workflow ≠ d.name := by
  induction n generalizing m with
  | zero => cases h
  | succ n ih =>
    unfold steps at h
    split at h
    · rename_i hrunning
      rcases advance_cases hlinked host m with
        ⟨next, he, hnext, hworkflow⟩ | ⟨hworkflow, -⟩ | ⟨i, he, hwhy⟩
      · rw [he] at h
        rcases ih h with hbroken | ⟨-, -, hother⟩
        · exact Or.inl hbroken
        · exact absurd (hnext.trans hworkflow) hother
      · exact Or.inr ⟨hrunning, Nat.succ_pos n, hworkflow⟩
      · rw [he] at h
        cases h
        exact Or.inl ⟨i, rfl, hwhy⟩
    · cases h

theorem settle_error (hlinked : d.Linked) {limit : Int} {r : Refusal}
    (h : m.settle host d limit = .error r) :
    (∃ i, r = .interrupted i ∧ host.Interrupts i.why) ∨
      m.isRunning = true ∧ 0 < limit ∧ m.run.workflow ≠ d.name := by
  unfold settle at h
  cases hsteps : steps host d limit.toNat m with
  | ok last =>
    rw [hsteps] at h
    simp only [bind, Except.bind] at h
    split at h <;> cases h
  | error early =>
    rw [hsteps] at h
    cases h
    rcases steps_error hlinked hsteps with hbroken | ⟨hrunning, hpos, hworkflow⟩
    · exact Or.inl hbroken
    · exact Or.inr ⟨hrunning, by omega, hworkflow⟩

/-- A call that is not carried out is refused, or the judge of guards has broken it off. -/
theorem attempt_error (hlinked : d.Linked) {c : Call} {o : Obstacle}
    (h : m.attempt host d c = .error o) :
    (∃ i, o = .step (.interrupted i) ∧ host.Interrupts i.why) ∨ Refused d m c := by
  cases c with
  | advance =>
    obtain ⟨r, he, rfl⟩ := exists_of_mapError_eq_error h
    rcases advance_cases hlinked host m with ⟨next, he', -⟩ | ⟨hworkflow, -⟩ | ⟨i, he', hwhy⟩
    · rw [he] at he'
      cases he'
    · exact Or.inr hworkflow
    · rw [he] at he'
      cases he'
      exact Or.inl ⟨i, rfl, hwhy⟩
  | settle limit =>
    obtain ⟨r, he, rfl⟩ := exists_of_mapError_eq_error h
    rcases settle_error hlinked he with ⟨i, rfl, hwhy⟩ | hrefused
    · exact Or.inl ⟨i, rfl, hwhy⟩
    · exact Or.inr hrefused
  | suspend =>
    obtain ⟨r, he, -⟩ := exists_of_mapError_eq_error h
    right
    intro hstatus
    rw [suspend, if_pos hstatus] at he
    cases he
  | resume =>
    obtain ⟨r, he, -⟩ := exists_of_mapError_eq_error h
    right
    intro hstatus
    rw [resume, if_pos hstatus] at he
    cases he
  | cancel =>
    obtain ⟨r, he, -⟩ := exists_of_mapError_eq_error h
    right
    unfold cancel at he
    split at he
    · cases he
    · rename_i hother
      split at he
      · rename_i hfinished
        cases hstatus : m.run.status with
        | running | suspended => simp [hstatus, Status.isFinished] at hfinished
        | completed => exact Or.inl hstatus
        | failed => exact Or.inr hstatus
        | cancelled => exact absurd hstatus hother
      · cases he

theorem attempt_of_refused {c : Call} (h : Refused d m c) :
    m.attempt host d c = .error (m.refusal d c) := by
  have hforeign : m.run.workflow ≠ d.name →
      m.advance host d = .error (.foreign m.run.id m.run.workflow d.name) := by
    intro hworkflow
    rw [advance, if_pos hworkflow]
  cases c with
  | advance =>
    change (m.advance host d).mapError _ = _
    rw [hforeign h]
    rfl
  | settle limit =>
    obtain ⟨hrunning, hpos, hworkflow⟩ := h
    obtain ⟨n, hn⟩ : ∃ n, limit.toNat = n + 1 := ⟨limit.toNat - 1, by omega⟩
    change (m.settle host d limit).mapError _ = _
    rw [settle, hn, steps, if_pos hrunning, hforeign hworkflow]
    rfl
  | suspend =>
    change (m.suspend host).mapError _ = _
    rw [suspend, if_neg h]
    rfl
  | resume =>
    change (m.resume host).mapError _ = _
    rw [resume, if_neg h]
    rfl
  | cancel =>
    have hother : m.run.status ≠ .cancelled := by
      rcases h with h | h <;> (rw [h]; decide)
    have hfinished : m.run.status.isFinished = true := by
      rcases h with h | h <;> (rw [h]; rfl)
    change (m.cancel host).mapError _ = _
    rw [cancel, if_neg hother, if_pos hfinished]
    rfl

/-- A refused call leaves the machine as it was. -/
theorem call_of_refused {c : Call} (h : Refused d m c) : m.call host d c = m := by
  have hattempt : m.attempt host d c = .error (m.refusal d c) := attempt_of_refused h
  cases c with
  | advance | settle =>
    obtain ⟨r, he, hr⟩ := exists_of_mapError_eq_error hattempt
    cases hr
    change m.leftBy _ = m
    rw [he]
    rfl
  | suspend | resume | cancel =>
    obtain ⟨r, he, -⟩ := exists_of_mapError_eq_error hattempt
    change m.unlessRefused _ = m
    rw [he]
    rfl

end Refusing

section Finished

/-- Once a run has finished, no call changes it or tells of anything. -/
theorem call_of_isFinished (host : Host) (d : Definition) (h : m.run.status.isFinished = true)
    (c : Call) :
    (m.call host d c).run = m.run ∧ (m.call host d c).journal.events = m.journal.events := by
  have hstopped : m.isRunning = false := by
    rw [Bool.eq_false_iff, Ne, isRunning_iff]
    intro hrunning
    rw [hrunning] at h
    cases h
  have hrefused : Refused d m c →
      (m.call host d c).run = m.run ∧ (m.call host d c).journal.events = m.journal.events := by
    intro hrefused
    rw [call_of_refused hrefused]
    exact ⟨rfl, rfl⟩
  cases c with
  | advance =>
    change (m.leftBy (m.advance host d)).run = _ ∧ (m.leftBy (m.advance host d)).journal.events = _
    unfold advance
    split
    · exact ⟨rfl, rfl⟩
    · simp only [hstopped, Bool.not_false, if_true]
      exact ⟨rfl, log_events ..⟩
  | settle limit =>
    change (m.leftBy (m.settle host d limit)).run = _ ∧
      (m.leftBy (m.settle host d limit)).journal.events = _
    rw [settle_of_stopped host d limit hstopped]
    exact ⟨rfl, rfl⟩
  | suspend =>
    apply hrefused
    intro hstatus
    rw [hstatus] at h
    cases h
  | resume =>
    apply hrefused
    intro hstatus
    rw [hstatus] at h
    cases h
  | cancel =>
    by_cases hstatus : m.run.status = .cancelled
    · change (m.unlessRefused (m.cancel host)).run = _ ∧
        (m.unlessRefused (m.cancel host)).journal.events = _
      rw [cancel, if_pos hstatus]
      exact ⟨rfl, rfl⟩
    · apply hrefused
      cases hend : m.run.status with
      | running | suspended =>
        rw [hend] at h
        cases h
      | completed => exact Or.inl hend
      | failed => exact Or.inr hend
      | cancelled => exact absurd hend hstatus

theorem after_of_isFinished (h : m.run.status.isFinished = true) (calls : List Call) :
    (m.after host d calls).run = m.run ∧
      (m.after host d calls).journal.events = m.journal.events := by
  unfold after
  induction calls generalizing m with
  | nil => exact ⟨rfl, rfl⟩
  | cons c rest ih =>
    obtain ⟨hrun, hevents⟩ := call_of_isFinished host d h c
    obtain ⟨hrun', hevents'⟩ := ih (by rw [hrun]; exact h)
    exact ⟨hrun'.trans hrun, hevents'.trans hevents⟩

end Finished

/-- Whatever run is called upon, and however often, its status only goes along the edges of the life
cycle, as the events tell. A call that is refused is one that the run as it was does not admit, and
changes nothing; nothing else keeps a call from being carried out but a guard whose judging was
broken off. A run that has finished stays as it is for good. -/
theorem status_path_after (hlinked : d.Linked) (host : Host) (m : Machine) (calls : List Call) :
    let final := m.after host d calls
    (∃ news, final.journal.events = m.journal.events ++ news ∧
      m.run.status.Path (statuses news) final.run.status) ∧
    (∀ c o, final.attempt host d c = .error o →
      (∃ i, o = .step (.interrupted i) ∧ host.Interrupts i.why) ∨ Refused d final c) ∧
    (∀ c, Refused d final c → final.attempt host d c = .error (final.refusal d c) ∧
      final.call host d c = final) ∧
    (final.run.status.isFinished = true → ∀ more, (final.after host d more).run = final.run ∧
      (final.after host d more).journal.events = final.journal.events) := by
  intro final
  refine ⟨Told.reached hlinked host m calls, ?_, ?_, ?_⟩
  · intro c o herror
    exact attempt_error hlinked herror
  · intro c hrefused
    exact ⟨attempt_of_refused hrefused, call_of_refused hrefused⟩
  · intro hfinished more
    exact after_of_isFinished hfinished more

/-- A run that is suspended, asked to go on twice over, and then driven to its end. -/
theorem status_path_after_uneven_branches :
    ∃ d m, Definition.parse (Text.unlines unevenBranches) none = .ok d ∧ d.Linked ∧
      start quietHost d [] "run-1" 0 0 0 = .ok m ∧
      let final := m.after quietHost d [.suspend, .advance, .resume, .resume, .settle 10]
      final.run.status = .completed ∧
      (∃ news, final.journal.events = m.journal.events ++ news ∧
        statuses news = [.suspended, .running, .completed] ∧
        m.run.status.Path (statuses news) final.run.status) ∧
      Refused d final .resume ∧ final.call quietHost d .resume = final ∧
      ∀ more, (final.after quietHost d more).run = final.run := by
  obtain ⟨d, m, hparse, hv, hstart, htest⟩ := exists_started unevenBranches []
    (fun d m =>
      let final := m.after quietHost d [.suspend, .advance, .resume, .resume, .settle 10]
      decide (final.run.status = .completed ∧
        statuses (final.journal.events.drop m.journal.events.length) =
          [.suspended, .running, .completed]))
    (by decide) (by decide +kernel)
  obtain ⟨hcompleted, hnews⟩ := of_decide_eq_true htest
  have hlinked := Definition.linked_of_valid hv
  obtain ⟨⟨news, hevents, hpath⟩, -, hrefused, hfinished⟩ :=
    status_path_after hlinked quietHost m [.suspend, .advance, .resume, .resume, .settle 10]
  have hresume := hrefused .resume fun h => by
    rw [hcompleted] at h
    cases h
  rw [hevents, List.drop_left] at hnews
  refine ⟨d, m, hparse, hlinked, hstart, hcompleted, ⟨news, hevents, hnews, hpath⟩, ?_,
    hresume.2, fun more => (hfinished ?_ more).1⟩
  · intro h
    rw [hcompleted] at h
    cases h
  · rw [hcompleted]
    rfl

end Machine

end Runbook.Workflow
