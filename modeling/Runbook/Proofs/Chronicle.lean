import Runbook.Proofs.Entries
import Runbook.Proofs.Lifecycle

/-!
The chronicle of a run: what its listeners have been told, held against what the run remembers. It
begins with the start, tells of every visit when it begins and when it ends, and closes with the
verdict on the run, after which nothing is told any more. Suspensions and resumptions take turns
in it.
-/
namespace Runbook.Workflow

/-- Two kinds of events take turns, and the first of them begins. -/
def TakeTurns (first second : EventKind) : List EventKind → Prop
  | [] => True
  | kind :: rest => kind = first ∧ TakeTurns second first rest

/-- The states of the events of one kind, in order. -/
def statesTold (kind : EventKind) (events : List Event) : List (Option String) :=
  (events.filter fun e => e.kind = kind).map Event.state

def EventKind.isPause : EventKind → Bool
  | .runSuspended | .runResumed => true
  | .runStarted | .stateEntered | .stateExited | .joinWaiting | .runCompleted | .runFailed
  | .runCancelled => false

def EventKind.isVerdict : EventKind → Bool
  | .runCompleted | .runFailed | .runCancelled => true
  | .runStarted | .stateEntered | .stateExited | .joinWaiting | .runSuspended | .runResumed => false

/-- The verdict that goes with a status. -/
def Status.verdict? : Status → Option EventKind
  | .running | .suspended => none
  | .completed => some .runCompleted
  | .cancelled => some .runCancelled
  | .failed => some .runFailed

/-- The event that tells of a change to a status. -/
def Status.told : Status → EventKind
  | .running => .runResumed
  | .suspended => .runSuspended
  | .completed => .runCompleted
  | .cancelled => .runCancelled
  | .failed => .runFailed

theorem EventKind.eq_told {kind : EventKind} {status : Status}
    (h : kind.status? = some status) : kind = status.told := by
  cases kind <;> cases h <;> rfl

namespace Run

/-- How many visits to a state have ended. -/
def closedVisits (r : Run) (id : String) : Nat :=
  r.history.countP fun v => v.state == id && v.exited.isSome

theorem openVisits_add_closedVisits (r : Run) (id : String) :
    r.openVisits id + r.closedVisits id = r.visitsTo id := by
  unfold openVisits closedVisits visitsTo
  induction r.history with
  | nil => rfl
  | cons v rest ih =>
    rw [List.countP_cons, List.countP_cons, List.map_cons, List.count_cons, ← ih]
    by_cases hstate : v.state = id
    · cases hexited : v.exited <;> simp [Visit.isOpenOf, hstate, hexited] <;> omega
    · simp [Visit.isOpenOf, hstate]

end Run

/-- What has been told of a run agrees with what it remembers. -/
structure Chronicle (events : List Event) (r : Run) : Prop where
  started : ∃ first later, events = first :: later ∧ first.kind = .runStarted ∧
    ∀ e ∈ later, e.kind ≠ .runStarted
  entered : statesTold .stateEntered events = r.history.map fun v => some v.state
  exited : ∀ id, (statesTold .stateExited events).count (some id) = r.closedVisits id
  pauses : TakeTurns .runSuspended .runResumed
    ((events.map Event.kind).filter EventKind.isPause)
  verdict : (events.map Event.kind).filter EventKind.isVerdict = r.status.verdict?.toList
  closing : ∀ earlier e later, events = earlier ++ e :: later → e.kind.isVerdict = true →
    later = []

namespace Status.Course

variable {a b : Status} {events : List Event}

/-- No course leads on from a status that is final. -/
theorem eq_of_isFinished (h : Course a events b) (hfinished : a.isFinished = true) :
    events = [] ∧ b = a := by
  cases h with
  | nil => exact ⟨rfl, rfl⟩
  | moved => cases hfinished
  | changed head => cases head <;> cases hfinished

theorem ne_runStarted (h : Course a events b) : ∀ e ∈ events, e.kind ≠ .runStarted := by
  induction h with
  | nil => nofun
  | moved head _ ih =>
    refine List.forall_mem_cons.mpr ⟨fun hkind => ?_, ih⟩
    rw [hkind] at head
    cases head
  | changed _ news _ ih =>
    refine List.forall_mem_cons.mpr ⟨fun hkind => ?_, ih⟩
    rw [hkind] at news
    cases news

theorem pauses (h : Course a events b) :
    (a = .running → TakeTurns .runSuspended .runResumed
      ((events.map Event.kind).filter EventKind.isPause)) ∧
    (a = .suspended → TakeTurns .runResumed .runSuspended
      ((events.map Event.kind).filter EventKind.isPause)) := by
  induction h with
  | nil => exact ⟨fun _ => trivial, fun _ => trivial⟩
  | @moved c e rest head _ ih =>
    have hsame : e.kind.isPause = false := by
      cases hkind : e.kind <;> simp_all [EventKind.isMove, EventKind.isPause]
    rw [List.map_cons, List.filter_cons_of_neg (by simp [hsame])]
    exact ih
  | @changed a b c e rest head news tail ih =>
    have hkind := EventKind.eq_told news
    have hlast : b.isFinished = true → rest = [] := fun h => (tail.eq_of_isFinished h).1
    cases head with
    | suspended =>
      rw [List.map_cons, hkind, List.filter_cons_of_pos rfl]
      exact ⟨fun _ => ⟨rfl, ih.2 rfl⟩, nofun⟩
    | resumed =>
      rw [List.map_cons, hkind, List.filter_cons_of_pos rfl]
      exact ⟨nofun, fun _ => ⟨rfl, ih.1 rfl⟩⟩
    | completed | failed | cancelled | abandoned =>
      rw [hlast rfl, List.map_cons, hkind]
      exact ⟨fun _ => trivial, fun _ => trivial⟩

/-- The only verdict that is told is the one of the last status. -/
theorem verdicts (h : Course a events b) (hopen : a.isFinished = false) :
    (events.map Event.kind).filter EventKind.isVerdict = b.verdict?.toList := by
  induction h with
  | nil a => cases a <;> first | rfl | cases hopen
  | @moved c e rest head _ ih =>
    have hsame : e.kind.isVerdict = false := by
      cases hkind : e.kind <;> simp_all [EventKind.isMove, EventKind.isVerdict]
    rw [List.map_cons, List.filter_cons_of_neg (by simp [hsame])]
    exact ih rfl
  | @changed a b c e rest head news tail ih =>
    have hkind := EventKind.eq_told news
    cases hfinished : b.isFinished with
    | true =>
      obtain ⟨rfl, rfl⟩ := tail.eq_of_isFinished hfinished
      rw [List.map_cons, hkind]
      cases c <;> rfl
    | false =>
      rw [List.map_cons, hkind, List.filter_cons_of_neg]
      · exact ih hfinished
      · cases b with
        | running | suspended => exact Bool.false_ne_true
        | completed | cancelled | failed => cases hfinished

theorem closing {earlier later : List Event} {e : Event}
    (h : Course a (earlier ++ e :: later) b) (hverdict : e.kind.isVerdict = true) :
    later = [] := by
  induction earlier generalizing a with
  | nil =>
    cases h with
    | moved head => cases hkind : e.kind <;> simp_all [EventKind.isMove, EventKind.isVerdict]
    | @changed _ b _ _ _ _ news tail =>
      refine (tail.eq_of_isFinished ?_).1
      rw [EventKind.eq_told news] at hverdict
      cases b <;> first | rfl | cases hverdict
  | cons first rest ih =>
    cases h with
    | moved _ tail => exact ih tail
    | changed _ _ tail => exact ih tail

end Status.Course

namespace Machine

open Run

variable {host : Host} {d : Definition} {m after : Machine} {s : State} {occupied : List String}

/-- The visits that have been told of, as they begin and as they end, are those of the run. -/
structure Recounted (m : Machine) : Prop where
  entered : statesTold .stateEntered m.journal.events = m.run.history.map fun v => some v.state
  exited : ∀ id, (statesTold .stateExited m.journal.events).count (some id) =
    m.run.closedVisits id

section Recounting

theorem statesTold_append (kind : EventKind) (events more : List Event) :
    statesTold kind (events ++ more) = statesTold kind events ++ statesTold kind more := by
  unfold statesTold
  rw [List.filter_append, List.map_append]

theorem statesTold_eq_nil {kind : EventKind} {events : List Event}
    (h : ∀ e ∈ events, e.kind ≠ kind) : statesTold kind events = [] := by
  unfold statesTold
  rw [List.filter_eq_nil_iff.mpr (by simpa using h)]
  rfl

/-- News of other things, with no change to the visits, does not touch what is recounted. -/
theorem Recounted.keep (h : Recounted m) (more : List Event)
    (hevents : after.journal.events = m.journal.events ++ more)
    (hquiet : ∀ e ∈ more, e.kind ≠ .stateEntered ∧ e.kind ≠ .stateExited)
    (hhistory : after.run.history = m.run.history) : Recounted after := by
  have hentered := statesTold_eq_nil fun e he => (hquiet e he).1
  have hexited := statesTold_eq_nil fun e he => (hquiet e he).2
  refine ⟨?_, fun id => ?_⟩
  · rw [hevents, statesTold_append, hentered, List.append_nil, hhistory]
    exact h.entered
  · rw [hevents, statesTold_append, hexited, List.append_nil, h.exited id]
    unfold closedVisits
    rw [hhistory]

theorem Recounted.alike (h : Recounted m) (ha : Alike m after) : Recounted after :=
  h.keep [] (ha.events.trans (List.append_nil _).symm) nofun ha.history_eq

theorem Recounted.fail (h : Recounted m) (f : Failure) : Recounted (m.fail f) := by
  refine h.keep _ (fail_events m f) ?_ rfl
  intro e he
  rw [List.mem_singleton.mp he]
  exact ⟨nofun, nofun⟩

theorem Recounted.enter (h : Recounted m) (host : Host) (s : State) :
    Recounted (m.enter host s) := by
  obtain ⟨failures, hfailures, hevents⟩ := enter_events host m s
  have hquiet : ∀ kind, kind ≠ .runFailed → statesTold kind failures = [] := by
    intro kind hkind
    refine statesTold_eq_nil fun e he heq => hkind ?_
    rw [← heq, hfailures e he]
  refine ⟨?_, fun id => ?_⟩
  · have hnone : statesTold .stateEntered failures = [] := hquiet _ nofun
    rw [hevents, statesTold_append, h.entered, enter_history, List.map_append,
      ← List.singleton_append, statesTold_append, hnone]
    rfl
  · have hnone : statesTold .stateExited failures = [] := hquiet _ nofun
    have hsame : (m.enter host s).run.closedVisits id = m.run.closedVisits id := by
      unfold closedVisits
      rw [enter_history, List.countP_append]
      simp
    rw [hevents, statesTold_append, ← List.singleton_append, statesTold_append, hnone, hsame,
      ← h.exited id]
    exact congrArg _ (List.append_nil _)

/-- Leaving a state that an author declared ends the visit that is told of, since one is open. -/
theorem Recounted.leave (h : Recounted m) (host : Host)
    (hopen : s.kind.isPseudo = false → 0 < m.run.openVisits s.id) :
    Recounted (m.leave host s) := by
  have hnews := leave_events host m s
  have hstates := leave_states host m s
  cases hpseudo : s.kind.isPseudo with
  | true =>
    rw [hpseudo, if_pos rfl] at hnews
    refine h.keep [] hnews nofun ?_
    rw [leave_run, if_pos hpseudo]
    rfl
  | false =>
    rw [hpseudo, if_neg Bool.false_ne_true] at hnews
    have hsome := congrArg (List.map some) hstates
    rw [List.map_map, List.map_map] at hsome
    refine ⟨?_, fun id => ?_⟩
    · rw [hnews, statesTold_append]
      refine (List.append_nil _).trans (h.entered.trans hsome.symm)
    · rw [hnews, statesTold_append, List.count_append, h.exited id]
      have hvisits := visitsTo_leave host m s id
      have hbefore := openVisits_add_closedVisits m.run id
      have hafter := openVisits_add_closedVisits (m.leave host s).run id
      have hopened : (m.leave host s).run.openVisits id =
          m.run.openVisits id - if id = s.id then 1 else 0 := leave_openVisits hpseudo
      by_cases hid : id = s.id
      · subst hid
        have hpositive := hopen hpseudo
        rw [if_pos rfl] at hopened
        have hone : (statesTold .stateExited
            [⟨.stateExited, m.run.id, m.run.workflow, some s.id, []⟩]).count (some s.id) = 1 := by
          simp [statesTold]
        omega
      · rw [if_neg hid] at hopened
        have hnone : (statesTold .stateExited
            [⟨.stateExited, m.run.id, m.run.workflow, some s.id, []⟩]).count (some id) = 0 := by
          simp [statesTold, Ne.symm hid]
        omega

theorem Recounted.arriveAt (h : Recounted m) (host : Host) (source : String) (t : State) :
    Recounted (m.arriveAt host source t) := by
  have hoccupy : Recounted (m.mapRun fun r => r.occupy t.id) := by
    refine h.keep [] (List.append_nil _).symm nofun ?_
    rw [mapRun_run, occupy_eq]
  rcases arriveAt_cases host source m t with ⟨-, he⟩ | ⟨-, payload, he⟩ | ⟨-, -, he⟩
  · rw [he]
    exact hoccupy
  · rw [he]
    refine h.keep _ (emit_events ..) ?_ ?_
    · intro e hmem
      rw [List.mem_singleton.mp hmem]
      exact ⟨nofun, nofun⟩
    · rw [emit_run, mapRun_run, occupy_eq]
      rfl
  · rw [he]
    exact hoccupy.enter host t

theorem Recounted.turned {moved : Bool} {rest : List String} (h : Recounted m)
    (hs : d.state? s.id = some s) (hrunning : m.isRunning = true)
    (hturned : Turned host d occupied s m moved after)
    (htracked : Tracked d occupied (s.id :: rest) m.run)
    (htallied : ∀ id, d.Names id → Tallied m id) : Recounted after := by
  cases hturned with
  | stays => exact h
  | fires =>
    have hfired : Recounted (m.fire s.id) :=
      h.keep [] ((log_events ..).trans (List.append_nil _).symm) nofun rfl
    exact hfired.enter host s
  | fails hkind hwaits hasked => exact (h.alike hasked.toAlike).fail _
  | @goes asked targets hkind hwaits hasked =>
    have hask := tracked_alike hasked.toAlike htracked
    have hself := hask.rest_occupied s.id (List.mem_cons_self ..)
    have hinside : asked.run.inside s.id = true :=
      inside_of_idle hask.toCoherent hs hself ((hasked.awaits_eq s).trans hwaits)
    have hleft : Recounted (asked.leave host s) := by
      refine (h.alike hasked.toAlike).leave host fun hauthor => ?_
      have htally := (htallied s.id ⟨s, hs, hauthor⟩).alike hasked.toAlike
      rw [htally.openVisits, hinside, Bool.toNat_true]
      omega
    exact arriveAll_keeps (fun t _ before _ hbefore => hbefore.arriveAt host s.id t)
      (hasked.isRunning_leave host s hrunning) hleft

theorem Recounted.conclude (h : Recounted m) (host : Host) (d : Definition) (moved : Bool) :
    Recounted ((m.conclude d moved).touch host) := by
  obtain ⟨verdict, hevents, hverdict⟩ := conclude_events host d moved m
  refine h.keep verdict hevents ?_ conclude_history
  intro e he
  rcases hverdict e he with hkind | hkind <;> (rw [hkind]; exact ⟨nofun, nofun⟩)

theorem Requested.ne_visit {first last : Status} {kind : EventKind}
    (h : Requested first last kind) : kind ≠ .stateEntered ∧ kind ≠ .stateExited := by
  cases h <;> exact ⟨nofun, nofun⟩

theorem Recounted.restated {kind : EventKind} (h : Recounted m) (ha : Restated kind m after) :
    Recounted after := by
  refine h.keep _ ha.events ?_ (by rw [ha.run])
  intro e he
  rw [List.mem_singleton.mp he]
  exact ha.requested.ne_visit

end Recounting

theorem kept_recounted (hsound : d.Sound) : Kept host d fun m => Visited d m ∧ Recounted m :=
  kept_with_visited hsound (fun _ _ ha h => h.alike ha.toAlike) (fun _ _ _ ha h => h.restated ha)
    (fun _ _ _ _ _ _ hs hrunning hturned htracked htallied h =>
      h.turned hs hrunning hturned htracked htallied)
    (fun _ _ moved _ _ h => h.conclude host d moved)

theorem recounted_after (hsound : d.Sound) {bindings : Fields} {id : String}
    {reads judged invoked : Nat}
    (hstart : start host d bindings id reads judged invoked = .ok m) (calls : List Call) :
    Recounted (m.after host d calls) := by
  refine ((kept_recounted hsound).reached ?_ hstart calls).2
  intro before initial hinitial hrun hevents
  refine ⟨visited_fresh hinitial hrun hevents, ?_, fun id => ?_⟩
  · rw [hevents, hrun]
    rfl
  · rw [hevents, hrun]
    rfl

/-- After the event of its start a run takes its course. -/
theorem course_after (hlinked : d.Linked) {bindings : Fields} {id : String}
    {reads judged invoked : Nat}
    (hstart : start host d bindings id reads judged invoked = .ok m) (calls : List Call) :
    ∃ later, (m.after host d calls).journal.events =
        ⟨.runStarted, id, d.name, none, []⟩ :: later ∧
      Status.running.Course later (m.after host d calls).run.status := by
  obtain ⟨initial, -, hadvance⟩ := exists_begun hstart
  have hfirst : Unfolded _ (leftBy _ ((begun host d bindings id reads judged invoked
      initial).advance host d)) := Unfolded.advance hlinked _
  rw [hadvance] at hfirst
  obtain ⟨later, hevents, hcourse⟩ := hfirst.trans (Unfolded.reached hlinked host m calls)
  rw [begun_events] at hevents
  exact ⟨later, hevents, hcourse⟩

/-- Whatever is asked of a run of a valid definition, what has been told of it agrees with what it
remembers. -/
theorem chronicle_after {text : String} {name : Option String} {d : Definition}
    (hparse : Definition.parse text name = .ok d) (hv : d.validate.hasErrors = false)
    {host : Host} {bindings : Fields} {id : String} {reads judged invoked : Nat} {m : Machine}
    (hstart : start host d bindings id reads judged invoked = .ok m) (calls : List Call) :
    Chronicle (m.after host d calls).journal.events (m.after host d calls).run := by
  obtain ⟨later, hevents, hcourse⟩ := course_after (Definition.linked_of_valid hv) hstart calls
  have hrecounted := recounted_after (Definition.sound_of_parse hparse hv) hstart calls
  refine ⟨⟨_, later, hevents, rfl, hcourse.ne_runStarted⟩, hrecounted.entered, hrecounted.exited,
    ?_, ?_, ?_⟩
  · rw [hevents]
    exact hcourse.pauses.1 rfl
  · rw [hevents]
    exact hcourse.verdicts rfl
  · intro earlier e rest hsplit hverdict
    cases earlier with
    | nil =>
      rw [hevents] at hsplit
      obtain ⟨rfl, -⟩ := List.cons.inj hsplit
      cases hverdict
    | cons first earlier =>
      rw [hevents] at hsplit
      rw [(List.cons.inj hsplit).2] at hcourse
      exact hcourse.closing hverdict

/-- A run that is suspended twice over, resumed and driven to its end. -/
theorem chronicle_after_uneven_branches :
    ∃ d m, Definition.parse (Text.unlines unevenBranches) none = .ok d ∧
      d.validate.hasErrors = false ∧ start quietHost d [] "run-1" 0 0 0 = .ok m ∧
      let final := m.after quietHost d [.advance, .suspend, .suspend, .resume, .settle 10, .cancel]
      Chronicle final.journal.events final.run ∧ final.run.status = .completed ∧
      (final.journal.events.map Event.kind).filter EventKind.isPause =
        [.runSuspended, .runResumed] ∧
      statesTold .stateEntered final.journal.events =
        [some "F", some "A", some "B", some "C", some "J"] := by
  obtain ⟨d, m, hparse, hv, hstart, htest⟩ := exists_started unevenBranches []
    (fun d m =>
      let final := m.after quietHost d [.advance, .suspend, .suspend, .resume, .settle 10, .cancel]
      decide (final.run.status = .completed ∧
        (final.journal.events.map Event.kind).filter EventKind.isPause =
          [.runSuspended, .runResumed] ∧
        statesTold .stateEntered final.journal.events =
          [some "F", some "A", some "B", some "C", some "J"]))
    (by decide) (by decide +kernel)
  obtain ⟨hcompleted, hpauses, hentered⟩ := of_decide_eq_true htest
  exact ⟨d, m, hparse, hv, hstart, chronicle_after hparse hv hstart _, hcompleted, hpauses,
    hentered⟩

end Machine

end Runbook.Workflow
