import Runbook.Proofs.Turns

/-!
Runs that differ in their times only. What a step does to a run depends on no time, so two runs
that agree on everything else, and whose hosts have been asked as often, agree after the same steps
too, whether a step is taken, refused or broken off.
-/
namespace Runbook.Workflow

namespace Visit

/-- Which state a visit is to, and whether it has ended. -/
def shape (v : Visit) : String × Bool := (v.state, v.exited.isSome)

end Visit

/-- What is known of a run apart from times. -/
structure Snapshot where
  id : String
  workflow : String
  status : Status
  current : List String
  pending : List (String × List String)
  visits : List (String × Bool)
  bindings : Fields
  failure : Option Failure

namespace Run

def snapshot (r : Run) : Snapshot :=
  ⟨r.id, r.workflow, r.status, r.current, r.pending, r.history.map Visit.shape, r.bindings,
    r.failure⟩

variable {r r' : Run}

theorem snapshot_occupy (h : r.snapshot = r'.snapshot) (id : String) :
    (r.occupy id).snapshot = (r'.occupy id).snapshot := by
  have hcurrent : r.current = r'.current := congrArg Snapshot.current h
  unfold occupy
  rw [hcurrent]
  split
  · exact h
  · exact congrArg (fun s => { s with current := r'.current ++ [id] }) h

theorem snapshot_awaitJoin (h : r.snapshot = r'.snapshot) (join source : String) :
    (r.awaitJoin join source).snapshot = (r'.awaitJoin join source).snapshot :=
  congrArg (fun s =>
    let arrived := (Keyed.get? join s.pending).getD []
    { s with pending := Keyed.set join (arrived ++ [source]) s.pending }) h

theorem snapshot_vacate (h : r.snapshot = r'.snapshot) (id : String) :
    (r.vacate id).snapshot = (r'.vacate id).snapshot :=
  congrArg (fun s => { s with current := s.current.erase id }) h

theorem snapshot_openVisit (h : r.snapshot = r'.snapshot) (id : String)
    (time time' : Timestamp) :
    (r.openVisit id time).snapshot = (r'.openVisit id time').snapshot := by
  have hopened : ∀ (r : Run) (time : Timestamp), (r.openVisit id time).snapshot =
      { r.snapshot with visits := r.snapshot.visits ++ [(id, false)] } := by
    intro r time
    simp [snapshot, openVisit, Visit.shape]
  rw [hopened, hopened, h]

/-- The same visit is closed where visits differ in their times only. -/
theorem map_shape_closeFirst (id : String) (time time' : Timestamp) {visits visits' : List Visit}
    (h : visits.map Visit.shape = visits'.map Visit.shape) :
    (closeFirst id time visits).map Visit.shape =
      (closeFirst id time' visits').map Visit.shape := by
  induction visits generalizing visits' with
  | nil =>
    cases visits' with
    | nil => rfl
    | cons => cases h
  | cons v rest ih =>
    cases visits' with
    | nil => cases h
    | cons v' rest' =>
      obtain ⟨hfirst, hrest⟩ := List.cons.inj h
      obtain ⟨hstate, hexited⟩ := Prod.mk.inj hfirst
      have hopen : v.exited.isNone = v'.exited.isNone := by
        rw [← Option.not_isSome, ← Option.not_isSome, hexited]
      unfold closeFirst
      rw [hstate, hopen]
      split
      · rw [List.map_cons, List.map_cons, hrest]
        rfl
      · rw [List.map_cons, List.map_cons, ih hrest, hfirst]

theorem snapshot_closeVisit (h : r.snapshot = r'.snapshot) (id : String)
    (time time' : Timestamp) :
    (r.closeVisit id time).snapshot = (r'.closeVisit id time').snapshot := by
  have hvisits : r.history.reverse.map Visit.shape = r'.history.reverse.map Visit.shape := by
    rw [List.map_reverse, List.map_reverse]
    exact congrArg (fun s => s.visits.reverse) h
  have hclosed : (r.closeVisit id time).history.map Visit.shape =
      (r'.closeVisit id time').history.map Visit.shape := by
    unfold closeVisit
    rw [List.map_reverse, List.map_reverse, map_shape_closeFirst id time time' hvisits]
  have hsame : ∀ visits : List (String × Bool), { r.snapshot with visits := visits } =
      { r'.snapshot with visits := visits } := fun visits => by rw [h]
  exact (hsame _).trans (congrArg (fun visits => { r'.snapshot with visits := visits }) hclosed)

end Run

namespace Machine

open Run

/-- Two machines differ in times and in their journals only. -/
structure Twin (m m' : Machine) : Prop where
  run : m.run.snapshot = m'.run.snapshot
  judged : m.judged = m'.judged
  invoked : m.invoked = m'.invoked

namespace Twin

theorem refl (m : Machine) : Twin m m := ⟨rfl, rfl, rfl⟩

variable {m m' m'' : Machine}

theorem symm (h : Twin m m') : Twin m' m := ⟨h.run.symm, h.judged.symm, h.invoked.symm⟩

theorem trans (h : Twin m m') (h' : Twin m' m'') : Twin m m'' :=
  ⟨h.run.trans h'.run, h.judged.trans h'.judged, h.invoked.trans h'.invoked⟩

theorem id_eq (h : Twin m m') : m.run.id = m'.run.id := congrArg Snapshot.id h.run

theorem workflow_eq (h : Twin m m') : m.run.workflow = m'.run.workflow :=
  congrArg Snapshot.workflow h.run

theorem status_eq (h : Twin m m') : m.run.status = m'.run.status :=
  congrArg Snapshot.status h.run

theorem current_eq (h : Twin m m') : m.run.current = m'.run.current :=
  congrArg Snapshot.current h.run

theorem pending_eq (h : Twin m m') : m.run.pending = m'.run.pending :=
  congrArg Snapshot.pending h.run

theorem bindings_eq (h : Twin m m') : m.run.bindings = m'.run.bindings :=
  congrArg Snapshot.bindings h.run

theorem isRunning_eq (h : Twin m m') : m.isRunning = m'.isRunning := by
  unfold isRunning Run.isRunning
  rw [h.status_eq]

theorem awaits_eq (h : Twin m m') (s : State) : m.awaits s = m'.awaits s := by
  unfold awaits
  rw [h.pending_eq]

theorem fail (h : Twin m m') (f : Failure) : Twin (m.fail f) (m'.fail f) :=
  ⟨congrArg (fun s => { s with status := .failed, failure := some f }) h.run, h.judged,
    h.invoked⟩

theorem complete (h : Twin m m') : Twin m.complete m'.complete :=
  ⟨congrArg (fun s => { s with status := .completed, current := [endId] }) h.run, h.judged,
    h.invoked⟩

theorem touch (h : Twin m m') (host : Host) : Twin (m.touch host) (m'.touch host) :=
  ⟨h.run, h.judged, h.invoked⟩

theorem act (h : Twin m m') (host : Host) (state : String) (actions : List Action) :
    Twin (m.act host state actions) (m'.act host state actions) := by
  induction actions generalizing m m' with
  | nil => exact h
  | cons a rest ih =>
    unfold Machine.act
    simp only [h.id_eq, h.workflow_eq, h.bindings_eq, h.invoked]
    generalize host.invoke m'.invoked a _ = response
    have hdone := congrArg (fun s => { s with bindings := response.bindings }) h.run
    cases response.outcome.fault? with
    | some message =>
      refine fail ?_ _
      exact ⟨hdone, h.judged, rfl⟩
    | none =>
      refine ih ?_
      exact ⟨hdone, h.judged, rfl⟩

theorem enter (h : Twin m m') (host : Host) (s : State) :
    Twin (m.enter host s) (m'.enter host s) := by
  have hopened : Twin (m.opened host s) (m'.opened host s) :=
    ⟨snapshot_openVisit h.run s.id _ _, h.judged, h.invoked⟩
  exact hopened.act host s.id s.actions

theorem leave (h : Twin m m') (host : Host) (s : State) :
    Twin (m.leave host s) (m'.leave host s) := by
  obtain ⟨hjudged, hinvoked⟩ := leave_counts host m s
  obtain ⟨hjudged', hinvoked'⟩ := leave_counts host m' s
  refine ⟨?_, ?_, ?_⟩
  · have hvacated := snapshot_vacate h.run s.id
    rw [leave_run, leave_run]
    split
    · exact hvacated
    · exact snapshot_closeVisit hvacated s.id _ _
  · rw [hjudged, hjudged', h.judged]
  · rw [hinvoked, hinvoked', h.invoked]

theorem arriveAt (h : Twin m m') (host : Host) (source : String) (s : State) :
    Twin (m.arriveAt host source s) (m'.arriveAt host source s) := by
  have hoccupied : Twin (m.mapRun fun r => r.occupy s.id) (m'.mapRun fun r => r.occupy s.id) :=
    ⟨snapshot_occupy h.run s.id, h.judged, h.invoked⟩
  unfold Machine.arriveAt
  split
  · exact hoccupied
  · exact ⟨snapshot_occupy (snapshot_awaitJoin h.run s.id source) s.id, h.judged, h.invoked⟩
  · exact hoccupied.enter host s

theorem fire (h : Twin m m') (join : String) : Twin (m.fire join) (m'.fire join) :=
  ⟨congrArg (fun s => { s with pending := Keyed.erase join s.pending }) h.run, h.judged,
    h.invoked⟩

theorem conclude (h : Twin m m') (d : Definition) (moved : Bool) :
    Twin (m.conclude d moved) (m'.conclude d moved) := by
  unfold Machine.conclude
  rw [h.isRunning_eq, h.current_eq]
  split
  · exact h
  · split
    · exact h.complete
    · split
      · exact h.fail _
      · exact h

end Twin

/-- Two computations come to ends that are related, or break off for the same reason. -/
inductive Matched {α : Type} (R : α → α → Prop) :
    Except Interrupted α → Except Interrupted α → Prop
  | ok {a a' : α} (h : R a a') : Matched R (.ok a) (.ok a')
  | error {why : Interruption} {m m' : Machine} (h : Twin m m') :
      Matched R (.error ⟨why, m⟩) (.error ⟨why, m'⟩)

/-- The same comes with two machines that are twins. -/
def Paired {α : Type} (p p' : α × Machine) : Prop := p.1 = p'.1 ∧ Twin p.2 p'.2

theorem Matched.bind {α β : Type} {R : α → α → Prop} {S : β → β → Prop}
    {x x' : Except Interrupted α} {f f' : α → Except Interrupted β} (h : Matched R x x')
    (hf : ∀ a a', R a a' → Matched S (f a) (f' a')) : Matched S (x >>= f) (x' >>= f') := by
  cases h with
  | ok h => exact hf _ _ h
  | error h => exact .error h

section Steps

variable {m m' : Machine} {host : Host} {d : Definition}

theorem Twin.arrive (h : Twin m m') (source : String) (targets : List String) :
    Matched Twin (m.arrive host d source targets) (m'.arrive host d source targets) := by
  induction targets generalizing m m' with
  | nil => exact .ok h
  | cons target rest ih =>
    unfold Machine.arrive
    cases d.state? target with
    | none => exact .error h
    | some s =>
      have harrived := h.arriveAt host source s
      simp only [harrived.isRunning_eq]
      split
      · exact ih harrived
      · exact .ok harrived

theorem Twin.select (h : Twin m m') (state : String) (fallback : Option String)
    (exits : List Transition) :
    Matched Paired (select host state fallback exits m) (select host state fallback exits m') := by
  induction exits generalizing fallback m m' with
  | nil =>
    cases fallback with
    | none => exact .ok ⟨rfl, h.fail _⟩
    | some target => exact .ok ⟨rfl, h⟩
  | cons t rest ih =>
    rw [select_cons, select_cons]
    cases t.guard with
    | none => exact ih h _
    | some guard =>
      simp only [h.judged, h.bindings_eq]
      have hasked : Twin { m with judged := m'.judged + 1 } { m' with judged := m'.judged + 1 } :=
        ⟨h.run, rfl, h.invoked⟩
      rcases host.guard m'.judged guard m'.run.bindings with (message | why) | (_ | _)
      · exact .ok ⟨rfl, hasked.fail _⟩
      · exact .error hasked
      · exact ih hasked fallback
      · exact .ok ⟨rfl, hasked⟩

theorem Twin.targets (h : Twin m m') (s : State) :
    Matched Paired (m.targets host d s) (m'.targets host d s) := by
  unfold Machine.targets
  split
  · exact .ok ⟨rfl, h⟩
  · refine (h.select s.id none (d.outgoing s.id)).bind ?_
    intro p p' hpaired
    obtain ⟨target, hasked⟩ := hpaired
    exact .ok ⟨congrArg (Option.map fun id => [id]) target, hasked⟩

theorem Twin.move (h : Twin m m') (occupied : List String) (s : State) :
    Matched Paired (m.move host d occupied s) (m'.move host d occupied s) := by
  unfold Machine.move
  rw [h.awaits_eq]
  split
  · exact .ok ⟨rfl, h⟩
  · split
    · split
      · exact .ok ⟨rfl, (h.fire s.id).enter host s⟩
      · exact .ok ⟨rfl, h⟩
    · have htargets : Matched Paired (m.targets host d s) (m'.targets host d s) := h.targets s
      generalize m.targets host d s = chosen at htargets ⊢
      generalize m'.targets host d s = chosen' at htargets ⊢
      cases htargets with
      | error hasked => exact .error hasked
      | @ok p p' hpaired =>
        obtain ⟨targets, asked⟩ := p
        obtain ⟨targets', asked'⟩ := p'
        obtain ⟨rfl, hasked⟩ := hpaired
        cases targets with
        | none => exact .ok ⟨rfl, hasked⟩
        | some targets =>
          refine ((hasked.leave host s).arrive s.id targets).bind ?_
          exact fun _ _ harrived => .ok ⟨rfl, harrived⟩

theorem Twin.moveAll (h : Twin m m') (occupied ids : List String) (moved : Bool) :
    Matched Paired (m.moveAll host d occupied ids moved)
      (m'.moveAll host d occupied ids moved) := by
  induction ids generalizing m m' moved with
  | nil => exact .ok ⟨rfl, h⟩
  | cons id rest ih =>
    unfold Machine.moveAll
    rw [h.isRunning_eq]
    split
    · exact .ok ⟨rfl, h⟩
    · cases d.state? id with
      | none => exact .ok ⟨rfl, h.fail _⟩
      | some s =>
        refine (h.move occupied s).bind ?_
        intro p p' hpaired
        obtain ⟨here, hmoved⟩ := hpaired
        simp only [here]
        exact ih hmoved _

/-- Two steps are both taken, both refused or both broken off, and leave twins. -/
inductive SameEnd : Except Refusal Machine → Except Refusal Machine → Prop
  | ok {next next' : Machine} (h : Twin next next') : SameEnd (.ok next) (.ok next')
  | foreign (run workflow definition : String) :
      SameEnd (.error (.foreign run workflow definition))
        (.error (.foreign run workflow definition))
  | interrupted {why : Interruption} {next next' : Machine} (h : Twin next next') :
      SameEnd (.error (.interrupted ⟨why, next⟩)) (.error (.interrupted ⟨why, next'⟩))

theorem Twin.advance (h : Twin m m') (host : Host) (d : Definition) :
    SameEnd (m.advance host d) (m'.advance host d) := by
  unfold Machine.advance
  rw [h.workflow_eq, h.id_eq, h.isRunning_eq, h.current_eq]
  split
  · exact .foreign ..
  · split
    · exact .ok ⟨h.run, h.judged, h.invoked⟩
    · have hturns : Matched Paired (m.moveAll host d m'.run.current m'.run.current false)
          (m'.moveAll host d m'.run.current m'.run.current false) := h.moveAll ..
      generalize m.moveAll host d m'.run.current m'.run.current false = taken at hturns ⊢
      generalize m'.moveAll host d m'.run.current m'.run.current false = taken' at hturns ⊢
      cases hturns with
      | error hleft => exact .interrupted hleft
      | @ok p p' hpaired =>
        obtain ⟨moved, last⟩ := p
        obtain ⟨moved', last'⟩ := p'
        obtain ⟨rfl, hlast⟩ := hpaired
        exact .ok ((hlast.conclude d moved).touch host)

end Steps

end Machine

end Runbook.Workflow
