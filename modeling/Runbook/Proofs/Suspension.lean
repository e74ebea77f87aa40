import Runbook.Proofs.Lifecycle
import Runbook.Proofs.Twins

/-!
Suspension. A run that is suspended takes no steps, whatever is asked of it, and once it is resumed
it goes on as if nothing had been: but for times, what calls come to depends only on how many steps
were taken while the run was running. So suspensions can be put in anywhere between calls.
-/
namespace Runbook.Workflow

namespace Run

/-- A run as it is when it is not suspended. -/
def awake (r : Run) : Run :=
  { r with status := if r.status = .suspended then .running else r.status }

/-- Runs that are the same when they are awake differ at most in that one of them is suspended. -/
theorem snapshot_of_awake {r r' : Run} (h : r.awake.snapshot = r'.awake.snapshot)
    (hsuspended : r.status = .suspended ↔ r'.status = .suspended) : r.snapshot = r'.snapshot := by
  have hstatus : r.status = r'.status := by
    by_cases hr : r.status = .suspended
    · rw [hr, hsuspended.mp hr]
    · have hawake : r.awake.status = r'.awake.status := congrArg Snapshot.status h
      unfold awake at hawake
      rwa [if_neg hr, if_neg fun hr' => hr (hsuspended.mpr hr')] at hawake
  calc r.snapshot = { r.awake.snapshot with status := r.status } := rfl
    _ = { r'.awake.snapshot with status := r'.status } := by rw [h, hstatus]
    _ = r'.snapshot := rfl

end Run

namespace Machine

variable {host : Host} {d : Definition} {m m' : Machine}

section Pacing

variable (host d)

/-- The machine after a number of steps, each of them left as it may be. -/
def paced : Nat → Machine → Machine
  | 0, m => m
  | n + 1, m => paced n (m.leftBy (m.advance host d))

/-- How many steps are asked for where steps are taken while the run is running, up to a number of
them; the one that is not carried out is the last. -/
def stepsTaken : Nat → Machine → Nat
  | 0, _ => 0
  | n + 1, m =>
    if m.isRunning then
      match m.advance host d with
      | .ok next => stepsTaken n next + 1
      | .error _ => 1
    else 0

/-- How many steps a call asks for while the run is running. -/
def stepsOf (m : Machine) : Call → Nat
  | .advance => if m.isRunning then 1 else 0
  | .settle limit => m.stepsTaken host d limit.toNat
  | .suspend | .resume | .cancel => 0

def stepsIn : Machine → List Call → Nat
  | _, [] => 0
  | m, c :: rest => m.stepsOf host d c + stepsIn (m.call host d c) rest

end Pacing

theorem paced_add (a b : Nat) (m : Machine) :
    m.paced host d (a + b) = (m.paced host d a).paced host d b := by
  induction a generalizing m with
  | zero => rw [Nat.zero_add, paced]
  | succ a ih =>
    rw [Nat.succ_add, paced, ih]
    rfl

theorem stepsIn_append (calls more : List Call) :
    m.stepsIn host d (calls ++ more) =
      m.stepsIn host d calls + (m.after host d calls).stepsIn host d more := by
  induction calls generalizing m with
  | nil => exact (Nat.zero_add _).symm
  | cons c rest ih =>
    rw [List.cons_append, stepsIn, ih, stepsIn, Nat.add_assoc]
    rfl

section Twins

theorem Twin.leftBy {x x' : Except Refusal Machine} (h : Twin m m') (hend : SameEnd x x') :
    Twin (m.leftBy x) (m'.leftBy x') := by
  cases hend with
  | ok hnext => exact hnext
  | foreign => exact h
  | interrupted hnext => exact hnext

theorem Twin.paced (h : Twin m m') (n : Nat) :
    Twin (m.paced host d n) (m'.paced host d n) := by
  induction n generalizing m m' with
  | zero => exact h
  | succ n ih => exact ih (h.leftBy (h.advance host d))

theorem Twin.stepsTaken_eq (h : Twin m m') (n : Nat) :
    m.stepsTaken host d n = m'.stepsTaken host d n := by
  induction n generalizing m m' with
  | zero => rfl
  | succ n ih =>
    unfold stepsTaken
    rw [h.isRunning_eq]
    have hend : SameEnd (m.advance host d) (m'.advance host d) := h.advance host d
    generalize m.advance host d = x at hend ⊢
    generalize m'.advance host d = x' at hend ⊢
    split
    · cases hend with
      | ok hnext => exact congrArg (· + 1) (ih hnext)
      | foreign => rfl
      | interrupted => rfl
    · rfl

theorem Twin.stepsOf_eq (h : Twin m m') (c : Call) :
    m.stepsOf host d c = m'.stepsOf host d c := by
  cases c with
  | advance =>
    unfold stepsOf
    rw [h.isRunning_eq]
  | settle limit => exact h.stepsTaken_eq limit.toNat
  | suspend | resume | cancel => rfl

end Twins

section Steps

/-- Steps that follow one another are left as the last of them is. -/
theorem leftBy_steps (hlinked : d.Linked) (n : Nat) (m : Machine) :
    m.leftBy (m.steps host d n) = m.paced host d (m.stepsTaken host d n) := by
  induction n generalizing m with
  | zero => rfl
  | succ n ih =>
    by_cases hrunning : m.isRunning = true
    · rw [steps, stepsTaken, if_pos hrunning, if_pos hrunning]
      rcases advance_cases hlinked host m with
        ⟨next, he, hnext, hworkflow⟩ | ⟨-, he⟩ | ⟨i, he, -⟩
      · rw [he]
        simp only [paced, he, leftBy, ← ih next]
        -- none of the later steps is refused to the run of another workflow
        cases hlater : next.steps host d n with
        | ok last => simp [bind, Except.bind, hlater]
        | error r =>
          rcases steps_error hlinked hlater with ⟨i, rfl, -⟩ | ⟨-, -, hother⟩
          · simp [bind, Except.bind, hlater]
          · exact absurd (hnext.trans hworkflow) hother
      · rw [he]
        simp only [paced, he]
        rfl
      · rw [he]
        simp only [paced, he]
        rfl
    · have hstopped : m.isRunning = false := Bool.eq_false_iff.mpr hrunning
      rw [steps_of_stopped host d (n + 1) hstopped, stepsTaken, if_neg hrunning]
      rfl

/-- Whatever is asked for in steps leaves a run as that many steps do. -/
theorem call_settle (hlinked : d.Linked) (limit : Int) (m : Machine) :
    Twin (m.call host d (.settle limit))
      (m.paced host d (m.stepsOf host d (.settle limit))) := by
  unfold stepsOf
  rw [← leftBy_steps hlinked]
  change Twin (m.leftBy (m.settle host d limit)) _
  unfold settle
  cases m.steps host d limit.toNat with
  | error r => exact Twin.refl _
  | ok last =>
    simp only [bind, Except.bind]
    by_cases hrunning : last.isRunning = true
    · rw [if_pos hrunning]
      exact ⟨rfl, rfl, rfl⟩
    · rw [if_neg hrunning]
      exact Twin.refl _

theorem call_advance (m : Machine) :
    Twin (m.call host d .advance) (m.paced host d (m.stepsOf host d .advance)) := by
  unfold stepsOf
  by_cases hrunning : m.isRunning = true
  · rw [if_pos hrunning]
    exact Twin.refl _
  · rw [if_neg hrunning]
    change Twin (m.leftBy (m.advance host d)) m
    unfold advance
    split
    · exact Twin.refl m
    · rw [if_pos (by simp [hrunning])]
      exact ⟨rfl, rfl, rfl⟩

theorem twin_note (m : Machine) (entries : Journal) : Twin (m.note entries) m :=
  ⟨rfl, rfl, rfl⟩

theorem Twin.note (h : Twin m m') (entries entries' : Journal) :
    Twin (m.note entries) (m'.note entries') := ⟨h.run, h.judged, h.invoked⟩

theorem Twin.setStatus (h : Twin m m') (host : Host) (status : Status) :
    Twin (m.setStatus host status) (m'.setStatus host status) :=
  ⟨congrArg (fun s => { s with status := status }) h.run, h.judged, h.invoked⟩

/-- A call that is a request for steps. -/
theorem Twin.call_of_paced (h : Twin m m') {c : Call}
    (hpaced : ∀ m : Machine, Twin (m.call host d c) (m.paced host d (m.stepsOf host d c))) :
    Twin (m.call host d c) (m'.call host d c) := by
  refine (hpaced m).trans (Twin.trans ?_ (hpaced m').symm)
  rw [h.stepsOf_eq]
  exact h.paced _

theorem Twin.call (hlinked : d.Linked) (h : Twin m m') (c : Call) :
    Twin (m.call host d c) (m'.call host d c) := by
  cases c with
  | advance => exact h.call_of_paced call_advance
  | settle limit => exact h.call_of_paced (call_settle hlinked limit)
  | suspend =>
    change Twin (m.unlessRefused (m.suspend host)) (m'.unlessRefused (m'.suspend host))
    unfold suspend
    rw [h.status_eq]
    split
    · exact (h.setStatus host .suspended).note _ _
    · exact h
  | resume =>
    change Twin (m.unlessRefused (m.resume host)) (m'.unlessRefused (m'.resume host))
    unfold resume
    rw [h.status_eq]
    split
    · exact (h.setStatus host .running).note _ _
    · exact h
  | cancel =>
    change Twin (m.unlessRefused (m.cancel host)) (m'.unlessRefused (m'.cancel host))
    unfold cancel
    rw [h.status_eq]
    split
    · exact h
    · split
      · exact h
      · exact ((h.setStatus host .cancelled).note _ _).note _ _

end Steps

section Waking

/-- A machine whose run has been woken, if it was suspended. -/
def wake (m : Machine) : Machine := m.mapRun Run.awake

theorem wake_of_ne (h : m.run.status ≠ .suspended) : m.wake = m := by
  unfold wake mapRun Run.awake
  rw [if_neg h]

theorem Twin.wake (h : Twin m m') : Twin m.wake m'.wake :=
  ⟨congrArg (fun s : Snapshot =>
      { s with status := if s.status = Status.suspended then .running else s.status }) h.run,
    h.judged, h.invoked⟩

/-- A change of status is not seen once the run is awake, if it was to or from a suspension. -/
theorem wake_setStatus {status : Status} (host : Host)
    (h : (m.run.status = .running ∧ status = .suspended) ∨
      (m.run.status = .suspended ∧ status = .running)) :
    Twin (m.setStatus host status).wake m.wake := by
  refine ⟨?_, rfl, rfl⟩
  rcases h with ⟨hstatus, rfl⟩ | ⟨hstatus, rfl⟩ <;>
    simp [wake, Machine.setStatus, Run.awake, Run.snapshot, hstatus, touch, readClock, mapRun]

/-- A turn leaves a run running, or it has failed. -/
theorem turned_status {s : State} {occupied : List String} {moved : Bool} {next : Machine}
    (hrunning : m.isRunning = true) (hturned : Turned host d occupied s m moved next) :
    next.run.status = .running ∨ next.run.status = .failed := by
  have hstatus : m.run.status = .running := (isRunning_iff m).mp hrunning
  cases hturned with
  | stays => exact Or.inl hstatus
  | fires =>
    rcases enter_status host (m.fire s.id) s with ⟨he, -⟩ | ⟨_, he, -⟩
    · exact Or.inl (he.trans hstatus)
    · exact Or.inr he
  | fails => exact Or.inr rfl
  | @goes asked targets hkind hwaits hasked =>
    have hleft : (asked.leave host s).run.status = .running :=
      (leave_status host asked s).trans (hasked.status_eq.trans hstatus)
    refine arriveAll_keeps
      (P := fun next => next.run.status = .running ∨ next.run.status = .failed) ?_
      (hasked.isRunning_leave host s hrunning) (Or.inl hleft)
    intro t _ before _ hbefore
    rcases arriveAt_status host s.id before t with ⟨he, -⟩ | ⟨-, _, he, -⟩
    · rw [he]
      exact hbefore
    · exact Or.inr he

/-- A step does not suspend a run. -/
theorem status_advance (hlinked : d.Linked) (h : m.run.status ≠ .suspended) :
    (m.leftBy (m.advance host d)).run.status ≠ .suspended := by
  refine leftBy_advance_holds hlinked (Q := fun m => m.run.status ≠ .suspended) ?_ ?_ ?_ ?_ h
  · intro m next ha hm
    rw [ha.status_eq]
    exact hm
  · exact fun _ _ _ _ => nofun
  · intro occupied s m moved next _ hrunning hturned _
    rcases turned_status hrunning hturned with hstatus | hstatus <;> (rw [hstatus]; nofun)
  · intro moved m hm
    unfold Machine.conclude
    split
    · exact hm
    · split
      · exact nofun
      · split
        · exact nofun
        · exact hm

theorem status_paced (hlinked : d.Linked) (h : m.run.status ≠ .suspended) (n : Nat) :
    (m.paced host d n).run.status ≠ .suspended := by
  induction n generalizing m with
  | zero => exact h
  | succ n ih => exact ih (status_advance hlinked h)

theorem stepsOf_of_stopped (h : m.isRunning = false) (c : Call) : m.stepsOf host d c = 0 := by
  cases c with
  | advance =>
    unfold stepsOf
    rw [h]
    rfl
  | settle limit =>
    change m.stepsTaken host d limit.toNat = 0
    cases limit.toNat with
    | zero => rfl
    | succ n => simp [stepsTaken, h]
  | suspend | resume | cancel => rfl

/-- A request for steps, seen awake: a run that is suspended takes none. -/
theorem wake_call_of_paced (hlinked : d.Linked) {c : Call}
    (hpaced : Twin (m.call host d c) (m.paced host d (m.stepsOf host d c))) :
    Twin (m.call host d c).wake (m.wake.paced host d (m.stepsOf host d c)) := by
  have hwoken := hpaced.wake
  by_cases hstatus : m.run.status = .suspended
  · have hstopped : m.isRunning = false := by
      rw [Bool.eq_false_iff, Ne, isRunning_iff, hstatus]
      nofun
    rw [stepsOf_of_stopped hstopped] at hwoken ⊢
    exact hwoken
  · rw [wake_of_ne (status_paced hlinked hstatus _)] at hwoken
    rw [wake_of_ne hstatus]
    exact hwoken

/-- Seen awake, a call other than a cancellation takes the steps it asks for and does nothing else.
-/
theorem wake_call (hlinked : d.Linked) {c : Call} (hc : c ≠ .cancel) :
    Twin (m.call host d c).wake (m.wake.paced host d (m.stepsOf host d c)) := by
  cases c with
  | advance => exact wake_call_of_paced hlinked (call_advance m)
  | settle limit => exact wake_call_of_paced hlinked (call_settle hlinked limit m)
  | suspend =>
    change Twin (m.unlessRefused (m.suspend host)).wake m.wake
    unfold suspend
    split
    · rename_i hstatus
      exact (twin_note _ _).wake.trans (wake_setStatus host (Or.inl ⟨hstatus, rfl⟩))
    · exact Twin.refl _
  | resume =>
    change Twin (m.unlessRefused (m.resume host)).wake m.wake
    unfold resume
    split
    · rename_i hstatus
      exact (twin_note _ _).wake.trans (wake_setStatus host (Or.inr ⟨hstatus, rfl⟩))
    · exact Twin.refl _
  | cancel => exact absurd rfl hc

/-- Seen awake, calls that cancel nothing come to the steps that were taken. -/
theorem wake_after (hlinked : d.Linked) {calls : List Call} (hcalls : .cancel ∉ calls) :
    Twin (m.after host d calls).wake (m.wake.paced host d (m.stepsIn host d calls)) := by
  induction calls generalizing m with
  | nil => exact Twin.refl _
  | cons c rest ih =>
    rw [List.mem_cons, not_or] at hcalls
    have hfirst : Twin (m.call host d c).wake _ := wake_call hlinked (Ne.symm hcalls.1)
    rw [stepsIn, paced_add]
    exact (ih hcalls.2).trans (hfirst.paced _)

end Waking

section Pausing

/-- Calls that neither resume nor cancel leave a run that is not running as it is. -/
theorem after_of_stopped (hlinked : d.Linked) (h : m.isRunning = false) {idle : List Call}
    (hidle : ∀ c ∈ idle, c ≠ .resume ∧ c ≠ .cancel) :
    Twin (m.after host d idle) m ∧ m.stepsIn host d idle = 0 := by
  induction idle generalizing m with
  | nil => exact ⟨Twin.refl m, rfl⟩
  | cons c rest ih =>
    obtain ⟨hresume, hcancel⟩ := hidle c (List.mem_cons_self ..)
    have hzero : m.stepsOf host d c = 0 := stepsOf_of_stopped h c
    have hcall : Twin (m.call host d c) m := by
      cases c with
      | advance =>
        have hpaced : Twin (m.call host d .advance) _ := call_advance m
        rw [hzero] at hpaced
        exact hpaced
      | settle limit =>
        have hpaced : Twin (m.call host d (.settle limit)) _ := call_settle hlinked limit m
        rw [hzero] at hpaced
        exact hpaced
      | suspend =>
        have hrefused : Refused d m .suspend := by
          intro hstatus
          rw [(isRunning_iff m).mpr hstatus] at h
          cases h
        rw [call_of_refused hrefused]
        exact Twin.refl m
      | resume => exact absurd rfl hresume
      | cancel => exact absurd rfl hcancel
    obtain ⟨hrest, hnone⟩ := ih (hcall.isRunning_eq.trans h)
      fun c hc => hidle c (List.mem_cons_of_mem _ hc)
    refine ⟨hrest.trans hcall, ?_⟩
    rw [stepsIn, hzero, hnone]

theorem not_isRunning_call_suspend (host : Host) (d : Definition) (m : Machine) :
    (m.call host d .suspend).isRunning = false := by
  change (m.unlessRefused (m.suspend host)).isRunning = false
  unfold suspend
  split
  · rfl
  · rename_i hstatus
    rw [Bool.eq_false_iff, Ne, isRunning_iff]
    exact hstatus

theorem status_call_resume (host : Host) (d : Definition) (m : Machine) :
    (m.call host d .resume).run.status ≠ .suspended := by
  change (m.unlessRefused (m.resume host)).run.status ≠ .suspended
  unfold resume
  split
  · exact nofun
  · rename_i hstatus
    exact hstatus

/-- A suspension, with what is asked for until the run is resumed. -/
def pause (idle : List Call) : List Call := .suspend :: (idle ++ [.resume])

/-- A run that is not suspended is the same after a pause, and takes no steps during it. -/
theorem after_pause (hlinked : d.Linked) (hawake : m.run.status ≠ .suspended) {idle : List Call}
    (hidle : ∀ c ∈ idle, c ≠ .resume ∧ c ≠ .cancel) :
    Twin (m.after host d (pause idle)) m ∧ m.stepsIn host d (pause idle) = 0 := by
  have hzero : m.stepsIn host d (pause idle) = 0 := by
    obtain ⟨-, hnone⟩ :=
      after_of_stopped hlinked (not_isRunning_call_suspend host d m) hidle
    rw [pause, stepsIn, stepsIn_append, hnone]
    rfl
  have hcancel : .cancel ∉ pause idle := by
    intro hmem
    rcases List.mem_cons.mp hmem with hmem | hmem
    · cases hmem
    · rcases List.mem_append.mp hmem with hmem | hmem
      · exact (hidle _ hmem).2 rfl
      · cases List.mem_singleton.mp hmem
  have hwoken : Twin (m.after host d (pause idle)).wake _ := wake_after hlinked hcancel
  have hresumed : (m.after host d (pause idle)).run.status ≠ .suspended := by
    rw [pause, ← List.cons_append, after_append]
    exact status_call_resume host d _
  rw [hzero, wake_of_ne hawake, wake_of_ne hresumed] at hwoken
  exact ⟨hwoken, hzero⟩

/-- The second of two lists of calls upon a machine is the first one with pauses put in between its
calls, wherever the run is not suspended. -/
inductive Paused (host : Host) (d : Definition) : Machine → List Call → List Call → Prop
  | nil (m : Machine) : Paused host d m [] []
  | call {m : Machine} {calls paused : List Call} (c : Call)
      (tail : Paused host d (m.call host d c) calls paused) :
      Paused host d m (c :: calls) (c :: paused)
  | pause {m : Machine} {idle calls paused : List Call} (hawake : m.run.status ≠ .suspended)
      (hidle : ∀ c ∈ idle, c ≠ .resume ∧ c ≠ .cancel) (tail : Paused host d m calls paused) :
      Paused host d m calls (pause idle ++ paused)

theorem Paused.twin (hlinked : d.Linked) {calls paused : List Call}
    (h : Paused host d m calls paused) (htwin : Twin m' m) :
    m'.stepsIn host d paused = m.stepsIn host d calls ∧
      Twin (m'.after host d paused) (m.after host d calls) := by
  induction h generalizing m' with
  | nil => exact ⟨rfl, htwin⟩
  | call c _ ih =>
    obtain ⟨hsteps, hafter⟩ := ih (htwin.call hlinked c)
    refine ⟨?_, hafter⟩
    rw [stepsIn, stepsIn, hsteps, htwin.stepsOf_eq]
  | pause hawake hidle _ ih =>
    have hawake' : m'.run.status ≠ .suspended := by
      rw [htwin.status_eq]
      exact hawake
    obtain ⟨hpaused, hzero⟩ : Twin (m'.after host d _) m' ∧ _ :=
      after_pause hlinked hawake' hidle
    obtain ⟨hsteps, hafter⟩ := ih (hpaused.trans htwin)
    refine ⟨?_, ?_⟩
    · rw [stepsIn_append, hzero, hsteps, Nat.zero_add]
    · rw [after_append]
      exact hafter

end Pausing

/-- Suspension is not seen in what a run comes to. Calls upon a run that cancel nothing leave the
same, but for times, as any others that take as many steps, where the run may be suspended in one
case and running in the other. And where pauses are put in between calls, as many steps are taken,
and the same is left. -/
theorem snapshot_after_pauses (hlinked : d.Linked) (host : Host) (m : Machine) :
    (∀ calls calls' : List Call, .cancel ∉ calls → .cancel ∉ calls' →
      m.stepsIn host d calls = m.stepsIn host d calls' →
      let final := (m.after host d calls).run
      let final' := (m.after host d calls').run
      final.awake.snapshot = final'.awake.snapshot ∧
      ((final.status = .suspended ↔ final'.status = .suspended) →
        final.snapshot = final'.snapshot)) ∧
    ∀ calls paused : List Call, Paused host d m calls paused →
      m.stepsIn host d paused = m.stepsIn host d calls ∧
      (m.after host d paused).run.snapshot = (m.after host d calls).run.snapshot := by
  refine ⟨?_, ?_⟩
  · intro calls calls' hcalls hcalls' hsteps final final'
    have hleft : Twin (m.after host d calls).wake _ := wake_after hlinked hcalls
    have hright : Twin (m.after host d calls').wake _ := wake_after hlinked hcalls'
    rw [hsteps] at hleft
    have hawake : final.awake.snapshot = final'.awake.snapshot :=
      (hleft.trans hright.symm).run
    exact ⟨hawake, Run.snapshot_of_awake hawake⟩
  · intro calls paused hpaused
    obtain ⟨hsteps, hafter⟩ := hpaused.twin hlinked (Twin.refl m)
    exact ⟨hsteps, hafter.run⟩

/-- A run that is suspended while a branch waits at its join, and once more before it is driven to
its end, and one that is not. -/
theorem snapshot_after_pauses_uneven_branches :
    ∃ d m, Definition.parse (Text.unlines unevenBranches) none = .ok d ∧ d.Linked ∧
      start quietHost d [] "run-1" 0 0 0 = .ok m ∧ m.isRunning = true ∧
      let earlier : List Call := [.advance, .advance]
      let calls := earlier ++ [.settle 9]
      let paused := earlier ++ pause [.advance, .settle 3] ++ pause [] ++ [.settle 9]
      let final := (m.after quietHost d calls).run
      let final' := (m.after quietHost d paused).run
      (m.after quietHost d earlier).run.pending = [("J", ["A"])] ∧
      final.status = .completed ∧ final.snapshot = final'.snapshot ∧
      m.stepsIn quietHost d paused = m.stepsIn quietHost d calls ∧
      (m.after quietHost d [.settle 2, .suspend]).run.awake.snapshot =
        (m.after quietHost d earlier).run.awake.snapshot := by
  obtain ⟨d, m, hparse, hv, hstart, htest⟩ := exists_started unevenBranches []
    (fun d m => decide (m.run.status = .running ∧
      (m.after quietHost d [.advance, .advance]).run.status = .running ∧
      (m.after quietHost d [.advance, .advance]).run.pending = [("J", ["A"])] ∧
      (m.after quietHost d [.advance, .advance, .settle 9]).run.status = .completed ∧
      m.stepsIn quietHost d [.settle 2, .suspend] = 2 ∧
      m.stepsIn quietHost d [.advance, .advance] = 2))
    (by decide) (by decide +kernel)
  obtain ⟨hrunning, hgoing, hpending, hcompleted, hsettled, hadvanced⟩ := of_decide_eq_true htest
  have hlinked := Definition.linked_of_valid hv
  have hawake : (m.after quietHost d [.advance, .advance]).run.status ≠ .suspended := by
    rw [hgoing]
    nofun
  have hpaused : Paused quietHost d m [.advance, .advance, .settle 9]
      ([.advance, .advance] ++ pause [.advance, .settle 3] ++ pause [] ++ [.settle 9]) := by
    have hidle : ∀ c ∈ [Call.advance, .settle 3], c ≠ .resume ∧ c ≠ .cancel := by simp
    have hnone : ∀ c ∈ ([] : List Call), c ≠ .resume ∧ c ≠ .cancel := nofun
    refine .call .advance (.call .advance ?_)
    exact .pause hawake hidle (.pause hawake hnone (.call _ (.nil _)))
  obtain ⟨hcounted, hpauses⟩ := snapshot_after_pauses hlinked quietHost m
  obtain ⟨hsteps, hsame⟩ := hpauses _ _ hpaused
  obtain ⟨hawakened, -⟩ :=
    hcounted [.settle 2, .suspend] [.advance, .advance] (by decide) (by decide)
      (hsettled.trans hadvanced.symm)
  exact ⟨d, m, hparse, hlinked, hstart, (isRunning_iff m).mpr hrunning, hpending, hcompleted,
    hsame.symm, hsteps, hawakened⟩

end Machine

end Runbook.Workflow
