import Runbook.Proofs.Agenda
import Runbook.Proofs.Calls
import Runbook.Proofs.RunRecords

/-!
What a run keeps from step to step: its identifier and its workflow, and that its record holds it as
it is. A step opens visits and closes them at times that the clock shows, notes and takes arrivals
at joins, and binds variables to texts; none of these makes a run that could not be recorded.
-/
namespace Runbook.Workflow

/-- Variables that records hold as they are. -/
structure Lasting (bindings : Fields) : Prop where
  sound : (Value.record bindings).Sound
  stored : storable (.record bindings) = .record bindings

/-- The variables of runs that can be recorded stay so under every action, and every time that the
clock shows can be recorded. -/
structure Host.Retains (host : Host) (d : Definition) : Prop where
  clock : ∀ n, (host.clock n).Recordable
  invoke : ∀ s ∈ d.states, ∀ a ∈ s.actions, ∀ n scene,
    Lasting scene.bindings → Lasting (host.invoke n a scene).bindings

/-- The variable that an action binds, if it binds one. -/
def Action.binds? : Action → Option String
  | .set name _ => some name
  | .prompt _ _ result => some result
  | .log .. | .wait _ => none

theorem lasting_set {bindings : Fields} (h : Lasting bindings) {name : String}
    (hname : Text.hasHalves name = false) (value : String) :
    Lasting (Keyed.set name (.text value) bindings) := by
  obtain ⟨hnodup, hsound⟩ := Value.sound_record.mp h.sound
  have hstored := storable_record_eq_self_iff.mp h.stored
  refine ⟨Value.sound_record.mpr ⟨Keyed.nodup_keys_set hnodup, fun f hf => ?_⟩,
    storable_record_eq_self_iff.mpr fun f hf => ?_⟩
  · rcases Keyed.eq_or_mem_of_mem_set hf with rfl | hf
    · trivial
    · exact hsound f hf
  · rcases Keyed.eq_or_mem_of_mem_set hf with rfl | hf
    · exact ⟨Text.replaceHalves_eq hname, rfl⟩
    · exact hstored f hf

theorem lasting_carryOut {prompts : PromptSource} {a : Action} {scene : Scene}
    (hname : ∀ name ∈ a.binds?, Text.hasHalves name = false) (h : Lasting scene.bindings) :
    Lasting (carryOut prompts a scene).bindings := by
  cases a with
  | log | wait => exact h
  | set name value => exact lasting_set h (hname name rfl) value
  | prompt name arguments result =>
    unfold carryOut
    dsimp only
    split
    · exact h
    · split
      · exact h
      · exact lasting_set h (hname result rfl) _

/-- The standard host retains what can be recorded, if no variable has halves in its name. -/
theorem Host.retains_standard {clock : Nat → Timestamp} {prompts : PromptSource} {d : Definition}
    (hclock : ∀ n, (clock n).Recordable)
    (hnames : ∀ s ∈ d.states, ∀ a ∈ s.actions, ∀ name ∈ a.binds?, Text.hasHalves name = false) :
    (Host.standard clock prompts).Retains d :=
  ⟨hclock, fun s hs a ha _ _ h => lasting_carryOut (hnames s hs a ha) h⟩

/-- The second run is the first one at a later time. -/
structure Run.Later (host : Host) (d : Definition) (r r' : Run) : Prop where
  id : r'.id = r.id
  workflow : r'.workflow = r.workflow
  recordable : host.Retains d → r.Recordable → r'.Recordable

namespace Run.Later

variable {host : Host} {d : Definition} {r r' r'' : Run}

theorem refl (r : Run) : Later host d r r := ⟨rfl, rfl, fun _ h => h⟩

theorem trans (h : Later host d r r') (h' : Later host d r' r'') : Later host d r r'' :=
  ⟨h'.id.trans h.id, h'.workflow.trans h.workflow,
    fun hretains hr => h'.recordable hretains (h.recordable hretains hr)⟩

theorem occupy (r : Run) (id : String) : Later host d r (r.occupy id) := by
  rw [occupy_eq]
  exact ⟨rfl, rfl, fun _ h => ⟨h.created, h.updated, h.visits, h.pending, h.bindings, h.durable⟩⟩

theorem awaitJoin (r : Run) (join source : String) : Later host d r (r.awaitJoin join source) :=
  ⟨rfl, rfl, fun _ h => ⟨h.created, h.updated, h.visits, Keyed.nodup_keys_set h.pending, h.bindings,
    h.durable⟩⟩

theorem openVisit (r : Run) (id : String) (n : Nat) :
    Later host d r (r.openVisit id (host.clock n)) := by
  refine ⟨rfl, rfl, fun hretains h => ⟨h.created, h.updated, fun v hv => ?_, h.pending, h.bindings,
    h.durable⟩⟩
  rcases List.mem_append.mp hv with hv | hv
  · exact h.visits v hv
  · rw [List.mem_singleton.mp hv]
    exact ⟨hretains.clock n, nofun⟩

theorem exists_of_mem_closeFirst {id : String} {time : Timestamp} {visits : List Visit}
    {v : Visit} (hv : v ∈ closeFirst id time visits) :
    ∃ w ∈ visits, v.entered = w.entered ∧ (v.exited = w.exited ∨ v.exited = some time) := by
  induction visits with
  | nil => cases hv
  | cons w rest ih =>
    unfold closeFirst at hv
    split at hv
    · rcases List.mem_cons.mp hv with rfl | hv
      · exact ⟨w, List.mem_cons_self .., rfl, Or.inr rfl⟩
      · exact ⟨v, List.mem_cons_of_mem _ hv, rfl, Or.inl rfl⟩
    · rcases List.mem_cons.mp hv with rfl | hv
      · exact ⟨v, List.mem_cons_self .., rfl, Or.inl rfl⟩
      · obtain ⟨w', hw', hsame⟩ := ih hv
        exact ⟨w', List.mem_cons_of_mem _ hw', hsame⟩

theorem closeVisit (r : Run) (id : String) (n : Nat) :
    Later host d r (r.closeVisit id (host.clock n)) := by
  refine ⟨rfl, rfl, fun hretains h => ⟨h.created, h.updated, fun v hv => ?_, h.pending, h.bindings,
    h.durable⟩⟩
  obtain ⟨w, hw, hentered, hexited⟩ := exists_of_mem_closeFirst (List.mem_reverse.mp hv)
  obtain ⟨hwentered, hwexited⟩ := h.visits w (List.mem_reverse.mp hw)
  rw [hentered]
  refine ⟨hwentered, fun t ht => ?_⟩
  rcases hexited with hsame | hclosed
  · exact hwexited t (hsame ▸ ht)
  · rw [hclosed] at ht
    cases ht
    exact hretains.clock n

end Run.Later

namespace Machine

open Run

variable {host : Host} {d : Definition} {m m' : Machine}

theorem later_fail (m : Machine) (f : Failure) : Later host d m.run (m.fail f).run :=
  ⟨rfl, rfl, fun _ h => ⟨h.created, h.updated, h.visits, h.pending, h.bindings, h.durable⟩⟩

theorem later_act {s : State} (hs : s ∈ d.states) (state : String) (actions : List Action)
    (hactions : ∀ a ∈ actions, a ∈ s.actions) (m : Machine) :
    Later host d m.run (m.act host state actions).run := by
  induction actions generalizing m with
  | nil => exact Later.refl m.run
  | cons a rest ih =>
    obtain ⟨ha, hrest⟩ := List.forall_mem_cons.mp hactions
    have hcarried : Later host d m.run (m.carried host state a).run := by
      refine ⟨rfl, rfl, fun hretains h => ?_⟩
      have hlasting := hretains.invoke s hs a ha m.invoked
        ⟨m.run.id, m.run.workflow, state, m.run.bindings⟩ ⟨h.bindings, h.durable⟩
      exact ⟨h.created, h.updated, h.visits, h.pending, hlasting.sound, hlasting.stored⟩
    rw [act_cons]
    cases (m.response host state a).outcome.fault? with
    | some message => exact hcarried.trans (later_fail ..)
    | none => exact hcarried.trans (ih hrest _)

theorem later_enter {s : State} (hs : s ∈ d.states) (m : Machine) :
    Later host d m.run (m.enter host s).run :=
  (Later.openVisit m.run s.id m.reads).trans
    (later_act hs s.id s.actions (fun _ ha => ha) (m.opened host s))

theorem later_leave (m : Machine) (s : State) : Later host d m.run (m.leave host s).run := by
  have hvacated : Later host d m.run (m.run.vacate s.id) :=
    ⟨rfl, rfl, fun _ h => ⟨h.created, h.updated, h.visits, h.pending, h.bindings, h.durable⟩⟩
  rw [leave_run]
  split
  · exact hvacated
  · exact hvacated.trans (Later.closeVisit ..)

theorem later_arriveAt {t : State} (ht : t ∈ d.states) (source : String) (m : Machine) :
    Later host d m.run (m.arriveAt host source t).run := by
  unfold arriveAt
  split
  · exact Later.occupy ..
  · exact (Later.awaitJoin ..).trans (Later.occupy ..)
  · exact (Later.occupy m.run t.id).trans (later_enter ht (m.mapRun fun r => r.occupy t.id))

theorem later_fire (m : Machine) (join : String) : Later host d m.run (m.fire join).run :=
  ⟨rfl, rfl, fun _ h => ⟨h.created, h.updated, h.visits, Keyed.nodup_keys_erase h.pending,
    h.bindings, h.durable⟩⟩

theorem later_arrive {source : String} {targets : List String}
    (h : m.arrive host d source targets = .ok m') : Later host d m.run m'.run := by
  induction targets generalizing m with
  | nil =>
    cases h
    exact Later.refl _
  | cons target rest ih =>
    unfold arrive at h
    cases ht : d.state? target with
    | none =>
      rw [ht] at h
      cases h
    | some t =>
      rw [ht] at h
      have harrived : Later host d m.run (m.arriveAt host source t).run :=
        later_arriveAt (Definition.mem_of_state? ht).1 source m
      dsimp only at h
      split at h
      · exact harrived.trans (ih h)
      · cases h
        exact harrived

theorem later_select {state : String} {fallback target : Option String} {exits : List Transition}
    (h : select host state fallback exits m = .ok (target, m')) : Later host d m.run m'.run := by
  obtain ⟨asked, hasked, ⟨t, -, he⟩ | ⟨f, -, he⟩ | ⟨why, -, he⟩⟩ :=
    select_cases host state fallback exits m
  · rw [he] at h
    cases h
    rw [hasked.run_eq]
    exact Later.refl _
  · rw [he] at h
    cases h
    rw [← hasked.run_eq]
    exact later_fail ..
  · rw [he] at h
    cases h

theorem later_targets {s : State} {targets : Option (List String)}
    (h : m.targets host d s = .ok (targets, m')) : Later host d m.run m'.run := by
  unfold Machine.targets at h
  split at h
  · cases h
    exact Later.refl _
  · obtain ⟨⟨target, asked⟩, hselect, h⟩ := bind_eq_ok_iff.mp h
    cases h
    exact later_select hselect

theorem later_move {occupied : List String} {s : State} (hs : s ∈ d.states) {moved : Bool}
    (h : m.move host d occupied s = .ok (moved, m')) : Later host d m.run m'.run := by
  unfold move at h
  split at h
  · cases h
    exact Later.refl _
  · split at h
    · split at h
      · cases h
        exact (later_fire m s.id).trans (later_enter hs _)
      · cases h
        exact Later.refl _
    · split at h
      · cases h
      · rename_i htargets
        cases h
        exact later_targets htargets
      · rename_i targets asked htargets
        obtain ⟨arrived, harrive, h⟩ := bind_eq_ok_iff.mp h
        cases h
        exact ((later_targets htargets).trans (later_leave asked s)).trans (later_arrive harrive)

theorem later_moveAll {occupied ids : List String} {moved moved' : Bool}
    (h : m.moveAll host d occupied ids moved = .ok (moved', m')) : Later host d m.run m'.run := by
  induction ids generalizing m moved with
  | nil =>
    cases h
    exact Later.refl _
  | cons id rest ih =>
    unfold moveAll at h
    split at h
    · cases h
      exact Later.refl _
    · cases hs : d.state? id with
      | none =>
        rw [hs] at h
        cases h
        exact later_fail ..
      | some s =>
        rw [hs] at h
        obtain ⟨⟨here, next⟩, hmove, h⟩ := bind_eq_ok_iff.mp h
        exact (later_move (Definition.mem_of_state? hs).1 hmove).trans (ih h)

theorem later_conclude (d : Definition) (moved : Bool) (m : Machine) :
    Later host d m.run (m.conclude d moved).run := by
  unfold conclude
  split
  · exact Later.refl _
  · split
    · exact ⟨rfl, rfl,
        fun _ h => ⟨h.created, h.updated, h.visits, h.pending, h.bindings, h.durable⟩⟩
    · split
      · exact later_fail ..
      · exact Later.refl _

/-- What a step makes of a run is the same run later on. -/
theorem later_advance (h : m.advance host d = .ok m') : Later host d m.run m'.run := by
  unfold Machine.advance at h
  split at h
  · cases h
  · split at h
    · cases h
      exact Later.refl _
    · cases hmoved : m.moveAll host d m.run.current m.run.current false with
      | error i =>
        rw [hmoved] at h
        cases h
      | ok p =>
        rw [hmoved] at h
        cases h
        refine ((later_moveAll hmoved).trans (later_conclude d p.1 p.2)).trans ⟨rfl, rfl, ?_⟩
        exact fun hretains h =>
          ⟨h.created, hretains.clock _, h.visits, h.pending, h.bindings, h.durable⟩

/-- The second run is the first one with another status and the time of the change, if it is
changed. -/
inductive Stamped (host : Host) (r : Run) : Run → Prop
  | same : Stamped host r r
  | set (status : Status) (n : Nat) :
      Stamped host r { r with status := status, updated := host.clock n }

theorem Stamped.id {r r' : Run} (h : Stamped host r r') : r'.id = r.id := by
  cases h <;> rfl

theorem Stamped.bindings {r r' : Run} (h : Stamped host r r') : r'.bindings = r.bindings := by
  cases h <;> rfl

theorem Stamped.recordable {r r' : Run} (h : Stamped host r r')
    (hclock : ∀ n, (host.clock n).Recordable) (hr : r.Recordable) : r'.Recordable := by
  cases h with
  | same => exact hr
  | set status n =>
    exact ⟨hr.created, hclock n, hr.visits, hr.pending, hr.bindings, hr.durable⟩

end Machine

end Runbook.Workflow
