import Runbook.Proofs.Deadlock

/-!
Why a run has failed can still be seen from it. A verdict is given in the middle of a step, after
other states have been left and entered and actions have changed variables; but nothing happens to
a run once it has failed, so the run that is left bears out what the verdict says of the state and
of its exits, of the action, or of the joins that wait for one another.
-/
namespace Runbook.Workflow

/-- At some time of asking, the judge of guards gives an answer. -/
def Host.Answers (host : Host) (guard : String) (bindings : Fields)
    (answer : Except GuardFault Bool) : Prop :=
  ∃ asked, host.guard asked guard bindings = answer

/-- Carrying out an action may fail with a message. -/
def Host.FailsAt (host : Host) (a : Action) (message : String) : Prop :=
  ∃ asked scene, (host.invoke asked a scene).outcome.fault? = some message

namespace Definition

/-- Every way out of a state is guarded, and no guard holds. -/
def Shut (host : Host) (d : Definition) (bindings : Fields) (id : String) : Prop :=
  ∀ t ∈ d.outgoing id, ∃ guard, t.guard = some guard ∧ host.Answers guard bindings (.ok false)

/-- A guard on a way out of a state has no value. -/
def Unjudged (host : Host) (d : Definition) (bindings : Fields) (id message : String) : Prop :=
  ∃ t ∈ d.outgoing id, ∃ guard, t.guard = some guard ∧
    host.Answers guard bindings (.error (.valueless message))

end Definition

namespace Run

/-- A join that is occupied and has arrivals. -/
structure Pending (d : Definition) (r : Run) (join : String) : Prop where
  occupied : join ∈ r.current
  isJoin : d.IsJoin join
  arrivals : Keyed.has join r.pending = true

/-- A run as it stands bears a verdict out. -/
inductive Borne (host : Host) (d : Definition) (r : Run) : Failure → Prop
  | stuck {s : State} (hs : d.state? s.id = some s) (hoccupied : s.id ∈ r.current)
      (hkind : s.kind ≠ .fork) (hshut : d.Shut host r.bindings s.id) :
      Borne host d r (.stuck s.id)
  | guardError {s : State} {message : String} (hs : d.state? s.id = some s)
      (hoccupied : s.id ∈ r.current) (hguard : d.Unjudged host r.bindings s.id message) :
      Borne host d r (.guardError s.id message)
  | actionFailed {s : State} {message : String} (hs : d.state? s.id = some s)
      (hoccupied : s.id ∈ r.current) (haction : ∃ a ∈ s.actions, host.FailsAt a message)
      (hlast : (r.history.map Visit.state).getLast? = some s.id) :
      Borne host d r (.actionFailed s.id message)
  | deadlock (hwait : ∀ id ∈ r.current, Machine.isTerminal d id = false →
        Pending d r id ∧ ∃ other, Pending d r other ∧ other ≠ id ∧ d.Reaches other id)
      (htwo : ∃ a b, Pending d r a ∧ Pending d r b ∧ a ≠ b) :
      Borne host d r (.deadlock r.current)

theorem Borne.kind_ne_unknownState {host : Host} {d : Definition} {r : Run} {f : Failure}
    (h : Borne host d r f) : f.kind ≠ "UnknownState" := by
  cases h with
  | stuck => exact (Failure.Met.stuck _).kind_ne.2
  | guardError => exact (Failure.Met.guardError _ _).kind_ne.2
  | actionFailed => exact (Failure.Met.actionFailed _ _).kind_ne.2
  | deadlock => change "Deadlock" ≠ _; decide

/-- Nothing but the occupied states, the arrivals, the visits and the variables matters to a
verdict. -/
theorem Borne.of_eq {host : Host} {d : Definition} {r r' : Run} {f : Failure}
    (h : Borne host d r f) (hcurrent : r'.current = r.current) (hpending : r'.pending = r.pending)
    (hhistory : r'.history = r.history) (hbindings : r'.bindings = r.bindings) :
    Borne host d r' f := by
  cases h with
  | stuck hs hoccupied hkind hshut =>
    exact .stuck hs (hcurrent ▸ hoccupied) hkind (hbindings ▸ hshut)
  | guardError hs hoccupied hguard =>
    exact .guardError hs (hcurrent ▸ hoccupied) (hbindings ▸ hguard)
  | actionFailed hs hoccupied haction hlast =>
    exact .actionFailed hs (hcurrent ▸ hoccupied) haction (hhistory ▸ hlast)
  | deadlock hwait htwo =>
    have hkeep : ∀ {join}, Pending d r join → Pending d r' join := fun h =>
      ⟨hcurrent ▸ h.occupied, h.isJoin, hpending ▸ h.arrivals⟩
    rw [← hcurrent]
    refine .deadlock ?_ ?_
    · intro id hid hopen
      obtain ⟨hself, other, hother, hne, hreach⟩ := hwait id (hcurrent ▸ hid) hopen
      exact ⟨hkeep hself, other, hkeep hother, hne, hreach⟩
    · obtain ⟨a, b, ha, hb, hne⟩ := htwo
      exact ⟨a, b, hkeep ha, hkeep hb, hne⟩

/-- A knotted run bears out that it is deadlocked. -/
theorem Knotted.borne {d : Definition} {r : Run} (h : Knotted d r)
    (hopen : ∃ id ∈ r.current, Machine.isTerminal d id = false) (host : Host) :
    Borne host d r (.deadlock r.current) := by
  have hpending : ∀ id ∈ r.current, Machine.isTerminal d id = false → Pending d r id := by
    intro id hid hnot
    obtain ⟨hjoin, hhas, -⟩ := h id hid hnot
    exact ⟨hid, hjoin, hhas⟩
  have hwait : ∀ id ∈ r.current, Machine.isTerminal d id = false →
      Pending d r id ∧ ∃ other, Pending d r other ∧ other ≠ id ∧ d.Reaches other id := by
    intro id hid hnot
    obtain ⟨-, -, other, hother, hne, hotheropen, hreach⟩ := h id hid hnot
    exact ⟨hpending id hid hnot, other, hpending other hother hotheropen, hne, hreach⟩
  refine .deadlock hwait ?_
  obtain ⟨id, hid, hnot⟩ := hopen
  obtain ⟨hself, other, hother, hne, -⟩ := hwait id hid hnot
  exact ⟨other, id, hother, hself, hne⟩

end Run

namespace Machine

open Run

variable {host : Host} {d : Definition} {m : Machine} {s : State} {occupied : List String}

/-- Whatever has failed the run, the run bears it out, a deadlock apart. -/
def Explained (host : Host) (d : Definition) (m : Machine) : Prop :=
  ∀ f, m.run.failure = some f → f.kind ≠ "Deadlock" → Borne host d m.run f

theorem Explained.of_failure_none (h : m.run.failure = none) : Explained host d m := by
  intro f hf
  rw [h] at hf
  cases hf

theorem Explained.of_eq {after : Machine} (h : Explained host d m)
    (hfailure : after.run.failure = m.run.failure) (hcurrent : after.run.current = m.run.current)
    (hpending : after.run.pending = m.run.pending) (hhistory : after.run.history = m.run.history)
    (hbindings : after.run.bindings = m.run.bindings) : Explained host d after := by
  intro f hf hkind
  exact (h f (hfailure ▸ hf) hkind).of_eq hcurrent hpending hhistory hbindings

theorem Explained.of_run_eq {after : Machine} (h : Explained host d m)
    (hrun : after.run = m.run) : Explained host d after := by
  unfold Explained
  rw [hrun]
  exact h

/-- Choosing an exit fails the run when all exits are shut, or when a guard has no value. -/
theorem select_eq_none {state : String} {fallback : Option String} {exits : List Transition}
    {after : Machine} (h : select host state fallback exits m = .ok (none, after)) :
    (after.run.failure = some (.stuck state) ∧
      ∀ t ∈ exits, ∃ guard, t.guard = some guard ∧
        host.Answers guard m.run.bindings (.ok false)) ∨
    ∃ message, after.run.failure = some (.guardError state message) ∧
      ∃ t ∈ exits, ∃ guard, t.guard = some guard ∧
        host.Answers guard m.run.bindings (.error (.valueless message)) := by
  -- an unguarded exit becomes the fallback, and a fallback is never given up
  suffices hcases : (after.run.failure = some (.stuck state) ∧ fallback = none ∧
      ∀ t ∈ exits, ∃ guard, t.guard = some guard ∧
        host.Answers guard m.run.bindings (.ok false)) ∨
      ∃ message, after.run.failure = some (.guardError state message) ∧
        ∃ t ∈ exits, ∃ guard, t.guard = some guard ∧
          host.Answers guard m.run.bindings (.error (.valueless message)) by
    rcases hcases with ⟨hfailure, -, hshut⟩ | hguard
    · exact Or.inl ⟨hfailure, hshut⟩
    · exact Or.inr hguard
  induction exits generalizing fallback m with
  | nil =>
    cases fallback with
    | none =>
      cases h
      exact Or.inl ⟨rfl, rfl, nofun⟩
    | some target => cases h
  | cons t rest ih =>
    rw [select_cons] at h
    cases hguard : t.guard with
    | none =>
      rw [hguard] at h
      rcases ih h with ⟨-, hnone, -⟩ | ⟨message, hfailure, u, hu, hvalueless⟩
      · cases fallback <;> cases hnone
      · exact Or.inr ⟨message, hfailure, u, List.mem_cons_of_mem _ hu, hvalueless⟩
    | some guard =>
      rw [hguard] at h
      simp only at h
      split at h
      · rename_i message hanswer
        cases h
        exact Or.inr ⟨message, rfl, t, List.mem_cons_self .., guard, hguard, m.judged, hanswer⟩
      · cases h
      · cases h
      · rename_i hanswer
        rcases ih h with ⟨hfailure, hnone, hshut⟩ | ⟨message, hfailure, u, hu, hvalueless⟩
        · refine Or.inl ⟨hfailure, hnone, ?_⟩
          intro u hu
          rcases List.mem_cons.mp hu with rfl | hu
          · exact ⟨guard, hguard, m.judged, hanswer⟩
          · exact hshut u hu
        · exact Or.inr ⟨message, hfailure, u, List.mem_cons_of_mem _ hu, hvalueless⟩

/-- Where a state has nowhere to go, the run bears out why. -/
theorem borne_targets {asked : Machine} {f : Failure} (hs : d.state? s.id = some s)
    (hoccupied : s.id ∈ m.run.current) (hasked : Unmoved m asked)
    (h : m.targets host d s = .ok (none, asked.fail f)) : Borne host d (asked.fail f).run f := by
  have hcurrent : s.id ∈ (asked.fail f).run.current := by
    rw [fail_run, hasked.run_eq]
    exact hoccupied
  have hbindings : (asked.fail f).run.bindings = m.run.bindings := hasked.bindings
  unfold targets at h
  split at h
  · cases h
  · rename_i hkind
    rw [bind_eq_ok_iff] at h
    obtain ⟨⟨target, after⟩, hselect, hpair⟩ := h
    obtain ⟨htarget, rfl⟩ := Prod.mk.inj (Except.ok.inj hpair)
    rw [Option.map_eq_none_iff.mp htarget] at hselect
    rcases select_eq_none hselect with ⟨hfailure, hshut⟩ | ⟨message, hfailure, hguard⟩
    · obtain rfl : f = .stuck s.id := Option.some.inj hfailure
      exact .stuck hs hcurrent hkind (hbindings ▸ hshut)
    · obtain rfl : f = .guardError s.id message := Option.some.inj hfailure
      exact .guardError hs hcurrent (hbindings ▸ hguard)

theorem failure_act {state : String} {actions : List Action} (hfree : m.run.failure = none)
    {f : Failure} (h : (act host state actions m).run.failure = some f) :
    ∃ message, f = .actionFailed state message ∧ ∃ a ∈ actions, host.FailsAt a message := by
  induction actions generalizing m with
  | nil =>
    rw [act, hfree] at h
    cases h
  | cons a rest ih =>
    unfold act at h
    simp only at h
    split at h
    · rename_i message hfault
      exact ⟨message, (Option.some.inj h).symm, a, List.mem_cons_self .., _, _, hfault⟩
    · obtain ⟨message, hf, b, hb, hfails⟩ := ih (by simpa using hfree) h
      exact ⟨message, hf, b, List.mem_cons_of_mem _ hb, hfails⟩

/-- Where a state is entered that is occupied, the run bears out that an action has failed. -/
theorem explained_enter (hfree : m.run.failure = none) (hs : d.state? s.id = some s)
    (hoccupied : s.id ∈ m.run.current) : Explained host d (m.enter host s) := by
  intro f hf _
  have hopened : (m.opened host s).run.failure = none := hfree
  have hacted : (act host s.id s.actions (m.opened host s)).run.failure = some f := hf
  obtain ⟨message, rfl, haction⟩ := failure_act hopened hacted
  refine .actionFailed hs ?_ haction ?_
  · rw [enter_current]
    exact hoccupied
  · rw [enter_history, List.map_append]
    exact List.getLast?_concat

theorem explained_arriveAt {source : String} {t : State} (hfree : m.run.failure = none)
    (ht : d.state? t.id = some t) : Explained host d (m.arriveAt host source t) := by
  have hoccupy : ∀ r : Run, (r.occupy t.id).failure = r.failure := by
    intro r
    rw [occupy_eq]
  rcases arriveAt_cases host source m t with ⟨-, he⟩ | ⟨-, payload, he⟩ | ⟨-, -, he⟩
  · rw [he]
    exact .of_failure_none ((hoccupy _).trans hfree)
  · rw [he]
    exact .of_failure_none ((hoccupy _).trans hfree)
  · rw [he]
    refine explained_enter ((hoccupy _).trans hfree) ht ?_
    rw [mapRun_run, mem_current_occupy]
    exact Or.inr rfl

/-- A failure goes with the failed status, so a run that goes on has none. -/
theorem failure_eq_none_of_running (hfailed : m.run.failure.isSome = true ↔ m.run.status = .failed)
    (hrunning : m.isRunning = true) : m.run.failure = none := by
  rw [isRunning_iff] at hrunning
  rw [← Option.not_isSome_iff_eq_none, hfailed, hrunning]
  nofun

/-- After the turn of a state the run bears out whatever has failed it. -/
theorem explained_turned {rest : List String} {moved : Bool} {after : Machine}
    (hs : d.state? s.id = some s) (hrunning : m.isRunning = true)
    (hturned : Turned host d occupied s m moved after) (hm : Midway d (s.id :: rest) m.run) :
    Explained host d after := by
  have hfree := failure_eq_none_of_running hm.failed hrunning
  have hself := hm.rest_occupied s.id (List.mem_cons_self ..)
  cases hturned with
  | stays => exact .of_failure_none hfree
  | fires => exact explained_enter hfree hs hself
  | fails hkind hwaits hasked htargets =>
    intro f hf _
    obtain rfl := Option.some.inj hf
    exact borne_targets hs hself hasked htargets
  | @goes asked targets hkind hwaits hasked htargets hleads =>
    have hleft : (asked.leave host s).run.failure = none := by
      rw [leave_failure, hasked.failure_eq, hfree]
    refine (arriveAll_keeps (P := fun after => Explained host d after ∧
      (after.run.failure.isSome = true ↔ after.run.status = .failed)) ?_
      (hasked.isRunning_leave host s hrunning) ⟨.of_failure_none hleft, ?_⟩).1
    · intro t ht before hgoing hbefore
      refine ⟨explained_arriveAt (failure_eq_none_of_running hbefore.2 hgoing) (hleads t ht).1, ?_⟩
      rcases arriveAt_status host s.id before t with ⟨hstatus, hkept⟩ | ⟨-, message, hstatus, hmet⟩
      · rw [hstatus, hkept]
        exact hbefore.2
      · rw [hstatus, hmet]
        exact iff_of_true rfl rfl
    · rw [leave_failure, leave_status, hasked.failure_eq, hasked.status_eq]
      exact hm.failed

theorem explained_conclude {moved : Bool}
    (hfailed : m.run.failure.isSome = true ↔ m.run.status = .failed) (h : Explained host d m) :
    Explained host d ((m.conclude d moved).touch host) := by
  suffices hconcluded : Explained host d (m.conclude d moved) from
    hconcluded.of_eq rfl rfl rfl rfl rfl
  unfold conclude
  split
  · exact h
  · rename_i hstopped
    split
    · have hfree := failure_eq_none_of_running hfailed (by simpa using hstopped)
      exact .of_failure_none hfree
    · split
      · intro f hf hkind
        obtain rfl := Option.some.inj hf
        exact absurd rfl hkind
      · exact h

theorem explained_advance (hsound : d.Sound) (hrest : AtRest d m.run) (h : Explained host d m) :
    Explained host d (m.leftBy (m.advance host d)) := by
  refine leftBy_advance (P := fun rest m => Midway d rest m.run ∧ Explained host d m) hsound.valid
    (fun hrunning => ⟨midway_of_atRest hrunning hrest, h⟩)
    (fun _ _ hm id hid => hm.1.declared id (hm.1.rest_occupied id hid))
    (fun _ _ asked ha hm => ⟨midway_alike ha.toAlike hm.1, hm.2.of_run_eq ha.run_eq⟩) ?_
    (fun _ moved m _ hm => explained_conclude hm.1.failed hm.2)
    (fun _ _ _ hm => hm.2)
    (fun after ha => h.of_run_eq ha.run_eq)
  intro s rest before moved after hs hrunning hturned hm
  exact ⟨midway_turned hsound.valid hs hrunning hturned hm.1,
    explained_turned hs hrunning hturned hm.1⟩

/-- The next step of a knotted run does nothing but declare the deadlock. -/
theorem advance_of_knotted (h : AtRest d m.run) (hrunning : m.isRunning = true)
    (hknotted : Knotted d m.run) :
    m.advance host d = .ok ((m.fail (.deadlock m.run.current)).touch host) := by
  have hstays := (knotted_iff h.toCoherent).mp hknotted
  obtain ⟨id, hid, hopen⟩ := exists_open_of_isRunning h hrunning
  have hnot : (!m.run.current.isEmpty && m.run.current.all (isTerminal d)) = false := by
    rw [Bool.and_eq_false_iff]
    right
    rw [List.all_eq_false]
    exact ⟨id, hid, by simp [hopen]⟩
  unfold advance
  rw [if_neg (not_not.mpr h.workflow)]
  simp only [hrunning, Bool.not_true, Bool.false_eq_true, if_false,
    moveAll_of_stays hrunning hstays, conclude, hnot, Bool.not_false, if_true]

theorem kept_borne (host : Host) (hsound : d.Sound) :
    Kept host d fun m => AtRest d m.run ∧ ∀ f, m.run.failure = some f → Borne host d m.run f where
  unmoved := by
    intro m after ha hm
    refine ⟨atRest_alike ha.toAlike hm.1, ?_⟩
    rw [ha.run_eq]
    exact hm.2
  restated := by
    intro kind m after ha hm
    refine ⟨atRest_restated ha hm.1, ?_⟩
    intro f hf
    exact (hm.2 f (by rw [← hf, ha.run])).of_eq (by rw [ha.run]) (by rw [ha.run]) (by rw [ha.run])
      (by rw [ha.run])
  advanced := by
    intro m hm
    obtain ⟨hrest, hborne⟩ := hm
    refine ⟨(kept_atRest hsound).advanced m hrest, ?_⟩
    by_cases hdead : m.isRunning = true ∧ Deadlocked (m.leftBy (m.advance host d)).run
    · obtain ⟨hrunning, hdead⟩ := hdead
      have hknotted := (deadlocked_advance_iff hsound.valid hrest hrunning).mp hdead
      intro f hf
      rw [advance_of_knotted hrest hrunning hknotted] at hf ⊢
      obtain rfl := Option.some.inj hf
      exact (hknotted.borne (exists_open_of_isRunning hrest hrunning) host).of_eq rfl rfl rfl rfl
    · intro f hf
      by_cases hkind : f.kind = "Deadlock"
      · have hstopped : m.isRunning = false :=
          Bool.eq_false_iff.mpr fun hrunning => hdead ⟨hrunning, f, hf, hkind⟩
        unfold advance at hf ⊢
        simp only [hrest.workflow, ne_eq, not_true_eq_false, if_false, hstopped, Bool.not_false,
          if_true] at hf ⊢
        exact hborne f hf
      · exact explained_advance hsound hrest (fun f hf _ => hborne f hf) f hf hkind

/-- Whatever is asked of a run of a valid definition, and whatever guards and actions answer, a
failed run bears out the verdict that was given, which is never that a state is not declared. -/
theorem borne_after {text : String} {name : Option String} {d : Definition}
    (hparse : Definition.parse text name = .ok d) (hv : d.validate.hasErrors = false)
    {host : Host} {bindings : Fields} {id : String} {reads judged invoked : Nat} {m : Machine}
    (hstart : start host d bindings id reads judged invoked = .ok m) (calls : List Call)
    (hfailed : (m.after host d calls).run.status = .failed) :
    ∃ f, (m.after host d calls).run.failure = some f ∧ f.kind ≠ "UnknownState" ∧
      Borne host d (m.after host d calls).run f := by
  have hsound : d.Sound := Definition.sound_of_parse hparse hv
  have hkept := (kept_borne host hsound).reached (m := m)
    (fun before initial hinitial hrun _ => by
      rw [hrun]
      refine ⟨atRest_fresh hinitial, ?_⟩
      intro f hf
      cases hf) hstart calls
  obtain ⟨f, hf⟩ := Option.isSome_iff_exists.mp (hkept.1.failed.mpr hfailed)
  exact ⟨f, hf, (hkept.2 f hf).kind_ne_unknownState, hkept.2 f hf⟩

/-- One branch closes the way out of the other before that has its turn. -/
def closingBranch : List String :=
  ["name: closing", "", "state F <<fork>>", "state J <<join>>", "[*] --> F", "F --> A", "F --> B",
    "A --> C", "B --> J : {door}", "C --> J", "J --> [*]", "## Actions", "- C: Set door = no"]

theorem borne_after_closingBranch :
    ∃ d m, Definition.parse (Text.unlines closingBranch) none = .ok d ∧
      d.validate.hasErrors = false ∧
      start quietHost d [("door", .text "yes")] "run-1" 0 0 0 = .ok m ∧
      (m.after quietHost d [.advance, .advance]).run.status = .failed ∧
      Borne quietHost d (m.after quietHost d [.advance, .advance]).run (.stuck "B") := by
  obtain ⟨d, m, hparse, hv, hstart, htest⟩ := exists_started closingBranch [("door", .text "yes")]
    (fun d m => decide
      ((m.after quietHost d [.advance, .advance]).run.status = .failed ∧
        (m.after quietHost d [.advance, .advance]).run.failure = some (.stuck "B")))
    (by decide) (by decide +kernel)
  obtain ⟨hfailed, hstuck⟩ := of_decide_eq_true htest
  obtain ⟨f, hf, -, hborne⟩ := borne_after hparse hv hstart [.advance, .advance] hfailed
  obtain rfl : f = .stuck "B" := Option.some.inj (hf.symm.trans hstuck)
  exact ⟨d, m, hparse, hv, hstart, hfailed, hborne⟩

end Machine

end Runbook.Workflow
