import Runbook.Proofs.Calls
import Runbook.Proofs.Documents
import Runbook.Proofs.Endpoints

/-!
Steps that are not broken off. Where transitions join declared states and every guard is judged, a
step of any run comes to its end, whatever states the run is said to occupy. Whichever state is
looked up on the way is declared, also where the end of the step tests the occupied ones, since a
state that the definition does not know fails the run at its turn. So a run is refused its start
only for what validation has found.
-/
namespace Runbook.Workflow

namespace Host

/-- Every guard is judged: it holds, does not hold, or has no value. -/
def Judges (host : Host) : Prop := ∀ why, ¬ host.Interrupts why

/-- A host to which a guard has no value that cannot be judged. -/
def steadied (host : Host) : Host :=
  { host with guard := fun asked guard bindings =>
      match host.guard asked guard bindings with
      | .error (.interrupted why) => .error (.valueless why.message)
      | answer => answer }

theorem judges_steadied (host : Host) : host.steadied.Judges := by
  intro why hparts
  obtain ⟨asked, guard, bindings, h⟩ := hparts
  unfold steadied at h
  simp only at h
  split at h
  · cases h
  · rename_i hnot
    exact hnot why h

end Host

namespace Machine

/-- Whether only terminal states are among some states, which are looked up one after another until
one is not terminal. -/
def testTerminal (d : Definition) : List String → Except Interruption Bool
  | [] => .ok true
  | id :: rest =>
    match d.state? id with
    | none => .error (.stray id)
    | some s => if s.kind = .terminal then testTerminal d rest else .ok false

/-- What a step comes to, with the occupied states looked up that are tested. -/
def concludeTesting (d : Definition) (moved : Bool) (m : Machine) :
    Except Interrupted Machine :=
  if !m.isRunning then .ok m
  else
    match testTerminal d m.run.current with
    | .error why => .error ⟨why, m⟩
    | .ok only =>
      .ok (if !m.run.current.isEmpty && only then m.complete
        else if !moved then m.fail (.deadlock m.run.current)
        else m)

/-- One step of a run whose end may break off as well. -/
def advanceTesting (host : Host) (d : Definition) (m : Machine) : Except Refusal Machine :=
  if m.run.workflow ≠ d.name then .error (.foreign m.run.id m.run.workflow d.name)
  else if !m.isRunning then
    .ok (m.log Log.info "Run not advanced" [("status", .text m.run.status.name)])
  else
    match m.moveAll host d m.run.current m.run.current false with
    | .error i => .error (.interrupted i)
    | .ok (moved, m) =>
      match m.concludeTesting d moved with
      | .error i => .error (.interrupted i)
      | .ok m => .ok (m.touch host)

variable {host : Host} {d : Definition} {m after : Machine} {s : State}
  {occupied rest : List String}

section Testing

theorem testTerminal_eq {ids : List String} (h : ∀ id ∈ ids, ∃ s, d.state? id = some s) :
    testTerminal d ids = .ok (ids.all (isTerminal d)) := by
  induction ids with
  | nil => rfl
  | cons id rest ih =>
    obtain ⟨s, hs⟩ := h id (List.mem_cons_self ..)
    obtain rfl : s.id = id := (Definition.mem_of_state? hs).2
    have hrest := ih fun other hother => h other (List.mem_cons_of_mem _ hother)
    rw [List.all_cons, isTerminal_eq hs]
    simp only [testTerminal, hs]
    by_cases hkind : s.kind = .terminal
    · rw [if_pos hkind, hrest]
      simp [hkind]
    · rw [if_neg hkind]
      simp [hkind]

theorem concludeTesting_eq {moved : Bool}
    (h : m.isRunning = true → ∀ id ∈ m.run.current, ∃ s, d.state? id = some s) :
    m.concludeTesting d moved = .ok (m.conclude d moved) := by
  unfold concludeTesting conclude
  by_cases hrunning : m.isRunning = true
  · simp only [hrunning, Bool.not_true, Bool.false_eq_true, if_false]
    rw [testTerminal_eq (h hrunning)]
  · simp only [hrunning, Bool.not_false, if_true]

/-- Every occupied state is declared or has not had its turn. -/
def Known (d : Definition) (rest : List String) (m : Machine) : Prop :=
  ∀ id ∈ m.run.current, id ∈ rest ∨ ∃ s, d.state? id = some s

theorem known_of_current_eq (h : Known d rest m) (he : after.run.current = m.run.current) :
    Known d rest after := by
  unfold Known
  rw [he]
  exact h

theorem known_turned {moved : Bool} (hs : d.state? s.id = some s) (hrunning : m.isRunning = true)
    (hturned : Turned host d occupied s m moved after) (h : Known d (s.id :: rest) m) :
    Known d rest after := by
  have hpast : Known d rest m := by
    intro id hid
    rcases h id hid with hrest | hdeclared
    · rcases List.mem_cons.mp hrest with rfl | hrest
      · exact Or.inr ⟨s, hs⟩
      · exact Or.inl hrest
    · exact Or.inr hdeclared
  cases hturned with
  | stays => exact hpast
  | fires => exact known_of_current_eq hpast (enter_current ..)
  | fails hkind hwaits hasked => exact known_of_current_eq hpast hasked.current_eq
  | @goes asked targets hkind hwaits hasked htargets hleads =>
    have hleft : Known d rest (asked.leave host s) := by
      intro id hid
      rw [leave_current, hasked.current_eq] at hid
      exact hpast id (List.mem_of_mem_erase hid)
    refine arriveAll_keeps (P := Known d rest) ?_ (hasked.isRunning_leave host s hrunning) hleft
    intro t ht before _ hbefore id hid
    rw [arriveAt_current, Run.mem_current_occupy] at hid
    rcases hid with hid | rfl
    · exact hbefore id hid
    · exact Or.inr ⟨t, (hleads t ht).1⟩

/-- Where all turns have been taken and the run goes on, every occupied state is declared. -/
theorem declared_moveAll (hlinked : d.Linked) {moved : Bool}
    (h : moveAll host d occupied m.run.current false m = .ok (moved, after))
    (hrunning : after.isRunning = true) :
    ∀ id ∈ after.run.current, ∃ s, d.state? id = some s := by
  let P : List String → Machine → Prop := fun rest m => m.isRunning = true → Known d rest m
  have hbegin : P m.run.current m := fun _ id hid => Or.inl hid
  have hturns := moveAll_holds host occupied hlinked (P := P)
    (fun id rest m _ _ _ hgoing => absurd hgoing (by simp [not_isRunning_fail]))
    (fun ids m asked ha hm hgoing =>
      known_of_current_eq (hm (ha.isRunning_eq ▸ hgoing)) ha.current_eq)
    (fun s rest m moved after hs hgoing hturned hm _ =>
      known_turned hs hgoing hturned (hm hgoing))
    m.run.current false hbegin
  rw [h] at hturns
  rcases hturns with ⟨flag, last, rest, he, hlast, hrest⟩ | ⟨why, last, rest, he, -⟩
  · cases he
    intro id hid
    rcases hlast hrunning id hid with hmem | hdeclared
    · rw [hrest hrunning] at hmem
      cases hmem
    · exact hdeclared
  · cases he

/-- The end of a step finds every state that it looks up. -/
theorem advanceTesting_eq (hlinked : d.Linked) (m : Machine) :
    m.advanceTesting host d = m.advance host d := by
  unfold advanceTesting advance
  split
  · rfl
  · split
    · rfl
    · cases hmoved : m.moveAll host d m.run.current m.run.current false with
      | error i => rfl
      | ok pair =>
        obtain ⟨moved, last⟩ := pair
        have hdeclared := declared_moveAll hlinked hmoved
        simp only [concludeTesting_eq hdeclared]

end Testing

section Totality

theorem exists_moveAll (hlinked : d.Linked) (hjudges : host.Judges) (occupied ids : List String)
    (moved : Bool) (m : Machine) :
    ∃ moved' after, moveAll host d occupied ids moved m = .ok (moved', after) := by
  have hturns := moveAll_holds host occupied hlinked (P := fun _ _ => True)
    (fun _ _ _ _ _ _ => trivial) (fun _ _ _ _ _ => trivial) (fun _ _ _ _ _ _ _ _ _ => trivial)
    ids moved (trivial : True) (m := m)
  rcases hturns with ⟨moved', after, -, he, -⟩ | ⟨why, -, -, -, hwhy, -⟩
  · exact ⟨moved', after, he⟩
  · exact absurd hwhy (hjudges why)

theorem exists_advance (hlinked : d.Linked) (hjudges : host.Judges)
    (hworkflow : m.run.workflow = d.name) : ∃ after, m.advance host d = .ok after := by
  rcases advance_cases hlinked host m with ⟨after, he, -⟩ | ⟨hother, -⟩ | ⟨i, -, hwhy⟩
  · exact ⟨after, he⟩
  · exact absurd hworkflow hother
  · exact absurd hwhy (hjudges i.why)

theorem exists_start (hv : d.validate.hasErrors = false) (hjudges : host.Judges)
    (bindings : Fields) (id : String) (reads judged invoked : Nat) :
    ∃ m, start host d bindings id reads judged invoked = .ok m := by
  obtain ⟨initial, -, hinitial, -⟩ := Definition.exists_initial hv
  unfold start
  simp only [hv, Bool.false_eq_true, if_false, hinitial]
  generalize hbefore : emit _ _ _ _ = before
  have hworkflow : before.run.workflow = d.name := by
    rw [← hbefore]
    rfl
  obtain ⟨after, he⟩ := exists_advance (Definition.linked_of_valid hv) hjudges hworkflow
  rw [he]
  exact ⟨after, rfl⟩

theorem exists_refusal_start_iff (hjudges : host.Judges) (bindings : Fields) (id : String)
    (reads judged invoked : Nat) :
    (∃ refusal, start host d bindings id reads judged invoked = .error refusal) ↔
      d.validate.hasErrors = true := by
  constructor
  · intro hparts
    obtain ⟨refusal, hrefused⟩ := hparts
    by_contra hvalid
    obtain ⟨m, hm⟩ := exists_start (Bool.eq_false_iff.mpr hvalid) hjudges bindings id reads judged
      invoked
    rw [hrefused] at hm
    cases hm
  · intro herrors
    refine ⟨.invalid d.validate.errors, ?_⟩
    unfold start
    simp only [herrors, if_true]

end Totality

section Unknown

theorem moveAll_of_stopped {ids : List String} {moved : Bool} (h : m.isRunning = false) :
    moveAll host d occupied ids moved m = .ok (moved, m) := by
  cases ids with
  | nil => rfl
  | cons id rest => simp [moveAll, h]

/-- The turns of some states come one after another. -/
theorem moveAll_append (earlier later : List String) (moved : Bool) (m : Machine) :
    moveAll host d occupied (earlier ++ later) moved m =
      moveAll host d occupied earlier moved m >>= fun r =>
        moveAll host d occupied later r.1 r.2 := by
  induction earlier generalizing moved m with
  | nil => rfl
  | cons id rest ih =>
    by_cases hrunning : m.isRunning = true
    · simp only [List.cons_append, moveAll, hrunning, Bool.not_true, Bool.false_eq_true, if_false]
      cases hs : d.state? id with
      | none => exact (moveAll_of_stopped (not_isRunning_fail ..)).symm
      | some s =>
        simp only
        cases m.move host d occupied s with
        | error i => rfl
        | ok pair => exact ih _ _
    · have hstopped : m.isRunning = false := Bool.eq_false_iff.mpr hrunning
      simp only [moveAll_of_stopped hstopped, bind, Except.bind]

/-- The first state that is not declared fails the run, unless the states before it have. -/
theorem failure_of_unknown {earlier later : List String} {id : String} {moved : Bool}
    {before : Machine} (hrunning : m.isRunning = true)
    (hcurrent : m.run.current = earlier ++ id :: later) (hunknown : d.declares id = false)
    (hadvance : m.advance host d = .ok after)
    (hearlier : moveAll host d m.run.current earlier false m = .ok (moved, before))
    (hgoing : before.isRunning = true) :
    after.run.status = .failed ∧ after.run.failure = some (.unknownState id) := by
  have hnone : d.state? id = none := by
    rw [Option.eq_none_iff_forall_ne_some]
    intro s hs
    rw [Definition.declares_iff.mpr ⟨s, hs⟩] at hunknown
    cases hunknown
  have hstep : moveAll host d m.run.current m.run.current false m =
      .ok (moved, before.fail (.unknownState id)) := by
    conv_lhs => rw [hcurrent, moveAll_append, ← hcurrent, hearlier]
    simp only [bind, Except.bind, moveAll, hgoing, hnone, Bool.not_true, Bool.false_eq_true,
      if_false]
  unfold advance at hadvance
  split at hadvance
  · cases hadvance
  · simp only [hrunning, hstep, conclude, not_isRunning_fail, Bool.not_true, Bool.not_false,
      Bool.false_eq_true, if_false, if_true] at hadvance
    cases hadvance
    exact ⟨rfl, rfl⟩

end Unknown

/-- A step of any run by a definition whose transitions join declared states comes to its end, where
every guard is judged, and finds all states that it looks up; the first occupied state that is not
declared fails the run, unless an earlier one has. Every definition that was read or is valid joins
declared states, so a start is refused exactly for an error that validation finds. -/
theorem advance_unbroken (hjudges : host.Judges) :
    (∀ d : Definition, (∃ text name, Definition.parse text name = .ok d) ∨
      d.validate.hasErrors = false → d.Linked) ∧
    (∀ (d : Definition) (m : Machine), d.Linked → m.run.workflow = d.name →
      ∃ after, m.advanceTesting host d = .ok after ∧ m.advance host d = .ok after ∧
        ∀ earlier id later, m.isRunning = true → m.run.current = earlier ++ id :: later →
          (∀ other ∈ earlier, d.declares other = true) → d.declares id = false →
          ∃ moved before,
            moveAll host d m.run.current earlier false m = .ok (moved, before) ∧
            (before.isRunning = true → after.run.status = .failed ∧
              ∃ f, after.run.failure = some f ∧ f.kind = "UnknownState" ∧ f.state = some id)) ∧
    ∀ (d : Definition) (bindings : Fields) (id : String) (reads judged invoked : Nat),
      (∃ refusal, start host d bindings id reads judged invoked = .error refusal) ↔
        d.validate.hasErrors = true := by
  refine ⟨?_, ?_, fun d => exists_refusal_start_iff hjudges⟩
  · intro d hcase
    rcases hcase with ⟨text, name, hparse⟩ | hv
    · exact Definition.linked_of_parse hparse
    · exact Definition.linked_of_valid hv
  · intro d m hlinked hworkflow
    obtain ⟨after, hadvance⟩ := exists_advance hlinked hjudges hworkflow
    refine ⟨after, (advanceTesting_eq hlinked m).trans hadvance, hadvance, ?_⟩
    intro earlier id later hrunning hcurrent _ hunknown
    obtain ⟨moved, before, hearlier⟩ :=
      exists_moveAll hlinked hjudges m.run.current earlier false m
    refine ⟨moved, before, hearlier, fun hgoing => ?_⟩
    obtain ⟨hstatus, hfailure⟩ :=
      failure_of_unknown hrunning hcurrent hunknown hadvance hearlier hgoing
    exact ⟨hstatus, _, hfailure, rfl, rfl⟩

/-- A definition without the state of reviewing that it once had. -/
def withoutReview : List String :=
  ["name: paper", "", "state F <<fork>>", "state J <<join>>", "[*] --> F", "F --> Draft",
    "F --> Budget", "Draft --> J", "Budget --> J", "J --> [*]"]

/-- A run that was in three states when the definition still declared the second of them. -/
def inReview (workflow : String) : Machine :=
  ⟨⟨"run-1", workflow, .running, ["Draft", "Review", "Budget"], [("Sign", [])], [], [], none,
    ⟨0, some 0⟩, ⟨0, some 0⟩⟩, 0, 0, 0, []⟩

/-- The first branch arrives at the join before the missing state fails the run. -/
theorem advance_unbroken_inReview :
    ∃ d after, Definition.parse (Text.unlines withoutReview) none = .ok d ∧ d.Linked ∧
      quietHost.steadied.Judges ∧ (inReview d.name).isRunning = true ∧
      d.declares "Draft" = true ∧ d.declares "Review" = false ∧
      (inReview d.name).advance quietHost.steadied d = .ok after ∧
      after.run.status = .failed ∧
      (∃ f, after.run.failure = some f ∧ f.kind = "UnknownState" ∧ f.state = some "Review") ∧
      ∃ m, start quietHost.steadied d [] "run-2" 0 0 0 = .ok m := by
  obtain ⟨d, hparse, hv, htest⟩ := Definition.exists_read withoutReview
    (fun d =>
      decide (d.declares "Draft" = true ∧ d.declares "Review" = false) &&
        succeedsWith (fun r : Bool × Machine => r.2.isRunning)
          (moveAll quietHost.steadied d ["Draft", "Review", "Budget"] ["Draft"] false
            (inReview d.name)))
    (by decide) (by decide +kernel)
  rw [Bool.and_eq_true, decide_eq_true_eq] at htest
  obtain ⟨⟨hdraft, hreview⟩, hturn⟩ := htest
  have hjudges := Host.judges_steadied quietHost
  obtain ⟨hlinked, hstep, hstart⟩ := advance_unbroken hjudges
  obtain ⟨after, -, hadvance, hfirst⟩ :=
    hstep d (inReview d.name) (hlinked d (Or.inl ⟨_, _, hparse⟩)) rfl
  obtain ⟨moved, before, hbefore, hfailed⟩ := hfirst ["Draft"] "Review" ["Budget"] rfl rfl
    (fun other hother => by rw [List.mem_singleton.mp hother]; exact hdraft) hreview
  obtain ⟨r, hr, hgoing⟩ := succeedsWith_iff.mp hturn
  have hsame : r = (moved, before) := Except.ok.inj (hr.symm.trans hbefore)
  obtain ⟨hstatus, hfailure⟩ := hfailed (by rw [hsame] at hgoing; exact hgoing)
  refine ⟨d, after, hparse, Definition.linked_of_valid hv, hjudges, rfl, hdraft, hreview, hadvance,
    hstatus, hfailure, ?_⟩
  cases hresult : start quietHost.steadied d [] "run-2" 0 0 0 with
  | ok m => exact ⟨m, rfl⟩
  | error refusal =>
    have herrors := (hstart d [] "run-2" 0 0 0).mp ⟨refusal, hresult⟩
    rw [hv] at herrors
    cases herrors

end Machine

end Runbook.Workflow
