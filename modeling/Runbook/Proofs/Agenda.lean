import Runbook.Proofs.Visits

/-!
What a run asks its host to do. Actions are carried out where a state is entered and nowhere else,
one after another, each on the variables that the one before it left, until one of them fails and
the run with it. So what the host was asked to do is the agenda of the visits, in their order, and
only the agenda of the last visit may be cut short, behind the action that failed the run.
-/
namespace Runbook.Workflow

namespace Definition

/-- The actions of a state, with its identifier. -/
def duties (d : Definition) (id : String) : List (String × Action) :=
  match d.state? id with
  | some s => s.actions.map (id, ·)
  | none => []

/-- The actions of states that are entered one after another. -/
def agenda (d : Definition) (ids : List String) : List (String × Action) := ids.flatMap d.duties

theorem duties_of_state? {d : Definition} {s : State} (h : d.state? s.id = some s) :
    d.duties s.id = s.actions.map (s.id, ·) := by
  unfold duties
  rw [h]

theorem agenda_concat (d : Definition) (ids : List String) (id : String) :
    d.agenda (ids ++ [id]) = d.agenda ids ++ d.duties id := by
  simp [agenda]

end Definition

/-- How a run stands with its host: how many actions it has asked for, the variables that they
left, and what was wrong with each of them. -/
structure Account where
  asked : Nat
  bindings : Fields
  faults : List (Option String)

namespace Account

/-- One more action is carried out, for a run of a workflow. -/
def add (host : Host) (run workflow : String) (a : Account) (duty : String × Action) : Account :=
  let response := host.invoke a.asked duty.2 ⟨run, workflow, duty.1, a.bindings⟩
  ⟨a.asked + 1, response.bindings, a.faults ++ [response.outcome.fault?]⟩

def after (host : Host) (run workflow : String) (a : Account) (done : List (String × Action)) :
    Account := done.foldl (add host run workflow) a

/-- None of the actions has failed. -/
def Clear (faults : List (Option String)) : Prop := ∀ fault ∈ faults, fault = none

theorem Clear.concat {faults : List (Option String)} (h : Clear faults) :
    Clear (faults ++ [none]) := by
  intro fault hfault
  rcases List.mem_append.mp hfault with hfault | hfault
  · exact h fault hfault
  · exact List.mem_singleton.mp hfault

end Account

namespace Machine

open Account (Clear)

variable {host : Host} {d : Definition} {id : String} {first : Account} {m after : Machine}
  {s : State} {occupied : List String} {told : List (String × Action)}
  {faults : List (Option String)}

section Billing

/-- The run has asked its host for some actions since its account was opened, with some faults. -/
structure Billed (host : Host) (d : Definition) (id : String) (first : Account) (m : Machine)
    (told : List (String × Action)) (faults : List (Option String)) : Prop where
  run : m.run.id = id
  workflow : m.run.workflow = d.name
  invocations : m.journal.invocations = told
  account : first.after host id d.name told = ⟨m.invoked, m.run.bindings, faults⟩

/-- Between the two machines no state was entered and no action asked for. -/
structure Idle (m after : Machine) : Prop where
  run : after.run.id = m.run.id
  workflow : after.run.workflow = m.run.workflow
  bindings : after.run.bindings = m.run.bindings
  visited : after.run.history.map Visit.state = m.run.history.map Visit.state
  invocations : after.journal.invocations = m.journal.invocations
  invoked : after.invoked = m.invoked

theorem Billed.idle (h : Billed host d id first m told faults) (ha : Idle m after) :
    Billed host d id first after told faults where
  run := ha.run.trans h.run
  workflow := ha.workflow.trans h.workflow
  invocations := ha.invocations.trans h.invocations
  account := by
    rw [ha.invoked, ha.bindings]
    exact h.account

theorem idle_unmoved (ha : Unmoved m after) : Idle m after := by
  have hrun := ha.run_eq
  exact ⟨by rw [hrun], by rw [hrun], by rw [hrun], by rw [hrun], ha.invocations, ha.invoked⟩

theorem idle_fail (m : Machine) (f : Failure) : Idle m (m.fail f) :=
  ⟨rfl, rfl, rfl, rfl, (emit_invocations ..).trans (log_invocations ..), rfl⟩

theorem idle_fire (join : String) (m : Machine) : Idle m (m.fire join) :=
  ⟨rfl, rfl, rfl, rfl, log_invocations .., rfl⟩

theorem idle_occupy (m : Machine) (id : String) : Idle m (m.mapRun fun r => r.occupy id) := by
  refine ⟨?_, ?_, ?_, ?_, rfl, rfl⟩ <;> rw [mapRun_run, Run.occupy_eq]

theorem idle_leave (host : Host) (m : Machine) (s : State) : Idle m (m.leave host s) := by
  refine ⟨?_, leave_workflow .., ?_, leave_states .., ?_, (leave_counts host m s).2⟩
  · rw [leave_run]
    split <;> rfl
  · rw [leave_run]
    split <;> rfl
  · unfold leave
    split
    · rfl
    · simp only
      rw [emit_invocations]
      split <;> rfl

theorem idle_complete (m : Machine) : Idle m m.complete :=
  ⟨rfl, rfl, rfl, rfl, (emit_invocations ..).trans (log_invocations ..), rfl⟩

theorem idle_touch (host : Host) (m : Machine) : Idle m (m.touch host) :=
  ⟨rfl, rfl, rfl, rfl, rfl, rfl⟩

theorem idle_restated {kind : EventKind} (ha : Restated kind m after) : Idle m after :=
  ⟨by rw [ha.run], by rw [ha.run], by rw [ha.run], by rw [ha.run], ha.invocations, ha.invoked⟩

end Billing

section Acting

/-- The response to an action that is asked for next. -/
def response (host : Host) (m : Machine) (state : String) (a : Action) : Response :=
  host.invoke m.invoked a ⟨m.run.id, m.run.workflow, state, m.run.bindings⟩

/-- A machine that has had an action carried out. -/
def carried (host : Host) (m : Machine) (state : String) (a : Action) : Machine :=
  ({ m with invoked := m.invoked + 1 }.mapRun fun r =>
    { r with bindings := (m.response host state a).bindings }).note
      (.invoked state a :: (m.response host state a).effects.entries)

theorem act_cons (state : String) (a : Action) (rest : List Action) :
    act host state (a :: rest) m =
      match (m.response host state a).outcome.fault? with
      | some message => (m.carried host state a).fail (.actionFailed state message)
      | none => act host state rest (m.carried host state a) := rfl

theorem Billed.carried (h : Billed host d id first m told faults) (state : String) (a : Action) :
    Billed host d id first (m.carried host state a) (told ++ [(state, a)])
      (faults ++ [(m.response host state a).outcome.fault?]) where
  run := h.run
  workflow := h.workflow
  invocations := by
    unfold Machine.carried note
    rw [mapRun_journal, invocations_append, h.invocations]
    have hquiet : Journal.invocations (m.response host state a).effects.entries = [] :=
      invocations_entries _
    exact congrArg (fun more => told ++ (state, a) :: more) hquiet
  account := by
    have hlast : first.after host id d.name (told ++ [(state, a)]) =
        (first.after host id d.name told).add host id d.name (state, a) := List.foldl_concat ..
    rw [hlast, h.account, ← h.run, ← h.workflow]
    rfl

/-- Actions are carried out until one of them fails, and the run with it. -/
theorem Billed.act (h : Billed host d id first m told faults) (hclear : Clear faults)
    (state : String) (actions : List Action) :
    (∃ faults', Clear faults' ∧ (act host state actions m).run.failure = m.run.failure ∧
      Billed host d id first (act host state actions m) (told ++ actions.map (state, ·)) faults') ∨
    ∃ ran failing rest message faults', actions = ran ++ failing :: rest ∧ Clear faults' ∧
      (act host state actions m).run.status = .failed ∧
      (act host state actions m).run.failure = some (.actionFailed state message) ∧
      Billed host d id first (act host state actions m)
        (told ++ (ran ++ [failing]).map (state, ·)) (faults' ++ [some message]) := by
  induction actions generalizing m told faults with
  | nil =>
    refine Or.inl ⟨faults, hclear, rfl, ?_⟩
    rw [List.map_nil, List.append_nil]
    exact h
  | cons a rest ih =>
    have hcarried := h.carried state a
    rw [act_cons]
    cases hfault : (m.response host state a).outcome.fault? with
    | some message =>
      rw [hfault] at hcarried
      exact Or.inr ⟨[], a, rest, message, faults, rfl, hclear, rfl, rfl,
        hcarried.idle (idle_fail ..)⟩
    | none =>
      rw [hfault] at hcarried
      have hmore : ∀ more : List Action, told ++ (a :: more).map (state, ·) =
          told ++ [(state, a)] ++ more.map (state, ·) := by simp
      rcases ih hcarried hclear.concat with ⟨faults', hclear', hfailure, hbilled⟩ |
        ⟨ran, failing, rest', message, faults', rfl, hclear', hstatus, hfailure, hbilled⟩
      · refine Or.inl ⟨faults', hclear', hfailure, ?_⟩
        rw [hmore]
        exact hbilled
      · refine Or.inr ⟨a :: ran, failing, rest', message, faults', rfl, hclear', hstatus, hfailure,
          ?_⟩
        rw [List.cons_append, hmore]
        exact hbilled

end Acting

section Visiting

/-- Every action of every visit has been carried out, and none of them has failed. -/
def Fulfilled (host : Host) (d : Definition) (id : String) (first : Account) (m : Machine) :
    Prop :=
  (∀ f, m.run.failure = some f → f.kind ≠ "ActionFailed") ∧
    ∃ faults, Clear faults ∧
      Billed host d id first m (d.agenda (m.run.history.map Visit.state)) faults

/-- The last visit was cut short by an action that failed, after all others had been carried out. -/
def CutShort (host : Host) (d : Definition) (id : String) (first : Account) (m : Machine) :
    Prop :=
  m.run.status = .failed ∧ ∃ earlier last ran failing rest message faults,
    m.run.history.map Visit.state = earlier ++ [last] ∧
    d.duties last = ran ++ failing :: rest ∧ Clear faults ∧
    m.run.failure = some (.actionFailed last message) ∧
    Billed host d id first m (d.agenda earlier ++ (ran ++ [failing])) (faults ++ [some message])

/-- What a run has asked its host for is what its visits call for. -/
def Attended (host : Host) (d : Definition) (id : String) (first : Account) (m : Machine) : Prop :=
  Fulfilled host d id first m ∨ CutShort host d id first m

theorem Fulfilled.idle (h : Fulfilled host d id first m) (ha : Idle m after)
    (hfailure : after.run.failure = m.run.failure) : Fulfilled host d id first after := by
  obtain ⟨hother, faults, hclear, hbilled⟩ := h
  refine ⟨fun f hf => hother f (hfailure ▸ hf), faults, hclear, ?_⟩
  rw [ha.visited]
  exact hbilled.idle ha

/-- A failure that no action is to blame for cuts nothing short. -/
theorem Fulfilled.failed (h : Fulfilled host d id first m) {f : Failure}
    (hkind : f.kind ≠ "ActionFailed") : Fulfilled host d id first (m.fail f) := by
  obtain ⟨-, faults, hclear, hbilled⟩ := h
  refine ⟨?_, faults, hclear, hbilled.idle (idle_fail m f)⟩
  intro other hother
  rw [← Option.some.inj hother]
  exact hkind

theorem Attended.idle (h : Attended host d id first m) (ha : Idle m after)
    (hstatus : after.run.status = m.run.status) (hfailure : after.run.failure = m.run.failure) :
    Attended host d id first after := by
  rcases h with hfulfilled | ⟨hfailed, earlier, last, ran, failing, rest, message, faults, hvisited,
    hduties, hclear, hcause, hbilled⟩
  · exact Or.inl (hfulfilled.idle ha hfailure)
  · exact Or.inr ⟨hstatus.trans hfailed, earlier, last, ran, failing, rest, message, faults,
      ha.visited.trans hvisited, hduties, hclear, hfailure.trans hcause, hbilled.idle ha⟩

/-- While a run goes on, nothing has been cut short. -/
theorem Attended.fulfilled (h : Attended host d id first m) (hrunning : m.isRunning = true) :
    Fulfilled host d id first m := by
  refine h.resolve_right fun hcut => ?_
  have hfailed := hcut.1
  rw [(isRunning_iff m).mp hrunning] at hfailed
  cases hfailed

/-- Entering a state carries out its actions, or cuts them short. -/
theorem Fulfilled.enter (h : Fulfilled host d id first m) (hs : d.state? s.id = some s) :
    Attended host d id first (m.enter host s) := by
  obtain ⟨hother, faults, hclear, hbilled⟩ := h
  have hopened : Billed host d id first (m.opened host s)
      (d.agenda (m.run.history.map Visit.state)) faults :=
    ⟨hbilled.run, hbilled.workflow, (emit_invocations ..).trans hbilled.invocations,
      hbilled.account⟩
  have hvisited : (m.enter host s).run.history.map Visit.state =
      m.run.history.map Visit.state ++ [s.id] := by
    rw [enter_history, List.map_append]
    rfl
  have hduties := Definition.duties_of_state? hs
  rcases hopened.act hclear s.id s.actions with ⟨faults', hclear', hfailure, hdone⟩ |
    ⟨ran, failing, rest, message, faults', hactions, hclear', hstatus, hfailure, hdone⟩
  · left
    refine ⟨fun f hf => hother f (hfailure.symm.trans hf), faults', hclear', ?_⟩
    rw [hvisited, Definition.agenda_concat, hduties]
    exact hdone
  · right
    refine ⟨hstatus, m.run.history.map Visit.state, s.id, ran.map (s.id, ·), (s.id, failing),
      rest.map (s.id, ·), message, faults', hvisited, ?_, hclear', hfailure, ?_⟩
    · rw [hduties, hactions, List.map_append, List.map_cons]
    · rw [List.map_append] at hdone
      exact hdone

theorem Fulfilled.arriveAt (h : Fulfilled host d id first m) (source : String)
    (hs : d.state? s.id = some s) : Attended host d id first (m.arriveAt host source s) := by
  have hoccupied : Fulfilled host d id first (m.mapRun fun r => r.occupy s.id) := by
    refine h.idle (idle_occupy m s.id) ?_
    rw [mapRun_run, Run.occupy_eq]
  rcases arriveAt_cases host source m s with ⟨-, he⟩ | ⟨-, payload, he⟩ | ⟨-, -, he⟩
  · rw [he]
    exact Or.inl hoccupied
  · rw [he]
    refine Or.inl (h.idle ⟨?_, ?_, ?_, ?_, emit_invocations .., rfl⟩ ?_) <;>
      (rw [emit_run, mapRun_run, Run.occupy_eq]; rfl)
  · rw [he]
    exact hoccupied.enter hs

theorem Fulfilled.turned {moved : Bool} (h : Fulfilled host d id first m)
    (hs : d.state? s.id = some s) (hrunning : m.isRunning = true)
    (hturned : Turned host d occupied s m moved after) : Attended host d id first after := by
  cases hturned with
  | stays => exact Or.inl h
  | fires => exact (h.idle (idle_fire s.id m) rfl).enter hs
  | fails hkind hwaits hasked htargets hcause =>
    have hasked' := h.idle (idle_unmoved hasked) hasked.failure_eq
    rcases hcause with rfl | ⟨message, rfl⟩
    · exact Or.inl (hasked'.failed (by simp [Failure.stuck]))
    · exact Or.inl (hasked'.failed (by simp [Failure.guardError]))
  | @goes asked targets hkind hwaits hasked htargets hleads =>
    have hasked' := h.idle (idle_unmoved hasked) hasked.failure_eq
    have hleft := hasked'.idle (idle_leave host asked s) (leave_failure ..)
    refine arriveAll_keeps (P := Attended host d id first) ?_
      (hasked.isRunning_leave host s hrunning) (Or.inl hleft)
    intro t ht before hgoing hbefore
    exact (hbefore.fulfilled hgoing).arriveAt s.id (hleads t ht).1

theorem Attended.conclude (h : Attended host d id first m) (moved : Bool) :
    Attended host d id first ((m.conclude d moved).touch host) := by
  have htouched : ∀ ended : Machine, Attended host d id first ended →
      Attended host d id first (ended.touch host) :=
    fun ended hended => hended.idle (idle_touch host ended) rfl rfl
  apply htouched
  unfold Machine.conclude
  split
  · exact h
  · rename_i hstopped
    have hfulfilled := h.fulfilled (by simpa using hstopped)
    split
    · exact Or.inl (hfulfilled.idle (idle_complete m) rfl)
    · split
      · exact Or.inl (hfulfilled.failed (by simp [Failure.deadlock]))
      · exact h

theorem Attended.restated {kind : EventKind} (h : Attended host d id first m)
    (ha : Restated kind m after) : Attended host d id first after := by
  have hfulfilled : Fulfilled host d id first m := by
    refine h.resolve_right fun hcut => ?_
    have hopen := ha.requested.unfinished
    rw [hcut.1] at hopen
    cases hopen
  exact Or.inl (hfulfilled.idle (idle_restated ha) (by rw [ha.run]))

theorem kept_attended (hlinked : d.Linked) : Kept host d (Attended host d id first) where
  unmoved := fun _ _ ha h => h.idle (idle_unmoved ha) ha.status_eq ha.failure_eq
  restated := fun _ _ _ ha h => h.restated ha
  advanced := fun _ hm => leftBy_advance_holds hlinked
    (fun _ _ ha h => h.idle (idle_unmoved ha) ha.status_eq ha.failure_eq)
    (fun _ _ hrunning h =>
      Or.inl ((h.fulfilled hrunning).failed (by simp [Failure.unknownState])))
    (fun _ _ _ _ _ hs hrunning hturned h => (h.fulfilled hrunning).turned hs hrunning hturned)
    (fun moved _ h => h.conclude moved) hm

end Visiting

/-- Whatever is asked of a run, its host is asked for the actions of its visits, in the order of the
visits and each list in its own order, on the variables that the actions before left. None of them
fails and no list is cut short, unless the run has failed over an action: then that is the last
action it asked for, and it belongs to the last visit. -/
theorem invocations_after {d : Definition} (hv : d.validate.hasErrors = false) {host : Host}
    {bindings : Fields} {id : String} {reads judged invoked : Nat} {m : Machine}
    (hstart : start host d bindings id reads judged invoked = .ok m) (calls : List Call) :
    let final := m.after host d calls
    let visited := final.run.history.map Visit.state
    let account := Account.after host id d.name ⟨invoked, bindings, []⟩ final.journal.invocations
    account.asked = final.invoked ∧ account.bindings = final.run.bindings ∧
    ((∀ f, final.run.failure = some f → f.kind ≠ "ActionFailed") →
      final.journal.invocations = d.agenda visited ∧ ∀ fault ∈ account.faults, fault = none) ∧
    ∀ f, final.run.failure = some f → f.kind = "ActionFailed" →
      ∃ earlier last ran failing rest message faults,
        visited = earlier ++ [last] ∧ d.duties last = ran ++ failing :: rest ∧
        final.journal.invocations = d.agenda earlier ++ (ran ++ [failing]) ∧
        account.faults = faults ++ [some message] ∧ (∀ fault ∈ faults, fault = none) ∧
        f = .actionFailed last message := by
  intro final visited account
  have hattended : Attended host d id ⟨invoked, bindings, []⟩ final := by
    refine (kept_attended (Definition.linked_of_valid hv)).begun ?_ hstart calls
    intro initial _
    exact Or.inl ⟨nofun, [], nofun, rfl, rfl, begun_invocations, rfl⟩
  rcases hattended with ⟨hother, faults, hclear, hbilled⟩ |
    ⟨-, earlier, last, ran, failing, rest, message, faults, hvisited, hduties, hclear, hfailure,
      hbilled⟩
  · have haccount : account = ⟨final.invoked, final.run.bindings, faults⟩ := by
      change Account.after _ _ _ _ final.journal.invocations = _
      rw [hbilled.invocations]
      exact hbilled.account
    rw [haccount]
    exact ⟨rfl, rfl, fun _ => ⟨hbilled.invocations, hclear⟩,
      fun f hf hkind => absurd hkind (hother f hf)⟩
  · have haccount : account = ⟨final.invoked, final.run.bindings, faults ++ [some message]⟩ := by
      change Account.after _ _ _ _ final.journal.invocations = _
      rw [hbilled.invocations]
      exact hbilled.account
    rw [haccount]
    refine ⟨rfl, rfl, fun hnone => absurd rfl (hnone _ hfailure), fun f hf _ => ?_⟩
    exact ⟨earlier, last, ran, failing, rest, message, faults, hvisited, hduties,
      hbilled.invocations, rfl, hclear, Option.some.inj (hf.symm.trans hfailure)⟩

/-- A fork whose first branch has a prompt that is not there among its actions. -/
def missingPrompt : List String :=
  ["name: missing", "", "state F <<fork>>", "state J <<join>>", "[*] --> F", "F --> A", "F --> B",
    "A --> J", "B --> J", "J --> [*]", "## Actions", "- F: Set ready = yes", "- A: Log \"begun\"",
    "- A: Execute prompt \"plan\"", "- A: Log \"done\"", "- B: Log \"late\""]

/-- The first branch is cut short at its second action, and the second branch is not entered. -/
theorem invocations_after_missingPrompt :
    ∃ d m, Definition.parse (Text.unlines missingPrompt) none = .ok d ∧
      d.validate.hasErrors = false ∧ start quietHost d [] "run-1" 0 0 0 = .ok m ∧
      let final := m.after quietHost d [.suspend, .resume, .advance, .advance]
      final.run.history.map Visit.state = ["F", "A"] ∧
      ∃ ran failing rest message, d.duties "A" = ran ++ failing :: rest ∧ rest ≠ [] ∧
        final.journal.invocations = d.agenda ["F"] ++ (ran ++ [failing]) ∧
        final.run.failure = some (.actionFailed "A" message) := by
  obtain ⟨d, m, hparse, hv, hstart, htest⟩ := exists_started missingPrompt []
    (fun d m =>
      let final := m.after quietHost d [.suspend, .resume, .advance, .advance]
      decide (final.run.history.map Visit.state = ["F", "A"] ∧
        final.run.failure.map Failure.kind = some "ActionFailed" ∧
        (d.agenda ["F"]).length = 1 ∧ (d.duties "A").length = 3 ∧
        final.journal.invocations.length = 3))
    (by decide) (by decide +kernel)
  obtain ⟨hvisited, hkind, hone, hthree, hcount⟩ := of_decide_eq_true htest
  obtain ⟨f, hf, hfkind⟩ := Option.map_eq_some_iff.mp hkind
  obtain ⟨-, -, -, hcut⟩ :=
    invocations_after hv hstart [.suspend, .resume, .advance, .advance]
  obtain ⟨earlier, last, ran, failing, rest, message, faults, hlast, hlist, htold, -, -, rfl⟩ :=
    hcut f hf hfkind
  have hsplit : ["F"] ++ ["A"] = earlier ++ [last] := hvisited.symm.trans hlast
  obtain ⟨rfl, hid⟩ := List.append_inj' hsplit rfl
  obtain rfl : "A" = last := List.singleton_inj.mp hid
  refine ⟨d, m, hparse, hv, hstart, hvisited, ran, failing, rest, message, hlist, ?_, htold, hf⟩
  intro hnone
  rw [hlist, List.length_append, List.length_cons, hnone, List.length_nil] at hthree
  rw [htold, List.length_append, List.length_append, List.length_singleton, hone] at hcount
  omega

end Machine

end Runbook.Workflow
