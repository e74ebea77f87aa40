import Runbook.Proofs.Operations
import Runbook.Proofs.Success
import Runbook.Proofs.Validity

/-!
The turns of a step. At its turn an occupied state stays, fires as a join, fails the run, or is
left for its targets, one after another; a step gives every state its turn while the run goes on.
What every turn keeps, a whole step keeps, even one that is broken off. Where transitions join
declared states this holds of every run, and only the judge of guards can break a step off.
-/
namespace Runbook.Workflow

namespace Run

variable {r : Run} {id : String}

theorem current_occupy (r : Run) (id : String) :
    (r.occupy id).current = if r.current.contains id then r.current else r.current ++ [id] := by
  unfold occupy
  split <;> rfl

theorem mem_current_occupy {other : String} :
    other ∈ (r.occupy id).current ↔ other ∈ r.current ∨ other = id := by
  unfold occupy
  split
  · rename_i h
    have hid : id ∈ r.current := by simpa using h
    constructor
    · exact Or.inl
    · intro hcase
      rcases hcase with hother | rfl
      · exact hother
      · exact hid
  · simp

theorem nodup_occupy (h : r.current.Nodup) : (r.occupy id).current.Nodup := by
  unfold occupy
  split
  · exact h
  · rename_i hid
    have hnotin : id ∉ r.current := by simpa using hid
    exact List.nodup_append.mpr ⟨h, List.nodup_singleton id, fun a ha b hb heq =>
      hnotin (List.mem_singleton.mp hb ▸ heq ▸ ha)⟩

/-- Occupying a state changes nothing but the occupied states. -/
theorem occupy_eq (r : Run) (id : String) :
    r.occupy id = { r with current := (r.occupy id).current } := by
  unfold occupy
  split <;> rfl

end Run

/-- A failure that a state meets at its turn, or where it is entered. -/
inductive Failure.Met : Failure → Prop
  | stuck (id : String) : Met (.stuck id)
  | guardError (id message : String) : Met (.guardError id message)
  | actionFailed (id message : String) : Met (.actionFailed id message)

theorem Failure.Met.kind_ne {f : Failure} (h : f.Met) :
    f.kind ≠ "Deadlock" ∧ f.kind ≠ "UnknownState" := by
  cases h with
  | stuck => exact ⟨by change "StuckState" ≠ _; decide, by change "StuckState" ≠ _; decide⟩
  | guardError => exact ⟨by change "GuardError" ≠ _; decide, by change "GuardError" ≠ _; decide⟩
  | actionFailed =>
    exact ⟨by change "ActionFailed" ≠ _; decide, by change "ActionFailed" ≠ _; decide⟩

/-- The judge of guards may break off, for a reason. -/
def Host.Interrupts (host : Host) (why : Interruption) : Prop :=
  ∃ asked guard bindings, host.guard asked guard bindings = .error (.interrupted why)

namespace Machine

section Arriving

variable (host : Host) (source : String) (m : Machine) (t : State)

theorem isRunning_occupied (id : String) :
    (m.mapRun fun r => r.occupy id).isRunning = m.isRunning := by
  unfold isRunning
  rw [mapRun_run, Run.occupy_eq]
  rfl

/-- A terminal state is only occupied, a join notes who has arrived, and any other state is entered.
-/
theorem arriveAt_cases :
    (t.kind = .terminal ∧ m.arriveAt host source t = m.mapRun fun r => r.occupy t.id) ∨
    (t.kind = .join ∧ ∃ payload, m.arriveAt host source t =
      (m.mapRun fun r => (r.awaitJoin t.id source).occupy t.id).emit
        .joinWaiting (some t.id) payload) ∨
    (t.kind ≠ .terminal ∧ t.kind ≠ .join ∧ m.arriveAt host source t =
      (m.mapRun fun r => r.occupy t.id).enter host t) := by
  unfold arriveAt
  split
  · rename_i hterminal
    exact Or.inl ⟨hterminal, rfl⟩
  · rename_i hjoin
    exact Or.inr (Or.inl ⟨hjoin, _, rfl⟩)
  · rename_i hterminal hjoin
    exact Or.inr (Or.inr ⟨hterminal, hjoin, rfl⟩)

theorem arriveAt_current :
    (m.arriveAt host source t).run.current = (m.run.occupy t.id).current := by
  rcases arriveAt_cases host source m t with ⟨-, he⟩ | ⟨-, payload, he⟩ | ⟨-, -, he⟩
  · rw [he, mapRun_run]
  · rw [he, emit_run, mapRun_run, Run.current_occupy, Run.current_occupy]
    rfl
  · rw [he, enter_current, mapRun_run]

theorem arriveAt_pending :
    (m.arriveAt host source t).run.pending =
      if t.kind = .join then (m.run.awaitJoin t.id source).pending else m.run.pending := by
  rcases arriveAt_cases host source m t with
    ⟨hterminal, he⟩ | ⟨hjoin, payload, he⟩ | ⟨-, hother, he⟩
  · rw [he, mapRun_run, Run.occupy_eq, hterminal]
    rfl
  · rw [he, emit_run, mapRun_run, Run.occupy_eq, if_pos hjoin]
  · rw [he, enter_pending, mapRun_run, Run.occupy_eq, if_neg hother]

theorem arriveAt_workflow : (m.arriveAt host source t).run.workflow = m.run.workflow := by
  rcases arriveAt_cases host source m t with ⟨-, he⟩ | ⟨-, payload, he⟩ | ⟨-, -, he⟩
  · rw [he, mapRun_run, Run.occupy_eq]
  · rw [he, emit_run, mapRun_run, Run.occupy_eq]
    rfl
  · rw [he, enter_workflow, mapRun_run, Run.occupy_eq]

/-- Arriving leaves the status as it is, or an action of the state, which is not terminal, has
failed. -/
theorem arriveAt_status :
    ((m.arriveAt host source t).run.status = m.run.status ∧
      (m.arriveAt host source t).run.failure = m.run.failure) ∨
    (t.kind ≠ .terminal ∧ ∃ message, (m.arriveAt host source t).run.status = .failed ∧
      (m.arriveAt host source t).run.failure = some (.actionFailed t.id message)) := by
  rcases arriveAt_cases host source m t with ⟨-, he⟩ | ⟨-, payload, he⟩ | ⟨hterminal, -, he⟩
  · left
    rw [he, mapRun_run, Run.occupy_eq]
    exact ⟨rfl, rfl⟩
  · left
    rw [he, emit_run, mapRun_run, Run.occupy_eq]
    exact ⟨rfl, rfl⟩
  · rw [he]
    rcases enter_status host (m.mapRun fun r => r.occupy t.id) t with ⟨hs, hf⟩ | hfailed
    · left
      rw [hs, hf, mapRun_run, Run.occupy_eq]
      exact ⟨rfl, rfl⟩
    · exact Or.inr ⟨hterminal, hfailed⟩

/-- Arrivals at declared states, one after another while the run goes on. -/
def arriveAll (host : Host) (source : String) : List State → Machine → Machine
  | [], m => m
  | t :: rest, m =>
    let m := m.arriveAt host source t
    if m.isRunning then arriveAll host source rest m else m

variable {host source m}

theorem arrive_eq {d : Definition} {targets : List State}
    (h : ∀ t ∈ targets, d.state? t.id = some t) :
    arrive host d source (targets.map State.id) m = .ok (arriveAll host source targets m) := by
  induction targets generalizing m with
  | nil => rfl
  | cons t rest ih =>
    have ht : d.state? t.id = some t := h t (List.mem_cons_self ..)
    simp only [List.map_cons, arrive, ht, arriveAll]
    split
    · exact ih fun u hu => h u (List.mem_cons_of_mem _ hu)
    · rfl

/-- What every arrival keeps, all arrivals keep. -/
theorem arriveAll_keeps {P : Machine → Prop} {targets : List State}
    (harrive : ∀ t ∈ targets, ∀ m, m.isRunning = true → P m → P (m.arriveAt host source t))
    (hrunning : m.isRunning = true) (hm : P m) : P (arriveAll host source targets m) := by
  induction targets generalizing m with
  | nil => exact hm
  | cons t rest ih =>
    have hnext := harrive t (List.mem_cons_self ..) m hrunning hm
    simp only [arriveAll]
    split
    · rename_i hgoing
      exact ih (fun u hu => harrive u (List.mem_cons_of_mem _ hu)) hgoing hnext
    · exact hnext

end Arriving

section Turn

/-- What the first of some exits comes to, whatever the fallback is. -/
theorem select_cons (host : Host) (state : String) (fallback : Option String) (t : Transition)
    (rest : List Transition) (m : Machine) :
    select host state fallback (t :: rest) m =
      match t.guard with
      | none => select host state (fallback.or (some t.target)) rest m
      | some guard =>
        let asked := { m with judged := m.judged + 1 }
        match host.guard m.judged guard m.run.bindings with
        | .error (.valueless message) => .ok (none, asked.fail (.guardError state message))
        | .error (.interrupted why) => .error ⟨why, asked⟩
        | .ok true => .ok (some t.target, asked)
        | .ok false => select host state fallback rest asked := by
  cases fallback <;> rfl

/-- Choosing an exit asks guards until it has a target, the run has failed or the step breaks off.
-/
theorem select_cases (host : Host) (state : String) (fallback : Option String)
    (exits : List Transition) (m : Machine) :
    ∃ asked, Unmoved m asked ∧
      ((∃ target, (fallback = some target ∨ ∃ t ∈ exits, t.target = target) ∧
          select host state fallback exits m = .ok (some target, asked)) ∨
        (∃ f, (f = .stuck state ∨ ∃ message, f = .guardError state message) ∧
          select host state fallback exits m = .ok (none, asked.fail f)) ∨
        ∃ why, host.Interrupts why ∧
          select host state fallback exits m = .error ⟨why, asked⟩) := by
  induction exits generalizing fallback m with
  | nil =>
    cases fallback with
    | none => exact ⟨m, Unmoved.refl m, Or.inr (Or.inl ⟨_, Or.inl rfl, rfl⟩)⟩
    | some target => exact ⟨m, Unmoved.refl m, Or.inl ⟨target, Or.inl rfl, rfl⟩⟩
  | cons t rest ih =>
    rw [select_cons]
    cases t.guard with
    | none =>
      obtain ⟨asked, hasked, hcases⟩ := ih (fallback.or (some t.target)) m
      refine ⟨asked, hasked, ?_⟩
      rcases hcases with ⟨target, hfrom, he⟩ | hfailed | hbroken
      · refine Or.inl ⟨target, ?_, he⟩
        rcases hfrom with hfrom | ⟨u, hu, htarget⟩
        · cases fallback with
          | none => exact Or.inr ⟨t, List.mem_cons_self .., Option.some.inj hfrom⟩
          | some first => exact Or.inl hfrom
        · exact Or.inr ⟨u, List.mem_cons_of_mem _ hu, htarget⟩
      · exact Or.inr (Or.inl hfailed)
      · exact Or.inr (Or.inr hbroken)
    | some guard =>
      have hjudged : Unmoved m { m with judged := m.judged + 1 } :=
        ⟨⟨rfl, rfl⟩, rfl, rfl, rfl, rfl⟩
      cases hanswer : host.guard m.judged guard m.run.bindings with
      | error fault =>
        refine ⟨_, hjudged, Or.inr ?_⟩
        cases fault with
        | valueless message =>
          refine Or.inl ⟨.guardError state message, Or.inr ⟨message, rfl⟩, ?_⟩
          simp only [hanswer]
        | interrupted why =>
          refine Or.inr ⟨why, ⟨m.judged, guard, m.run.bindings, hanswer⟩, ?_⟩
          simp only [hanswer]
      | ok holds =>
        cases holds with
        | true =>
          refine ⟨_, hjudged, Or.inl ⟨t.target, Or.inr ⟨t, List.mem_cons_self .., rfl⟩, ?_⟩⟩
          simp only [hanswer]
        | false =>
          obtain ⟨asked, hasked, hcases⟩ := ih fallback { m with judged := m.judged + 1 }
          simp only [hanswer]
          refine ⟨asked, hjudged.trans hasked, ?_⟩
          rcases hcases with ⟨target, hfrom, he⟩ | hother
          · refine Or.inl ⟨target, ?_, he⟩
            rcases hfrom with hfrom | ⟨u, hu, htarget⟩
            · exact Or.inl hfrom
            · exact Or.inr ⟨u, List.mem_cons_of_mem _ hu, htarget⟩
          · exact Or.inr hother

theorem awaits_iff {m : Machine} {s : State} :
    m.awaits s = true ↔ s.kind = .join ∧ Keyed.has s.id m.run.pending = true := by
  simp [awaits]

theorem kind_ne_terminal_of_awaits {m : Machine} {s : State} (h : m.awaits s = true) :
    s.kind ≠ .terminal := by
  rw [(awaits_iff.mp h).1]
  nofun

variable (host : Host) (d : Definition) (occupied : List String)

/-- A state stays at its turn: it is terminal, or a join that waits for another occupied state. -/
def Stays (m : Machine) (s : State) : Prop :=
  s.kind = .terminal ∨ m.awaits s = true ∧ joinReady d s.id occupied = false

/-- What can come of the turn of a declared state: whether it has moved, and the machine afterwards.
-/
inductive Turned (s : State) (m : Machine) : Bool → Machine → Prop
  | stays (h : Stays d occupied m s) : Turned s m false m
  | fires (hwaits : m.awaits s = true) (hready : joinReady d s.id occupied = true) :
      Turned s m true ((m.fire s.id).enter host s)
  | fails {asked : Machine} {f : Failure} (hkind : s.kind ≠ .terminal) (hwaits : m.awaits s = false)
      (hasked : Unmoved m asked) (htargets : m.targets host d s = .ok (none, asked.fail f))
      (hcause : f = .stuck s.id ∨ ∃ message, f = .guardError s.id message) :
      Turned s m false (asked.fail f)
  | goes {asked : Machine} {targets : List State} (hkind : s.kind ≠ .terminal)
      (hwaits : m.awaits s = false) (hasked : Unmoved m asked)
      (htargets : m.targets host d s = .ok (some (targets.map State.id), asked))
      (hleads : ∀ t ∈ targets, d.state? t.id = some t ∧ d.Leads s.id t.id) :
      Turned s m true (arriveAll host s.id targets (asked.leave host s))

variable {host d occupied}

/-- A turn leaves the failure of the run as it is, or a state has met one. -/
theorem failure_turned {s : State} {m after : Machine} {moved : Bool}
    (hrunning : m.isRunning = true) (hturned : Turned host d occupied s m moved after) :
    after.run.failure = m.run.failure ∨ ∃ f, after.run.failure = some f ∧ f.Met := by
  cases hturned with
  | stays => exact Or.inl rfl
  | fires =>
    rcases enter_status host (m.fire s.id) s with ⟨-, he⟩ | ⟨message, -, he⟩
    · exact Or.inl he
    · exact Or.inr ⟨_, he, .actionFailed s.id message⟩
  | fails hkind hwaits hasked htargets hcause =>
    rcases hcause with rfl | ⟨message, rfl⟩
    · exact Or.inr ⟨_, rfl, .stuck s.id⟩
    · exact Or.inr ⟨_, rfl, .guardError s.id message⟩
  | @goes asked targets hkind hwaits hasked =>
    have hleft := (leave_failure host asked s).trans hasked.failure_eq
    refine arriveAll_keeps (P := fun after => after.run.failure = m.run.failure ∨
        ∃ f, after.run.failure = some f ∧ f.Met) ?_ (hasked.isRunning_leave host s hrunning)
      (Or.inl hleft)
    intro t _ before _ hbefore
    rcases arriveAt_status host s.id before t with ⟨-, he⟩ | ⟨-, message, -, he⟩
    · rw [he]
      exact hbefore
    · exact Or.inr ⟨_, he, .actionFailed t.id message⟩

theorem exists_states {ids : List String} (h : ∀ id ∈ ids, ∃ s, d.state? id = some s) :
    ∃ states : List State, states.map State.id = ids ∧
      ∀ s ∈ states, d.state? s.id = some s := by
  induction ids with
  | nil => exact ⟨[], rfl, nofun⟩
  | cons id rest ih =>
    obtain ⟨s, hs⟩ := h id (List.mem_cons_self ..)
    obtain ⟨states, hids, hstates⟩ := ih fun other ho => h other (List.mem_cons_of_mem _ ho)
    have hid : s.id = id := (Definition.mem_of_state? hs).2
    refine ⟨s :: states, by rw [List.map_cons, hid, hids], ?_⟩
    intro t ht
    rcases List.mem_cons.mp ht with rfl | ht
    · rw [hid]
      exact hs
    · exact hstates t ht

variable {s : State} {m : Machine}

theorem move_of_stays (h : Stays d occupied m s) : move host d occupied s m = .ok (false, m) := by
  unfold move
  rcases h with hterminal | ⟨hwaits, hready⟩
  · rw [if_pos hterminal]
  · rw [if_neg (kind_ne_terminal_of_awaits hwaits), if_pos hwaits, hready]
    rfl

variable (host m) in
/-- The targets of a state that is left are declared, and transitions lead to them. -/
theorem targets_cases (hlinked : d.Linked) (s : State) :
    ∃ asked, Unmoved m asked ∧
      ((∃ states : List State,
          (∀ t ∈ states, d.state? t.id = some t ∧ d.Leads s.id t.id) ∧
          m.targets host d s = .ok (some (states.map State.id), asked)) ∨
        (∃ f, (f = .stuck s.id ∨ ∃ message, f = .guardError s.id message) ∧
          m.targets host d s = .ok (none, asked.fail f)) ∨
        ∃ why, host.Interrupts why ∧ m.targets host d s = .error ⟨why, asked⟩) := by
  have hlead : ∀ id ∈ (d.outgoing s.id).map Transition.target, d.Leads s.id id :=
    fun id hid => Definition.mem_targets_outgoing.mp hid
  by_cases hfork : s.kind = .fork
  · obtain ⟨states, hids, hstates⟩ :=
      exists_states fun id hid => hlinked.state?_of_leads (hlead id hid)
    refine ⟨m, Unmoved.refl m, Or.inl ⟨states, fun t ht => ⟨hstates t ht, ?_⟩, ?_⟩⟩
    · exact hlead _ (hids ▸ List.mem_map_of_mem ht)
    · rw [hids]
      simp [targets, hfork, pure, Except.pure]
  · obtain ⟨asked, hasked, hcases⟩ := select_cases host s.id none (d.outgoing s.id) m
    refine ⟨asked, hasked, ?_⟩
    rcases hcases with ⟨target, hfrom, he⟩ | ⟨f, hcause, he⟩ | ⟨why, hwhy, he⟩
    · left
      have hleads : d.Leads s.id target := by
        rcases hfrom with hfrom | ⟨t, ht, rfl⟩
        · cases hfrom
        · exact hlead _ (List.mem_map_of_mem ht)
      obtain ⟨t, ht⟩ := hlinked.state?_of_leads hleads
      have hid : t.id = target := (Definition.mem_of_state? ht).2
      refine ⟨[t], ?_, ?_⟩
      · intro u hu
        rw [List.mem_singleton.mp hu, hid]
        exact ⟨ht, hleads⟩
      · simp [targets, hfork, he, hid, bind, Except.bind, pure, Except.pure]
    · exact Or.inr (Or.inl ⟨f, hcause, by
        simp [targets, hfork, he, bind, Except.bind, pure, Except.pure]⟩)
    · exact Or.inr (Or.inr ⟨why, hwhy, by simp [targets, hfork, he, bind, Except.bind]⟩)

/-- A fork of a valid definition has branches, and any other state that is left has one target. -/
theorem targets_ne_nil (hv : d.validate.hasErrors = false) (hs : d.state? s.id = some s)
    {states : List State} {asked : Machine}
    (h : m.targets host d s = .ok (some (states.map State.id), asked)) : states ≠ [] := by
  intro hnil
  subst hnil
  unfold targets at h
  split at h
  · rename_i hfork
    have hbranches :=
      Definition.two_le_length_outgoing_fork hv (Definition.mem_of_state? hs).1 hfork
    have hpair := Prod.mk.inj (Except.ok.inj h)
    have hnone : d.outgoing s.id = [] := List.map_eq_nil_iff.mp (Option.some.inj hpair.1)
    rw [hnone] at hbranches
    exact absurd hbranches (by decide)
  · rw [bind_eq_ok_iff] at h
    obtain ⟨⟨target, after⟩, -, h⟩ := h
    cases target <;> cases h

theorem isTerminal_eq (hs : d.state? s.id = some s) :
    isTerminal d s.id = (s.kind == .terminal) := by
  unfold isTerminal
  rw [hs, Option.map_some]
  rfl

variable (host occupied m) in
/-- A turn comes to one of the four ends, or is broken off while guards are asked. -/
theorem move_cases (hlinked : d.Linked) (hs : d.state? s.id = some s) :
    (∃ moved after, move host d occupied s m = .ok (moved, after) ∧
        Turned host d occupied s m moved after) ∨
      ∃ why asked, move host d occupied s m = .error ⟨why, asked⟩ ∧ host.Interrupts why ∧
        Unmoved m asked ∧ isTerminal d s.id = false := by
  unfold move
  by_cases hterminal : s.kind = .terminal
  · exact Or.inl ⟨false, m, by rw [if_pos hterminal], .stays (Or.inl hterminal)⟩
  rw [if_neg hterminal]
  by_cases hwaits : m.awaits s = true
  · rw [if_pos hwaits]
    by_cases hready : joinReady d s.id occupied = true
    · exact Or.inl ⟨true, _, by rw [if_pos hready], .fires hwaits hready⟩
    · exact Or.inl ⟨false, m, by rw [if_neg hready],
        .stays (Or.inr ⟨hwaits, Bool.eq_false_iff.mpr hready⟩)⟩
  rw [if_neg hwaits]
  have hidle : m.awaits s = false := Bool.eq_false_iff.mpr hwaits
  obtain ⟨asked, hasked, ⟨states, hleads, he⟩ | ⟨f, hcause, he⟩ | ⟨why, hwhy, he⟩⟩ :=
    targets_cases host m hlinked s
  · left
    refine ⟨true, _, ?_, .goes hterminal hidle hasked he hleads⟩
    rw [he]
    simp only [arrive_eq fun t ht => (hleads t ht).1]
    rfl
  · left
    exact ⟨false, _, by rw [he], .fails hterminal hidle hasked he hcause⟩
  · right
    exact ⟨why, asked, by rw [he], hwhy, hasked, by rw [isTerminal_eq hs]; simpa using hterminal⟩

variable (host occupied) in
/-- What every turn keeps, given the states that have not had theirs, a whole step of any run keeps;
a state that is not declared fails the run at its turn. -/
theorem moveAll_holds (hlinked : d.Linked) {P : List String → Machine → Prop}
    (hunknown : ∀ id rest m, d.state? id = none → m.isRunning = true → P (id :: rest) m →
      P rest (m.fail (.unknownState id)))
    (hunmoved : ∀ ids m asked, Unmoved m asked → P ids m → P ids asked)
    (hturn : ∀ s rest m moved after, d.state? s.id = some s → m.isRunning = true →
      Turned host d occupied s m moved after → P (s.id :: rest) m → P rest after)
    (ids : List String) (moved : Bool) (hm : P ids m) :
    (∃ moved' after rest, moveAll host d occupied ids moved m = .ok (moved', after) ∧
        P rest after ∧ (after.isRunning = true → rest = [])) ∨
      ∃ why after rest, moveAll host d occupied ids moved m = .error ⟨why, after⟩ ∧
        host.Interrupts why ∧ P rest after ∧ ∃ id ∈ rest, isTerminal d id = false := by
  induction ids generalizing m moved with
  | nil => exact Or.inl ⟨moved, m, [], rfl, hm, fun _ => rfl⟩
  | cons id rest ih =>
    unfold moveAll
    by_cases hrunning : m.isRunning = true
    · simp only [hrunning, Bool.not_true, Bool.false_eq_true, if_false]
      cases hs : d.state? id with
      | none =>
        have hfailed := hunknown id rest m hs hrunning hm
        exact Or.inl ⟨moved, _, rest, rfl, hfailed, fun hgoing => by
          simp [not_isRunning_fail] at hgoing⟩
      | some s =>
        obtain rfl : s.id = id := (Definition.mem_of_state? hs).2
        rcases move_cases host occupied m hlinked hs with
          ⟨here, after, he, hturned⟩ | ⟨why, asked, he, hwhy, hasked, hopen⟩
        · simp only [he, bind, Except.bind]
          exact ih _ (hturn s rest m here after hs hrunning hturned hm)
        · simp only [he, bind, Except.bind]
          exact Or.inr ⟨why, asked, s.id :: rest, rfl, hwhy, hunmoved _ m asked hasked hm,
            s.id, List.mem_cons_self .., hopen⟩
    · simp only [hrunning, Bool.not_false, if_true]
      exact Or.inl ⟨moved, m, id :: rest, rfl, hm, fun hr => absurd hr hrunning⟩

variable (host occupied) in
/-- What every turn of declared states keeps, a whole step by a valid definition keeps. -/
theorem moveAll_keeps (hv : d.validate.hasErrors = false) {P : List String → Machine → Prop}
    (hdeclared : ∀ ids m, P ids m → ∀ id ∈ ids, ∃ s, d.state? id = some s)
    (hunmoved : ∀ ids m asked, Unmoved m asked → P ids m → P ids asked)
    (hturn : ∀ s rest m moved after, d.state? s.id = some s → m.isRunning = true →
      Turned host d occupied s m moved after → P (s.id :: rest) m → P rest after)
    {ids : List String} (moved : Bool) (hm : P ids m) :
    (∃ moved' after rest, moveAll host d occupied ids moved m = .ok (moved', after) ∧
        P rest after ∧ (after.isRunning = true → rest = [])) ∨
      ∃ why after rest, moveAll host d occupied ids moved m = .error ⟨why, after⟩ ∧
        host.Interrupts why ∧ P rest after ∧ ∃ id ∈ rest, isTerminal d id = false := by
  refine moveAll_holds host occupied (Definition.linked_of_valid hv) ?_ hunmoved hturn ids moved hm
  intro id rest m hnone _ hparts
  obtain ⟨s, hs⟩ := hdeclared _ m hparts id (List.mem_cons_self ..)
  rw [hnone] at hs
  cases hs

end Turn

end Machine

end Runbook.Workflow
