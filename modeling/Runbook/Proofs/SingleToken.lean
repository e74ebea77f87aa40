import Runbook.Proofs.Agenda
import Runbook.Proofs.Unbroken
import Runbook.Proofs.WellDrawn

/-!
Runs without forks. A definition that was read and has no fork has no join either, so a run of it
has a single token. How the token walks is said here without occupied states, turns or joins: it
enters a state, carries out the actions there, and goes where the first guarded exit whose guard
holds leads, or else the unguarded one. Every step of the run is a step of the token.
-/
namespace Runbook.Workflow

namespace Definition

/-- The guards of some exits, with their targets, in the order of the exits. -/
def guarded (exits : List Transition) : List (String × String) :=
  exits.filterMap fun t => t.guard.map fun guard => (guard, t.target)

/-- The target of the first unguarded exit. -/
def unguarded? (exits : List Transition) : Option String :=
  (exits.find? fun t => t.guard.isNone).map Transition.target

end Definition

/-- The target of the first guard that holds, if all guards before it have a value, and how often
guards have been judged then. -/
def Host.firstHolding (host : Host) (bindings : Fields) :
    Nat → List (String × String) → Except GuardFault (Option String) × Nat
  | judged, [] => (.ok none, judged)
  | judged, (guard, target) :: rest =>
    match host.guard judged guard bindings with
    | .error fault => (.error fault, judged + 1)
    | .ok true => (.ok (some target), judged + 1)
    | .ok false => firstHolding host bindings (judged + 1) rest

/-- A run with a single token: where the token is and which states it has entered, and how often
guards and actions have been asked. -/
structure Token where
  place : String
  status : Status
  failure : Option Failure
  bindings : Fields
  entered : List String
  judged : Nat
  invoked : Nat

/-- A sound definition without forks and joins. -/
structure Definition.Unforked (d : Definition) : Prop extends d.Sound where
  fork : ∀ s ∈ d.states, s.kind ≠ .fork
  join : ∀ s ∈ d.states, s.kind ≠ .join

theorem Definition.unforked_of_parse {d : Definition} {text : String} {name : Option String}
    (hparse : Definition.parse text name = .ok d) (hv : d.validate.hasErrors = false)
    (hfork : ∀ s ∈ d.states, s.kind ≠ .fork) : d.Unforked := by
  refine ⟨sound_of_parse hparse hv, hfork, fun join hmem hjoin => ?_⟩
  obtain ⟨s, hs, hkind⟩ := exists_fork_of_parse hparse hmem hjoin
  exact hfork s hs hkind

namespace Token

variable (host : Host) (d : Definition) (run : String)

def fail (f : Failure) (t : Token) : Token := { t with status := .failed, failure := some f }

/-- Carries out the actions of a state, until one of them fails. -/
def act (state : String) : List Action → Token → Token
  | [], t => t
  | a :: rest, t =>
    let response := host.invoke t.invoked a ⟨run, d.name, state, t.bindings⟩
    let t := { t with invoked := t.invoked + 1, bindings := response.bindings }
    match response.outcome.fault? with
    | some message => t.fail (.actionFailed state message)
    | none => act state rest t

/-- Goes to a state: the run is complete in the terminal state, and any other state is entered. -/
def goTo (s : State) (t : Token) : Token :=
  if s.kind = .terminal then { t with place := s.id, status := .completed }
  else { t with place := s.id, entered := t.entered ++ [s.id] }.act host d run s.id s.actions

/-- Follows an exit to its target. -/
def follow (target : String) (t : Token) : Token :=
  match d.state? target with
  | none => t
  | some s => t.goTo host d run s

/-- What becomes of a token once the guards have been asked. It stays where the judging of one was
broken off. -/
def heed (answer : Except GuardFault (Option String)) (t : Token) : Token :=
  match answer with
  | .error (.interrupted _) => t
  | .error (.valueless message) => t.fail (.guardError t.place message)
  | .ok holding =>
    match holding.or (Definition.unguarded? (d.outgoing t.place)) with
    | none => t.fail (.stuck t.place)
    | some target => t.follow host d run target

/-- One step of a token, if its run is running. -/
def step (t : Token) : Token :=
  if t.status ≠ .running then t
  else
    let asked :=
      host.firstHolding t.bindings t.judged (Definition.guarded (d.outgoing t.place))
    heed host d run asked.1 { t with judged := asked.2 }

/-- A token after a number of steps. -/
def walk : Nat → Token → Token
  | 0, t => t
  | n + 1, t => walk n (t.step host d run)

/-- A token at the start of a diagram. -/
def atStart (bindings : Fields) (judged invoked : Nat) : Token :=
  ⟨startId, .running, none, bindings, [], judged, invoked⟩

end Token

namespace Token

variable {host : Host} {d : Definition} {run : String} {t : Token}

theorem act_place (state : String) (actions : List Action) (t : Token) :
    (t.act host d run state actions).place = t.place := by
  induction actions generalizing t with
  | nil => rfl
  | cons a rest ih =>
    unfold act
    simp only
    split
    · rfl
    · exact ih _

/-- While its run is running, a token is in a state that is declared and not terminal. -/
def Placed (d : Definition) (t : Token) : Prop :=
  t.status = .running → ∃ s, d.state? t.place = some s ∧ s.kind ≠ .terminal

theorem placed_goTo {s : State} (hs : d.state? s.id = some s) :
    (t.goTo host d run s).Placed d := by
  intro hrunning
  unfold goTo at hrunning ⊢
  split at hrunning
  · cases hrunning
  · rename_i hkind
    rw [if_neg hkind, act_place]
    exact ⟨s, hs, hkind⟩

theorem placed_heed (h : t.Placed d) (answer : Except GuardFault (Option String)) :
    (t.heed host d run answer).Placed d := by
  unfold heed
  split
  · exact h
  · exact nofun
  · split
    · exact nofun
    · rename_i target _
      unfold follow
      cases hs : d.state? target with
      | none => exact h
      | some s =>
        obtain rfl : s.id = target := (Definition.mem_of_state? hs).2
        exact placed_goTo hs

theorem placed_step (h : t.Placed d) : (t.step host d run).Placed d := by
  unfold step
  split
  · exact h
  · refine placed_heed ?_ _
    exact h

end Token

namespace Machine

open Run

variable {host : Host} {d : Definition} {run : String} {m after : Machine} {t : Token} {s : State}

/-- Choosing an exit is asking for the first guard that holds, and falling back on what is
unguarded. -/
theorem select_eq (host : Host) (state : String) (fallback : Option String)
    (exits : List Transition) (m : Machine) :
    select host state fallback exits m =
      let asked := host.firstHolding m.run.bindings m.judged (Definition.guarded exits)
      let m := { m with judged := asked.2 }
      match asked.1 with
      | .error (.interrupted why) => .error ⟨why, m⟩
      | .error (.valueless message) => .ok (none, m.fail (.guardError state message))
      | .ok holding =>
        match holding.or (fallback.or (Definition.unguarded? exits)) with
        | none => .ok (none, m.fail (.stuck state))
        | some target => .ok (some target, m) := by
  induction exits generalizing fallback m with
  | nil => cases fallback <;> rfl
  | cons t rest ih =>
    rw [select_cons]
    cases hguard : t.guard with
    | none =>
      have hguarded : Definition.guarded (t :: rest) = Definition.guarded rest := by
        simp [Definition.guarded, hguard]
      have hfallback : fallback.or (Definition.unguarded? (t :: rest)) =
          (fallback.or (some t.target)).or (Definition.unguarded? rest) := by
        cases fallback <;> simp [Definition.unguarded?, hguard]
      rw [hguarded, hfallback]
      exact ih ..
    | some guard =>
      have hguarded : Definition.guarded (t :: rest) =
          (guard, t.target) :: Definition.guarded rest := by
        simp [Definition.guarded, hguard]
      have hfallback : Definition.unguarded? (t :: rest) = Definition.unguarded? rest := by
        simp [Definition.unguarded?, hguard]
      rw [hguarded, hfallback]
      simp only [Host.firstHolding]
      generalize host.guard m.judged guard m.run.bindings = answer
      rcases answer with (message | why) | (_ | _)
      · rfl
      · rfl
      · exact ih ..
      · rfl

/-- A step from a single state that is left through one exit. -/
theorem advance_single (hworkflow : m.run.workflow = d.name) (hrunning : m.isRunning = true)
    (hcurrent : m.run.current = [s.id]) (hs : d.state? s.id = some s)
    (hterminal : s.kind ≠ .terminal) (hjoin : s.kind ≠ .join) (hfork : s.kind ≠ .fork) :
    m.advance host d =
      match m.select host s.id none (d.outgoing s.id) with
      | .error i => .error (.interrupted i)
      | .ok (none, asked) => .ok ((asked.conclude d false).touch host)
      | .ok (some target, asked) =>
        match (asked.leave host s).arrive host d s.id [target] with
        | .error i => .error (.interrupted i)
        | .ok next => .ok ((next.conclude d true).touch host) := by
  have hidle : m.awaits s = false := by simp [awaits, hjoin]
  unfold advance
  simp only [hworkflow, ne_eq, not_true_eq_false, if_false, hrunning, Bool.not_true,
    Bool.false_eq_true, hcurrent, moveAll, hs, move, hterminal, hidle, targets, hfork]
  cases m.select host s.id none (d.outgoing s.id) with
  | error i => rfl
  | ok chosen =>
    obtain ⟨target, asked⟩ := chosen
    cases target with
    | none => rfl
    | some target =>
      simp only [bind, Except.bind, Option.map_some, pure, Except.pure]
      cases (asked.leave host s).arrive host d s.id [target] <;> rfl

theorem arrive_single (hs : d.state? s.id = some s) (source : String) (m : Machine) :
    m.arrive host d source [s.id] = .ok (m.arriveAt host source s) := by
  simp [arrive, hs]

/-- What a run has in common with its token, wherever that is. -/
structure Agrees (d : Definition) (run : String) (m : Machine) (t : Token) : Prop where
  run : m.run.id = run
  workflow : m.run.workflow = d.name
  status : m.run.status = t.status
  failure : m.run.failure = t.failure
  bindings : m.run.bindings = t.bindings
  entered : m.run.history.map Visit.state = t.entered
  judged : m.judged = t.judged
  invoked : m.invoked = t.invoked

/-- A run agrees with its token, and the state where that is is the only one that is occupied. -/
structure Follows (d : Definition) (run : String) (m : Machine) (t : Token) : Prop
    extends Agrees d run m t where
  current : m.run.current = [t.place]

namespace Agrees

theorem idle (h : Agrees d run m t) (ha : Idle m after)
    (hstatus : after.run.status = m.run.status) (hfailure : after.run.failure = m.run.failure)
    (hjudged : after.judged = m.judged) : Agrees d run after t where
  run := ha.run.trans h.run
  workflow := ha.workflow.trans h.workflow
  status := hstatus.trans h.status
  failure := hfailure.trans h.failure
  bindings := ha.bindings.trans h.bindings
  entered := ha.visited.trans h.entered
  judged := hjudged.trans h.judged
  invoked := ha.invoked.trans h.invoked

theorem fail (h : Agrees d run m t) (f : Failure) : Agrees d run (m.fail f) (t.fail f) where
  run := h.run
  workflow := h.workflow
  status := rfl
  failure := rfl
  bindings := h.bindings
  entered := h.entered
  judged := h.judged
  invoked := h.invoked

theorem act (h : Agrees d run m t) (host : Host) (state : String) (actions : List Action) :
    Agrees d run (m.act host state actions) (t.act host d run state actions) := by
  induction actions generalizing m t with
  | nil => exact h
  | cons a rest ih =>
    unfold Machine.act Token.act
    simp only [h.invoked, h.run, h.workflow, h.bindings]
    generalize host.invoke t.invoked a _ = response
    cases response.outcome.fault? with
    | some message =>
      refine fail ?_ _
      exact ⟨h.run, h.workflow, h.status, h.failure, rfl, h.entered, h.judged, rfl⟩
    | none =>
      refine ih ?_
      exact ⟨h.run, h.workflow, h.status, h.failure, rfl, h.entered, h.judged, rfl⟩

theorem enter (h : Agrees d run m t) (host : Host) (s : State) :
    Agrees d run (m.enter host s)
      ({ t with entered := t.entered ++ [s.id] }.act host d run s.id s.actions) := by
  have hopened : Agrees d run (m.opened host s) { t with entered := t.entered ++ [s.id] } := by
    refine ⟨h.run, h.workflow, h.status, h.failure, h.bindings, ?_, h.judged, h.invoked⟩
    change (m.run.history ++ [_]).map Visit.state = t.entered ++ [s.id]
    rw [List.map_append, h.entered]
    rfl
  exact hopened.act host s.id s.actions

theorem leave (h : Agrees d run m t) (host : Host) (s : State) :
    Agrees d run (m.leave host s) t :=
  h.idle (idle_leave host m s) (leave_status ..) (leave_failure ..) (leave_counts host m s).1

end Agrees

theorem Follows.touch (h : Follows d run m t) (host : Host) : Follows d run (m.touch host) t :=
  ⟨h.toAgrees.idle (idle_touch host m) rfl rfl rfl, h.current⟩

/-- A step that has moved goes on while a state is occupied that is not terminal. -/
theorem conclude_of_open (hopen : ∃ id ∈ m.run.current, isTerminal d id = false) :
    m.conclude d true = m := by
  obtain ⟨id, hid, hkind⟩ := hopen
  have hall : m.run.current.all (isTerminal d) = false := by
    rw [List.all_eq_false]
    exact ⟨id, hid, by simp [hkind]⟩
  simp [conclude, hall]

/-- Arriving at the only state that is then occupied is going there. -/
theorem Follows.arriveAt (hd : d.Unforked) (h : Agrees d run m t) (host : Host) (source : String)
    (hrunning : m.isRunning = true) (hcurrent : m.run.current = [])
    (hs : d.state? s.id = some s) :
    Follows d run (((m.arriveAt host source s).conclude d true).touch host)
      (t.goTo host d run s) := by
  apply Follows.touch
  have hmem : s ∈ d.states := (Definition.mem_of_state? hs).1
  have hoccupied : (m.run.occupy s.id).current = [s.id] := by
    rw [current_occupy, hcurrent]
    rfl
  have hoccupy : Agrees d run (m.mapRun fun r => r.occupy s.id) { t with place := s.id } := by
    have hsame : Agrees d run (m.mapRun fun r => r.occupy s.id) t := by
      refine h.idle (idle_occupy m s.id) ?_ ?_ rfl <;> rw [mapRun_run, occupy_eq]
    exact { hsame with }
  rcases arriveAt_cases host source m s with ⟨hterminal, he⟩ | ⟨hjoin, -⟩ | ⟨hother, -, he⟩
  · have hend : s.id = endId := (hd.reserved s hmem).2 hterminal
    have hgoing := (isRunning_occupied m s.id).trans hrunning
    have hdone : (m.mapRun fun r => r.occupy s.id).conclude d true =
        (m.mapRun fun r => r.occupy s.id).complete := by
      unfold conclude
      simp [hgoing, hoccupied, isTerminal_eq hs, hterminal]
    rw [he, hdone, Token.goTo, if_pos hterminal]
    exact ⟨{ hoccupy with status := rfl }, by rw [hend]; rfl⟩
  · exact absurd hjoin (hd.join s hmem)
  · have hplace : (m.arriveAt host source s).run.current = [s.id] := by
      rw [arriveAt_current, hoccupied]
    have hopen : isTerminal d s.id = false := by
      rw [isTerminal_eq hs]
      simpa using hother
    rw [conclude_of_open ⟨s.id, by rw [hplace]; exact List.mem_singleton_self _, hopen⟩, he,
      Token.goTo, if_neg hother]
    rw [he] at hplace
    exact ⟨hoccupy.enter host s, by rw [hplace, Token.act_place]⟩

/-- The end of a step in which the run has failed changes nothing of that. -/
theorem Follows.concluded {f : Failure} (h : Follows d run m t) (host : Host) (moved : Bool) :
    Follows d run (((m.fail f).conclude d moved).touch host) (t.fail f) :=
  Follows.touch ⟨h.toAgrees.fail f, h.current⟩ host

theorem leads_of_select {state target : String} {asked : Machine}
    (h : select host state none (d.outgoing state) m = .ok (some target, asked)) :
    d.Leads state target := by
  obtain ⟨_, -, ⟨other, hfrom, he⟩ | ⟨_, -, he⟩ | ⟨_, -, he⟩⟩ :=
    select_cases host state none (d.outgoing state) m
  · rw [h] at he
    cases he
    rcases hfrom with hfrom | ⟨t, ht, rfl⟩
    · cases hfrom
    · exact Definition.mem_targets_outgoing.mp (List.mem_map_of_mem ht)
  · rw [h] at he
    cases he
  · rw [h] at he
    cases he

/-- A step of a run is a step of its token. -/
theorem Follows.advance (hd : d.Unforked) (h : Follows d run m t) (hplaced : t.Placed d) :
    Follows d run (m.leftBy (m.advance host d)) (t.step host d run) := by
  by_cases hstatus : t.status = .running
  · obtain ⟨s, hs, hterminal⟩ := hplaced hstatus
    have hmem : s ∈ d.states := (Definition.mem_of_state? hs).1
    have hrunning : m.isRunning = true := by
      rw [isRunning_iff, h.status]
      exact hstatus
    obtain ⟨place, status, failure, bindings, entered, judged, invoked⟩ := t
    obtain rfl : s.id = place := (Definition.mem_of_state? hs).2
    have hselect := select_eq host s.id none (d.outgoing s.id) m
    rw [h.bindings, h.judged] at hselect
    rw [advance_single h.workflow hrunning h.current hs hterminal (hd.join s hmem) (hd.fork s hmem),
      Token.step, if_neg (not_not.mpr hstatus)]
    simp only [Option.none_or] at hselect ⊢
    generalize host.firstHolding bindings judged _ = asked at hselect ⊢
    have hasked : Follows d run { m with judged := asked.2 }
        ⟨s.id, status, failure, bindings, entered, asked.2, invoked⟩ :=
      ⟨{ h.toAgrees with judged := rfl }, h.current⟩
    obtain ⟨answer, judged⟩ := asked
    rcases answer with (message | why) | holding
    · rw [hselect]
      exact hasked.concluded host false
    · rw [hselect]
      exact hasked
    · simp only [Token.heed] at hselect hasked ⊢
      cases hchosen : holding.or (Definition.unguarded? (d.outgoing s.id)) with
      | none =>
        rw [hchosen] at hselect
        rw [hselect]
        exact hasked.concluded host false
      | some target =>
        rw [hchosen] at hselect
        obtain ⟨u, hu⟩ := (Definition.linked_of_valid hd.valid).state?_of_leads
          (leads_of_select hselect)
        obtain rfl : u.id = target := (Definition.mem_of_state? hu).2
        rw [hselect]
        simp only [arrive_single hu s.id, Token.follow, hu]
        refine Follows.arriveAt hd (hasked.toAgrees.leave host s) host s.id ?_ ?_ hu
        · rw [leave_isRunning]
          exact hrunning
        · rw [leave_current, hasked.current, List.erase_cons_head]
  · have hstopped : m.isRunning = false := by
      rw [Bool.eq_false_iff, Ne, isRunning_iff, h.status]
      exact hstatus
    have hidle : m.leftBy (m.advance host d) =
        m.log Log.info "Run not advanced" [("status", .text m.run.status.name)] := by
      simp [Machine.advance, h.workflow, hstopped, leftBy]
    rw [hidle, Token.step, if_pos hstatus]
    exact ⟨h.toAgrees.idle (idle_unmoved (unmoved_log ..)) rfl rfl rfl, h.current⟩

theorem follows_after (hd : d.Unforked) (h : Follows d run m t) (hplaced : t.Placed d) (n : Nat) :
    Follows d run (m.after host d (List.replicate n .advance)) (t.walk host d run n) := by
  induction n generalizing m t with
  | zero => exact h
  | succ n ih => exact ih (h.advance hd hplaced) (Token.placed_step hplaced)

section Starting

variable {bindings : Fields} {reads judged invoked : Nat} {initial : State}

theorem start_eq (hv : d.validate.hasErrors = false) (hinitial : d.initial? = some initial) :
    start host d bindings run reads judged invoked =
      ((begun host d bindings run reads judged invoked initial).advance host d).mapError
        .refused := by
  unfold start
  simp only [hv, hinitial, Bool.false_eq_true, if_false]
  rfl

/-- A run of a valid definition is started, whatever its host answers, since nothing guards the way
out of the initial state. -/
theorem exists_start_of_valid (hv : d.validate.hasErrors = false) (host : Host)
    (bindings : Fields) (run : String) (reads judged invoked : Nat) :
    ∃ m, start host d bindings run reads judged invoked = .ok m := by
  obtain ⟨initial, exit, hinitial, houtgoing, hguard⟩ := Definition.exists_initial hv
  obtain ⟨hmem, hkind⟩ := Definition.mem_of_initial? hinitial
  have hs : d.state? initial.id = some initial := Definition.state?_of_mem hmem
  have hleads : d.Leads initial.id exit.target := by
    apply Definition.mem_targets_outgoing.mp
    rw [houtgoing]
    exact List.mem_singleton_self _
  obtain ⟨u, hu⟩ := (Definition.linked_of_valid hv).state?_of_leads hleads
  obtain hid : u.id = exit.target := (Definition.mem_of_state? hu).2
  rw [start_eq hv hinitial, advance_single rfl rfl rfl hs (by rw [hkind]; nofun)
    (by rw [hkind]; nofun) (by rw [hkind]; nofun), houtgoing]
  simp only [select, hguard, Option.none_or, ← hid] at hu ⊢
  rw [arrive_single hu]
  exact ⟨_, rfl⟩

theorem follows_begun (hd : d.Unforked) (hinitial : d.initial? = some initial) :
    Follows d run (begun host d bindings run reads judged invoked initial)
      (Token.atStart bindings judged invoked) := by
  obtain ⟨hmem, hkind⟩ := Definition.mem_of_initial? hinitial
  have hid : initial.id = startId := (hd.reserved initial hmem).1 hkind
  exact ⟨⟨rfl, rfl, rfl, rfl, rfl, rfl, rfl, rfl⟩, congrArg (fun id => [id]) hid⟩

theorem placed_atStart (hd : d.Unforked) (hinitial : d.initial? = some initial) :
    (Token.atStart bindings judged invoked).Placed d := by
  obtain ⟨hmem, hkind⟩ := Definition.mem_of_initial? hinitial
  have hid : initial.id = startId := (hd.reserved initial hmem).1 hkind
  intro _
  refine ⟨initial, ?_, by rw [hkind]; nofun⟩
  change d.state? startId = _
  rw [← hid]
  exact Definition.state?_of_mem hmem

end Starting

/-- A run of a valid definition without forks is started, and after any number of steps it agrees
with a token that has taken one step more, to begin with; the state where the token is is the only
one that is occupied. No step is refused while every guard is judged. -/
theorem follows_singleToken {text : String} {name : Option String} {d : Definition}
    (hparse : Definition.parse text name = .ok d) (hv : d.validate.hasErrors = false)
    (hfork : ∀ s ∈ d.states, s.kind ≠ .fork) (host : Host) (bindings : Fields) (id : String)
    (reads judged invoked : Nat) :
    ∃ m, start host d bindings id reads judged invoked = .ok m ∧ ∀ n,
      let final := m.after host d (List.replicate n .advance)
      Follows d id final ((Token.atStart bindings judged invoked).walk host d id (n + 1)) ∧
        (host.Judges → ∃ next, final.advance host d = .ok next) := by
  have hd := Definition.unforked_of_parse hparse hv hfork
  obtain ⟨m, hstart⟩ := exists_start_of_valid hv host bindings id reads judged invoked
  obtain ⟨initial, hinitial, hadvance⟩ := exists_begun hstart
  have hplaced : (Token.atStart bindings judged invoked).Placed d := placed_atStart hd hinitial
  have hbegun : Follows d id (begun host d bindings id reads judged invoked initial)
      (Token.atStart bindings judged invoked) := follows_begun hd hinitial
  have hfirst : Follows d id (leftBy _ ((begun host d bindings id reads judged invoked
      initial).advance host d)) ((Token.atStart bindings judged invoked).step host d id) :=
    hbegun.advance hd hplaced
  rw [hadvance] at hfirst
  refine ⟨m, hstart, fun n => ?_⟩
  have hfollows : Follows d id (m.after host d (List.replicate n .advance))
      ((Token.atStart bindings judged invoked).walk host d id (n + 1)) :=
    follows_after hd hfirst (Token.placed_step hplaced) n
  exact ⟨hfollows, fun hjudges =>
    exists_advance (Definition.linked_of_valid hv) hjudges hfollows.workflow⟩

/-- A state that is tried again until what it waits for is ready. -/
def triedAgain : List String :=
  ["name: again", "", "state Check <<choice>>", "[*] --> Try", "Try --> Check",
    "Check --> Done : {ready}", "Check --> Wait", "Wait --> Try", "Done --> [*]",
    "## Actions", "- Try: Log \"trying\"", "- Wait: Set ready = yes"]

/-- The token goes round once, and comes to the end with the seventh step. -/
theorem follows_singleToken_triedAgain :
    ∃ d m, Definition.parse (Text.unlines triedAgain) none = .ok d ∧
      d.validate.hasErrors = false ∧ (∀ s ∈ d.states, s.kind ≠ .fork) ∧
      start quietHost d [("ready", .bool false)] "run-1" 0 0 0 = .ok m ∧
      let final := m.after quietHost d (List.replicate 6 .advance)
      let token := (Token.atStart [("ready", .bool false)] 0 0).walk quietHost d "run-1" 7
      Follows d "run-1" final token ∧
      token.entered = ["Try", "Check", "Wait", "Try", "Check", "Done"] ∧
      final.run.status = .completed := by
  obtain ⟨d, hparse, hv, htest⟩ := Definition.exists_read triedAgain
    (fun d =>
      let token := (Token.atStart [("ready", .bool false)] 0 0).walk quietHost d "run-1" 7
      decide ((∀ s ∈ d.states, s.kind ≠ .fork) ∧ token.status = .completed ∧
        token.entered = ["Try", "Check", "Wait", "Try", "Check", "Done"]))
    (by decide) (by decide +kernel)
  obtain ⟨hfork, hcompleted, hentered⟩ := of_decide_eq_true htest
  obtain ⟨m, hstart, hfollows⟩ :=
    follows_singleToken hparse hv hfork quietHost [("ready", .bool false)] "run-1" 0 0 0
  exact ⟨d, m, hparse, hv, hfork, hstart, (hfollows 6).1, hentered,
    (hfollows 6).1.status.trans hcompleted⟩

end Machine

end Runbook.Workflow
