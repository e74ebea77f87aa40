import Runbook.Proofs.Deadlock
import Runbook.Proofs.Sealed
import Runbook.Proofs.Unbroken

/-!
Runs that settle. Where no state leads back to itself, what an occupied state can still reach only
shrinks, and so does what is yet to be entered. In every step the first of the occupied states,
which no other one reaches, is left or fires, so that one of the two shrinks indeed. Hence a run
makes no more steps than twice the number of states, and fails only over a state that it meets.
-/
namespace Runbook.Workflow

namespace Run

/-- A state is ahead of a run if an occupied state that is not terminal reaches it. -/
def ahead (d : Definition) (r : Run) (id : String) : Bool :=
  r.current.any fun x => !Machine.isTerminal d x && d.canReach x id

/-- An entry into a state is due if it waits, or comes after an occupied state that is not terminal.
-/
def due (d : Definition) (r : Run) (id : String) : Bool :=
  Keyed.has id r.pending ||
    r.current.any fun x => !Machine.isTerminal d x &&
      (d.successors x).any fun next => d.canReach next id

/-- What is left for a run to do: to leave what is ahead, and to enter what is due. -/
def labour (d : Definition) (r : Run) : Nat :=
  d.states.countP (fun s => r.ahead d s.id) + d.states.countP (fun s => r.due d s.id)

variable {d : Definition} {r r' : Run} {id : String}

theorem ahead_iff :
    r.ahead d id = true ↔
      ∃ x ∈ r.current, Machine.isTerminal d x = false ∧ d.Reaches x id := by
  simp [ahead, Definition.canReach_iff]

theorem due_iff :
    r.due d id = true ↔ Keyed.has id r.pending = true ∨
      ∃ x ∈ r.current, Machine.isTerminal d x = false ∧
        ∃ next, d.Leads x next ∧ d.Reaches next id := by
  simp [due, Definition.canReach_iff, Definition.mem_successors]

theorem labour_le (d : Definition) (r : Run) : r.labour d ≤ 2 * d.states.length := by
  have hahead : d.states.countP (fun s => r.ahead d s.id) ≤ d.states.length :=
    List.countP_le_length
  have hdue : d.states.countP (fun s => r.due d s.id) ≤ d.states.length := List.countP_le_length
  unfold labour
  omega

/-- No more is ahead or due in the second run than in the first. -/
structure Wanes (d : Definition) (r r' : Run) : Prop where
  ahead : ∀ id, r'.ahead d id = true → r.ahead d id = true
  due : ∀ id, r'.due d id = true → r.due d id = true

/-- A state is no longer ahead, or no longer due, in the second run. -/
def Relieved (d : Definition) (id : String) (r r' : Run) : Prop :=
  (r.ahead d id = true ∧ r'.ahead d id = false) ∨ (r.due d id = true ∧ r'.due d id = false)

namespace Wanes

theorem refl (d : Definition) (r : Run) : Wanes d r r := ⟨fun _ h => h, fun _ h => h⟩

theorem trans {a b c : Run} (hab : Wanes d a b) (hbc : Wanes d b c) : Wanes d a c :=
  ⟨fun id h => hab.ahead id (hbc.ahead id h), fun id h => hab.due id (hbc.due id h)⟩

theorem of_eq (hcurrent : r'.current = r.current) (hpending : r'.pending = r.pending) :
    Wanes d r r' := by
  refine ⟨fun id h => ?_, fun id h => ?_⟩
  · rw [ahead_iff, hcurrent] at h
    exact ahead_iff.mpr h
  · rw [due_iff, hcurrent, hpending] at h
    exact due_iff.mpr h

theorem relieved {a b : Run} (hab : Wanes d a b) (h : Relieved d id b r) : Relieved d id a r :=
  h.imp (fun hparts => ⟨hab.ahead id hparts.1, hparts.2⟩)
    fun hparts => ⟨hab.due id hparts.1, hparts.2⟩

end Wanes

theorem Relieved.wanes {a b : Run} (h : Relieved d id r a) (hab : Wanes d a b) :
    Relieved d id r b := by
  have hahead := hab.ahead id
  have hdue := hab.due id
  refine h.imp (fun hparts => ⟨hparts.1, ?_⟩) fun hparts => ⟨hparts.1, ?_⟩
  · rw [Bool.eq_false_iff]
    intro hstill
    rw [hahead hstill] at hparts
    cases hparts.2
  · rw [Bool.eq_false_iff]
    intro hstill
    rw [hdue hstill] at hparts
    cases hparts.2

theorem countP_lt_of_imp {α : Type} {p q : α → Bool} {l : List α} {a : α} (ha : a ∈ l)
    (himp : ∀ x ∈ l, p x = true → q x = true) (hq : q a = true) (hp : p a = false) :
    l.countP p < l.countP q := by
  obtain ⟨before, later, rfl⟩ := List.append_of_mem ha
  have hbefore : before.countP p ≤ before.countP q :=
    List.countP_mono_left fun x hx => himp x (List.mem_append_left _ hx)
  have hlater : later.countP p ≤ later.countP q :=
    List.countP_mono_left fun x hx => himp x (List.mem_append_right _ (List.mem_cons_of_mem _ hx))
  simp only [List.countP_append, List.countP_cons, hp, hq, Bool.false_eq_true, if_false, if_true]
  omega

/-- Less is left to do where nothing has been added and a declared state is relieved. -/
theorem labour_lt (hwanes : Wanes d r r') (hdeclared : ∃ s, d.state? id = some s)
    (hrelieved : Relieved d id r r') : r'.labour d < r.labour d := by
  obtain ⟨s, hs⟩ := hdeclared
  obtain ⟨hmem, rfl⟩ := Definition.mem_of_state? hs
  have hahead : d.states.countP (fun s => r'.ahead d s.id) ≤
      d.states.countP (fun s => r.ahead d s.id) :=
    List.countP_mono_left fun t _ => hwanes.ahead t.id
  have hdue : d.states.countP (fun s => r'.due d s.id) ≤
      d.states.countP (fun s => r.due d s.id) :=
    List.countP_mono_left fun t _ => hwanes.due t.id
  unfold labour
  rcases hrelieved with ⟨hbefore, hafter⟩ | ⟨hbefore, hafter⟩
  · have hless : d.states.countP (fun s => r'.ahead d s.id) <
        d.states.countP (fun s => r.ahead d s.id) :=
      countP_lt_of_imp hmem (fun t _ => hwanes.ahead t.id) hbefore hafter
    omega
  · have hless : d.states.countP (fun s => r'.due d s.id) <
        d.states.countP (fun s => r.due d s.id) :=
      countP_lt_of_imp hmem (fun t _ => hwanes.due t.id) hbefore hafter
    omega

/-- An occupied state is the first of a run if no other one that is not terminal reaches it. -/
structure First (d : Definition) (r : Run) (id : String) : Prop where
  occupied : id ∈ r.current
  notTerminal : Machine.isTerminal d id = false
  clear : ∀ other ∈ r.current, other ≠ id → Machine.isTerminal d other = false →
    ¬ d.Reaches other id

theorem exists_first (hacyclic : d.Acyclic)
    (hopen : ∃ id ∈ r.current, Machine.isTerminal d id = false) : ∃ id, First d r id := by
  obtain ⟨a, hcurrent, haopen, hfirst⟩ := exists_first_open hopen
  refine ⟨a, hcurrent, haopen, fun other hother hne hotheropen hpath => ?_⟩
  exact hne (hacyclic.antisymm hpath (hfirst other hother hotheropen hpath))

end Run

namespace Machine

open Run

variable {host : Host} {d : Definition} {m after : Machine} {s : State}
  {occupied rest : List String}

section Turns

/-- A turn adds nothing to what is ahead or due. -/
theorem wanes_turned {moved : Bool} (hs : d.state? s.id = some s) (hrunning : m.isRunning = true)
    (hturned : Turned host d occupied s m moved after) (hself : s.id ∈ m.run.current) :
    Wanes d m.run after.run := by
  refine ⟨fun id h => ?_, fun id h => ?_⟩
  · obtain ⟨x, hx, hxopen, hpath⟩ := ahead_iff.mp h
    rcases current_turned hs hrunning hturned hx with hold | ⟨hopen, hlead⟩
    · exact ahead_iff.mpr ⟨x, hold, hxopen, hpath⟩
    · exact ahead_iff.mpr ⟨s.id, hself, hopen, .head hlead hpath⟩
  · rcases due_iff.mp h with hhas | ⟨x, hx, hxopen, next, hnext, hpath⟩
    · rcases has_pending_turned hs hrunning hturned hhas with hold | ⟨hopen, hlead⟩
      · exact due_iff.mpr (Or.inl hold)
      · exact due_iff.mpr (Or.inr ⟨s.id, hself, hopen, id, hlead, .refl d id⟩)
    · rcases current_turned hs hrunning hturned hx with hold | ⟨hopen, hlead⟩
      · exact due_iff.mpr (Or.inr ⟨x, hold, hxopen, next, hnext, hpath⟩)
      · exact due_iff.mpr (Or.inr ⟨s.id, hself, hopen, x, hlead, .head hnext hpath⟩)

/-- A state does not stay that no other one occupied before the step reaches. -/
theorem not_stays_of_clear (hknown : ∀ id ∈ occupied, ∃ s, d.state? id = some s)
    (hs : d.state? s.id = some s) (hopen : isTerminal d s.id = false)
    (hclear : ∀ id ∈ occupied, id ≠ s.id → isTerminal d id = false → ¬ d.Reaches id s.id) :
    ¬ Stays d occupied m s := by
  intro hstays
  rcases hstays with hterminal | ⟨-, hblocked⟩
  · rw [isTerminal_eq hs, hterminal] at hopen
    cases hopen
  · rw [(joinReady_iff hknown).mpr hclear] at hblocked
    cases hblocked

/-- The turn of the first state relieves it: it is left or fires, if the run goes on. -/
theorem relieved_turned {moved : Bool} (hacyclic : d.Acyclic) (hs : d.state? s.id = some s)
    (hrunning : m.isRunning = true) (hturned : Turned host d occupied s m moved after)
    (h : Tracked d occupied (s.id :: rest) m.run) (hopen : isTerminal d s.id = false)
    (hclear : ∀ id ∈ occupied, id ≠ s.id → isTerminal d id = false → ¬ d.Reaches id s.id)
    (hgoing : after.isRunning = true) : Relieved d s.id m.run after.run := by
  have hself := h.rest_occupied s.id (List.mem_cons_self ..)
  have hothers := clear_of_follows h hclear
  cases hturned with
  | stays hstays => exact absurd hstays (not_stays_of_clear h.known hs hopen hclear)
  | fires hwaits =>
    refine Or.inr ⟨due_iff.mpr (Or.inl (awaits_iff.mp hwaits).2), ?_⟩
    rw [Bool.eq_false_iff, Ne, due_iff, enter_current, enter_pending]
    intro hcase
    rcases hcase with hhas | ⟨x, hx, hxopen, next, hnext, hpath⟩
    · have hfree : Keyed.has s.id (m.fire s.id).run.pending = false := Keyed.has_erase_self h.keys
      rw [hfree] at hhas
      cases hhas
    · by_cases hxself : x = s.id
      · obtain rfl := hxself
        exact hacyclic s.id next hnext hpath
      · exact hothers x hx hxself hxopen (.head hnext hpath)
  | fails => simp [not_isRunning_fail] at hgoing
  | @goes asked targets hkind hwaits hasked htargets hleads =>
    refine Or.inl ⟨ahead_iff.mpr ⟨s.id, hself, hopen, .refl d s.id⟩, ?_⟩
    rw [Bool.eq_false_iff, Ne, ahead_iff]
    intro hparts
    obtain ⟨x, hx, hxopen, hpath⟩ := hparts
    have hspread := spread_arriveAll host (hasked.isRunning_leave host s hrunning) hleads
    rcases hspread.spread x hx with hold | hlead
    · rw [leave_current, hasked.current_eq, h.distinct.mem_erase_iff] at hold
      exact hothers x hold.2 hold.1 hxopen hpath
    · exact hacyclic s.id x hlead hpath

end Turns

/-- A run that goes on between two calls. -/
structure Underway (d : Definition) (m : Machine) : Prop where
  rest : AtRest d m.run
  shut : Sealed d m.run
  running : m.isRunning = true

/-- A run that came to its end: it is completed, or a state has met a failure. -/
structure Settled (m : Machine) : Prop where
  ended : m.run.status = .completed ∨ m.run.status = .failed
  met : ∀ f, m.run.failure = some f → f.Met

/-- What holds between two turns of a step, given the first of the states occupied before it. -/
structure Progress (d : Definition) (first : String) (before : Machine) (rest : List String)
    (m : Machine) : Prop where
  tracked : Tracked d before.run.current rest m.run
  met : ∀ f, m.run.failure = some f → f.Met
  wanes : Wanes d before.run m.run
  relieved : m.isRunning = true → first ∈ rest ∨ Relieved d first before.run m.run

section Steps

theorem Settled.not_running (h : Settled m) : m.isRunning = false := by
  rw [Bool.eq_false_iff, Ne, isRunning_iff]
  intro hrunning
  rcases h.ended with hended | hended <;>
    (rw [hrunning] at hended; cases hended)

theorem progress_turned {before : Machine} {first : String} {moved : Bool}
    (hv : d.validate.hasErrors = false) (hacyclic : d.Acyclic) (hfirst : First d before.run first)
    (hs : d.state? s.id = some s) (hrunning : m.isRunning = true)
    (hturned : Turned host d before.run.current s m moved after)
    (h : Progress d first before (s.id :: rest) m) : Progress d first before rest after := by
  have hself := h.tracked.rest_occupied s.id (List.mem_cons_self ..)
  have hwanes := wanes_turned hs hrunning hturned hself
  refine ⟨tracked_turned hv hs hrunning hturned h.tracked, ?_, h.wanes.trans hwanes, ?_⟩
  · intro f hf
    rcases failure_turned hrunning hturned with hsame | ⟨g, hg, hmet⟩
    · exact h.met f (hsame ▸ hf)
    · obtain rfl : f = g := Option.some.inj (hf.symm.trans hg)
      exact hmet
  · intro hgoing
    rcases h.relieved hrunning with hrest | hrelieved
    · rcases List.mem_cons.mp hrest with rfl | hrest
      · have hturn := relieved_turned hacyclic hs hrunning hturned h.tracked hfirst.notTerminal
          hfirst.clear hgoing
        exact Or.inr (h.wanes.relieved hturn)
      · exact Or.inl hrest
    · exact Or.inr (hrelieved.wanes hwanes)

/-- The first state does not stay, so that a step after which the run goes on has moved. -/
theorem moved_of_first {first : String} {moved : Bool} (hv : d.validate.hasErrors = false)
    (hdeclared : ∀ id ∈ m.run.current, ∃ s, d.state? id = some s) (hfirst : First d m.run first)
    (hmoved : moveAll host d m.run.current m.run.current false m = .ok (moved, after))
    (hrunning : after.isRunning = true) : moved = true := by
  by_contra hnothing
  obtain rfl : moved = false := Bool.eq_false_iff.mpr hnothing
  obtain ⟨s, hs, hstays⟩ := stays_of_moveAll hv hdeclared hmoved hrunning first hfirst.occupied
  obtain rfl : s.id = first := (Definition.mem_of_state? hs).2
  exact not_stays_of_clear hdeclared hs hfirst.notTerminal hfirst.clear hstays

/-- A step that comes to its end with the run going on has left less to do. -/
theorem Progress.underway {before : Machine} {first : String}
    (h : Progress d first before [] m) (hrunning : m.isRunning = true)
    (hopen : ∃ id ∈ m.run.current, isTerminal d id = false)
    (hdeclared : ∃ s, d.state? first = some s) (host : Host) :
    Underway d (m.touch host) ∧ (m.touch host).run.labour d < before.run.labour d := by
  have hrelieved : Relieved d first before.run m.run :=
    (h.relieved hrunning).resolve_left List.not_mem_nil
  have hrest : AtRest d m.run := atRest_of_open hopen h.tracked.toMidway
  have hshut : Sealed d (m.touch host).run := sealed_of_eq rfl rfl h.tracked.shut
  have hlabour : m.run.labour d < before.run.labour d := labour_lt h.wanes hdeclared hrelieved
  exact ⟨⟨atRest_touch host hrest, hshut, hrunning⟩, hlabour⟩

/-- The end of a step settles the run, or leaves it going on with less to do. -/
theorem progress_conclude {first : String} {moved : Bool} (hv : d.validate.hasErrors = false)
    (hbefore : Underway d m) (hfirst : First d m.run first)
    (hmoved : moveAll host d m.run.current m.run.current false m = .ok (moved, after))
    (hrest : after.isRunning = true → rest = []) (h : Progress d first m rest after) :
    Settled ((after.conclude d moved).touch host) ∨
      Underway d ((after.conclude d moved).touch host) ∧
        ((after.conclude d moved).touch host).run.labour d < m.run.labour d := by
  unfold conclude
  by_cases hrunning : after.isRunning = true
  · obtain rfl := hrest hrunning
    obtain rfl := moved_of_first hv hbefore.rest.declared hfirst hmoved hrunning
    simp only [hrunning, Bool.not_true, Bool.false_eq_true, if_false]
    split
    · exact Or.inl ⟨Or.inl rfl, h.met⟩
    · rename_i hdone
      have hopen : ∃ id ∈ after.run.current, isTerminal d id = false := by
        simpa [h.tracked.nonempty] using hdone
      have hdeclared := hbefore.rest.declared first hfirst.occupied
      exact Or.inr (h.underway hrunning hopen hdeclared host)
  · simp only [hrunning, Bool.not_false, if_true]
    have hfailed : after.run.status = .failed :=
      h.tracked.going.resolve_left fun hgoing => hrunning ((isRunning_iff after).mpr hgoing)
    exact Or.inl ⟨Or.inr hfailed, h.met⟩

/-- A step of a run that goes on settles it, or leaves less to do. -/
theorem advance_underway (hv : d.validate.hasErrors = false) (hacyclic : d.Acyclic)
    (hjudges : host.Judges) (h : Underway d m) :
    ∃ after, m.advance host d = .ok after ∧
      (Settled after ∨ Underway d after ∧ after.run.labour d < m.run.labour d) := by
  obtain ⟨first, hfirst⟩ := exists_first hacyclic (exists_open_of_isRunning h.rest h.running)
  have hnone := failure_eq_none_of_isRunning h.rest h.running
  have hbegin : Progress d first m m.run.current m :=
    ⟨tracked_of_atRest h.running h.rest h.shut, by simp [hnone], Wanes.refl d m.run,
      fun _ => Or.inl hfirst.occupied⟩
  have hturns := moveAll_keeps host m.run.current hv (P := Progress d first m)
    (fun _ _ hids id hid => hids.tracked.declared id (hids.tracked.rest_occupied id hid))
    (fun _ _ _ ha hids => ⟨tracked_alike ha.toAlike hids.tracked, ha.failure_eq ▸ hids.met,
      hids.wanes.trans (Wanes.of_eq ha.current_eq ha.pending_eq), fun hgoing =>
        (hids.relieved (ha.isRunning_eq ▸ hgoing)).imp_right fun hrelieved =>
          hrelieved.wanes (Wanes.of_eq ha.current_eq ha.pending_eq)⟩)
    (fun _ _ _ _ _ hs hrunning hturned hids =>
      progress_turned hv hacyclic hfirst hs hrunning hturned hids)
    false hbegin
  rcases hturns with ⟨moved, last, rest, he, hlast, hrest⟩ | ⟨why, -, -, -, hwhy, -⟩
  · refine ⟨(last.conclude d moved).touch host, ?_,
      progress_conclude hv h hfirst he hrest hlast⟩
    unfold advance
    rw [if_neg (not_not.mpr h.rest.workflow)]
    simp only [h.running, Bool.not_true, Bool.false_eq_true, if_false, he]
  · exact absurd hwhy (hjudges why)

/-- A run that goes on has something left to do. -/
theorem Underway.labour_pos (h : Underway d m) : 0 < m.run.labour d := by
  obtain ⟨id, hid, hopen⟩ := exists_open_of_isRunning h.rest h.running
  obtain ⟨s, hs⟩ := h.rest.declared id hid
  obtain ⟨hmem, rfl⟩ := Definition.mem_of_state? hs
  have hahead : 0 < d.states.countP (fun s => m.run.ahead d s.id) :=
    List.countP_pos_iff.mpr ⟨s, hmem, ahead_iff.mpr ⟨s.id, hid, hopen, .refl d s.id⟩⟩
  unfold labour
  omega

theorem steps_settle (hv : d.validate.hasErrors = false) (hacyclic : d.Acyclic)
    (hjudges : host.Judges) {n : Nat} (h : Settled m ∨ Underway d m ∧ m.run.labour d ≤ n) :
    ∃ after, steps host d n m = .ok after ∧ Settled after := by
  induction n generalizing m with
  | zero =>
    rcases h with hsettled | ⟨hunderway, hnone⟩
    · exact ⟨m, rfl, hsettled⟩
    · have hpos := hunderway.labour_pos
      omega
  | succ n ih =>
    rcases h with hsettled | ⟨hunderway, hle⟩
    · exact ⟨m, steps_of_stopped host d _ hsettled.not_running, hsettled⟩
    · obtain ⟨next, hnext, hcase⟩ := advance_underway hv hacyclic hjudges hunderway
      have hless : Settled next ∨ Underway d next ∧ next.run.labour d ≤ n :=
        hcase.imp_right fun hparts => ⟨hparts.1, by omega⟩
      obtain ⟨after, hafter, hsettled⟩ := ih hless
      refine ⟨after, ?_, hsettled⟩
      rw [steps, if_pos hunderway.running, hnext]
      exact hafter

end Steps

/-- Where no state leads back to itself and every guard is judged, a valid definition can be run to
its end, whatever guards and actions answer: the run starts, settles within a number of steps that
is twice the number of states, and neither deadlocks nor misses a state. -/
theorem settled_of_acyclic {d : Definition} (hv : d.validate.hasErrors = false)
    (hacyclic : d.Acyclic) {host : Host} (hjudges : host.Judges) (bindings : Fields) (id : String)
    (reads judged invoked : Nat) {limit : Int} (hlimit : 2 * d.states.length ≤ limit) :
    ∃ m after, start host d bindings id reads judged invoked = .ok m ∧
      m.settle host d limit = .ok after ∧ after.isRunning = false ∧
      (after.run.status = .completed ∨ after.run.status = .failed) ∧
      ∀ f, after.run.failure = some f → f.kind ≠ "Deadlock" ∧ f.kind ≠ "UnknownState" := by
  obtain ⟨m, hstart⟩ := exists_start hv hjudges bindings id reads judged invoked
  obtain ⟨initial, before, hinitial, hrun, -, hadvance⟩ := start_cases hstart
  have hbefore : Underway d before := by
    refine ⟨?_, ?_, ?_⟩
    · rw [hrun]
      exact atRest_fresh hinitial
    · rw [hrun]
      exact sealed_fresh hinitial
    · rw [isRunning_iff, hrun]
      rfl
  obtain ⟨first, hfirst, hcase⟩ := advance_underway hv hacyclic hjudges hbefore
  obtain rfl : m = first := Except.ok.inj (hadvance.symm.trans hfirst)
  have hbound := labour_le d m.run
  have henough : Settled m ∨ Underway d m ∧ m.run.labour d ≤ limit.toNat :=
    hcase.imp_right fun hparts => ⟨hparts.1, by omega⟩
  obtain ⟨after, hsteps, hsettled⟩ := steps_settle hv hacyclic hjudges henough
  have hstopped := hsettled.not_running
  refine ⟨m, after, hstart, ?_, hstopped, hsettled.ended, fun f hf => (hsettled.met f hf).kind_ne⟩
  simp [settle, hsteps, bind, Except.bind, hstopped, pure, Except.pure]

/-- Seven states are no more than fourteen steps, and the run is completed within them. -/
theorem settled_of_uneven_branches :
    ∃ d m after, Definition.parse (Text.unlines unevenBranches) none = .ok d ∧
      d.validate.hasErrors = false ∧ d.Acyclic ∧ quietHost.steadied.Judges ∧
      2 * d.states.length ≤ (14 : Int) ∧
      start quietHost.steadied d [] "run-1" 0 0 0 = .ok m ∧
      m.settle quietHost.steadied d 14 = .ok after ∧ after.isRunning = false ∧
      after.run.status = .completed := by
  obtain ⟨d, hparse, hv, htest⟩ := Definition.exists_read unevenBranches
    (fun d => decide (d.Acyclic ∧ d.states.length = 7) &&
      succeedsWith (fun m => succeedsWith (fun after => after.run.status == .completed)
        (m.settle quietHost.steadied d 14)) (start quietHost.steadied d [] "run-1" 0 0 0))
    (by decide) (by decide +kernel)
  rw [Bool.and_eq_true, decide_eq_true_eq, succeedsWith_iff] at htest
  obtain ⟨⟨hacyclic, hstates⟩, m', hm', hrun⟩ := htest
  obtain ⟨after', hafter', hcompleted⟩ := succeedsWith_iff.mp hrun
  have hjudges := Host.judges_steadied quietHost
  have hlimit : 2 * d.states.length ≤ (14 : Int) := by omega
  obtain ⟨m, after, hstart, hsettle, hstopped, -⟩ :=
    settled_of_acyclic hv hacyclic hjudges [] "run-1" 0 0 0 hlimit
  obtain rfl : m' = m := Except.ok.inj (hm'.symm.trans hstart)
  obtain rfl : after' = after := Except.ok.inj (hafter'.symm.trans hsettle)
  exact ⟨d, m', after', hparse, hv, hacyclic, hjudges, hlimit, hstart, hsettle, hstopped,
    by simpa using hcompleted⟩

end Machine

end Runbook.Workflow
