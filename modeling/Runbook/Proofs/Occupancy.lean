import Runbook.Proofs.Documents
import Runbook.Proofs.Sealed

/-!
What a step occupies. Every occupied state has one turn, at which it stays or heads for its
targets. Afterwards a state is occupied exactly when some turn headed for it and its own turn was
not later: a state that is headed for before its own turn is left at that turn, together with what
had just arrived there. So all that is headed for is occupied exactly when nothing is lost so.
-/
namespace Runbook.Workflow

/-- A state at its turn, with the machine as it then is. -/
structure Turn where
  state : State
  machine : Machine

namespace Turn

/-- Where a turn heads for in a step from a machine: a terminal state and a join that waited before
the step stay where they are, and any other state goes to the targets that are chosen for it. -/
def heads (host : Host) (d : Definition) (before : Machine) (t : Turn) : List String :=
  if t.state.kind = .terminal ∨ before.awaits t.state = true then [t.state.id]
  else
    match t.machine.targets host d t.state with
    | .ok (some ids, _) => ids
    | _ => []

variable (heads : Turn → List String) (turns : List Turn) (id : String)

def HeadedFor : Prop := ∃ t ∈ turns, id ∈ heads t

/-- A turn heads for a state whose own turn is not later. -/
def KeptTo : Prop :=
  ∃ earlier t later, turns = earlier ++ t :: later ∧ id ∈ heads t ∧ id ∉ later.map (·.state.id)

/-- A state is headed for, but only before its own turn. -/
def Lost : Prop := HeadedFor heads turns id ∧ ¬ KeptTo heads turns id

variable {heads turns id}

theorem KeptTo.headedFor (h : KeptTo heads turns id) : HeadedFor heads turns id := by
  obtain ⟨earlier, t, later, rfl, hid, -⟩ := h
  exact ⟨t, by simp, hid⟩

theorem not_keptTo_nil : ¬ KeptTo heads [] id := by
  intro hparts
  obtain ⟨earlier, t, later, heq, -⟩ := hparts
  simp at heq

theorem keptTo_cons {t : Turn} :
    KeptTo heads (t :: turns) id ↔
      (id ∈ heads t ∧ id ∉ turns.map (·.state.id)) ∨ KeptTo heads turns id := by
  constructor
  · intro hparts
    obtain ⟨earlier, u, later, heq, hid, hlater⟩ := hparts
    cases earlier with
    | nil =>
      obtain ⟨rfl, rfl⟩ := List.cons.inj heq
      exact Or.inl ⟨hid, hlater⟩
    | cons first earlier =>
      obtain ⟨rfl, hrest⟩ := List.cons.inj heq
      exact Or.inr ⟨earlier, u, later, hrest, hid, hlater⟩
  · intro hcase
    rcases hcase with ⟨hid, hlater⟩ | ⟨earlier, u, later, rfl, hid, hlater⟩
    · exact ⟨[], t, turns, rfl, hid, hlater⟩
    · exact ⟨t :: earlier, u, later, rfl, hid, hlater⟩

end Turn

namespace Machine

/-- The turns of some states, one after another. -/
def turns (host : Host) (d : Definition) (occupied : List String) :
    List String → Machine → List Turn
  | [], _ => []
  | id :: rest, m =>
    match d.state? id with
    | none => []
    | some s =>
      ⟨s, m⟩ ::
        match m.move host d occupied s with
        | .ok (_, after) => turns host d occupied rest after
        | .error _ => []

open Run Turn

variable {host : Host} {d : Definition} {m before : Machine} {s : State}
  {occupied rest : List String}

theorem mem_current_arriveAll_iff {source id : String} {targets : List State}
    (hrunning : (arriveAll host source targets m).isRunning = true) :
    id ∈ (arriveAll host source targets m).run.current ↔
      id ∈ m.run.current ∨ id ∈ targets.map State.id := by
  induction targets generalizing m with
  | nil => simp [arriveAll]
  | cons t targets ih =>
    simp only [arriveAll] at hrunning ⊢
    split at hrunning
    · rename_i hgoing
      rw [if_pos hgoing, ih hrunning, arriveAt_current, mem_current_occupy, List.map_cons,
        List.mem_cons, or_assoc]
    · rename_i hstopped
      exact absurd hrunning hstopped

/-- A turn after which the run goes on leaves occupied what was, but for its own state, and what it
heads for. -/
theorem turned_current (hv : d.validate.hasErrors = false) (hs : d.state? s.id = some s)
    {moved : Bool} {after : Machine}
    (hturned : Turned host d occupied s m moved after) (h : Tracked d occupied (s.id :: rest) m.run)
    (hwaits : Keyed.has s.id m.run.pending = Keyed.has s.id before.run.pending)
    (hafter : after.isRunning = true) :
    heads host d before ⟨s, m⟩ ≠ [] ∧
      ∀ id, id ∈ after.run.current ↔
        (id ∈ m.run.current ∧ id ≠ s.id) ∨ id ∈ heads host d before ⟨s, m⟩ := by
  have hawaits : m.awaits s = before.awaits s := by
    unfold awaits
    rw [hwaits]
  have hself : s.id ∈ m.run.current := h.rest_occupied s.id (List.mem_cons_self ..)
  -- a state that stays heads for itself
  have hstays : s.kind = .terminal ∨ m.awaits s = true →
      heads host d before ⟨s, m⟩ = [s.id] := by
    intro hstay
    unfold heads
    rw [← hawaits, if_pos hstay]
  have hsame : ∀ id, id ∈ m.run.current ↔ (id ∈ m.run.current ∧ id ≠ s.id) ∨ id ∈ [s.id] := by
    intro id
    rw [List.mem_singleton]
    by_cases hid : id = s.id
    · simp [hid, hself]
    · simp [hid]
  cases hturned with
  | stays hstay =>
    rw [hstays (hstay.imp_right And.left)]
    exact ⟨List.cons_ne_nil _ _, hsame⟩
  | fires hready =>
    rw [hstays (Or.inr hready), enter_current]
    exact ⟨List.cons_ne_nil _ _, hsame⟩
  | fails => simp [not_isRunning_fail] at hafter
  | @goes asked targets hkind hidle hasked htargets hleads =>
    have hheads : heads host d before ⟨s, m⟩ = targets.map State.id := by
      unfold heads
      rw [← hawaits, if_neg (by simp [hkind, hidle]), htargets]
    rw [hheads]
    refine ⟨by simpa using targets_ne_nil hv hs htargets, ?_⟩
    intro id
    rw [mem_current_arriveAll_iff hafter, leave_current, hasked.current_eq,
      h.distinct.mem_erase_iff, and_comm]

theorem isRunning_of_moveAll {ids : List String} {moved moved' : Bool} {after : Machine}
    (h : moveAll host d occupied ids moved m = .ok (moved', after))
    (hafter : after.isRunning = true) : m.isRunning = true := by
  cases ids with
  | nil =>
    cases h
    exact hafter
  | cons id rest =>
    unfold moveAll at h
    split at h
    · cases h
      exact hafter
    · rename_i hrunning
      simpa using hrunning

theorem current_moveAll (before : Machine) (hv : d.validate.hasErrors = false) {ids : List String}
    {moved moved' : Bool} {after : Machine} (h : Tracked d occupied ids m.run)
    (hwaits : ∀ id ∈ ids, Keyed.has id m.run.pending = Keyed.has id before.run.pending)
    (hmoved : moveAll host d occupied ids moved m = .ok (moved', after))
    (hafter : after.isRunning = true) :
    (turns host d occupied ids m).map (·.state.id) = ids ∧
      (∀ t ∈ turns host d occupied ids m, t.heads host d before ≠ []) ∧
      ∀ id, id ∈ after.run.current ↔ (id ∈ m.run.current ∧ id ∉ ids) ∨
        KeptTo (heads host d before) (turns host d occupied ids m) id := by
  induction ids generalizing m moved with
  | nil =>
    have hnone : turns host d occupied [] m = [] := rfl
    rw [hnone]
    cases hmoved
    refine ⟨rfl, fun t ht => absurd ht List.not_mem_nil, fun id => ?_⟩
    simp [not_keptTo_nil]
  | cons id rest ih =>
    have hrunning := isRunning_of_moveAll hmoved hafter
    obtain ⟨s, hs⟩ := h.declared id (h.rest_occupied id (List.mem_cons_self ..))
    obtain rfl : s.id = id := (Definition.mem_of_state? hs).2
    rcases move_cases host occupied m (Definition.linked_of_valid hv) hs with
      ⟨here, next, he, hturned⟩ | ⟨why, asked, he, -⟩
    · simp only [moveAll, hrunning, Bool.not_true, Bool.false_eq_true, if_false, hs, he, bind,
        Except.bind] at hmoved
      have hnext := isRunning_of_moveAll hmoved hafter
      obtain ⟨hheads, hcurrent⟩ := turned_current hv hs hturned h
        (hwaits s.id (List.mem_cons_self ..)) hnext
      have hlater : ∀ id ∈ rest,
          Keyed.has id next.run.pending = Keyed.has id before.run.pending := by
        intro id hid
        have hmem := List.mem_cons_of_mem s.id hid
        have hne : id ≠ s.id := fun heq => (List.nodup_cons.mp h.rest_distinct).1 (heq ▸ hid)
        have hsame := (others_turned hs hrunning hturned h (h.rest_occupied id hmem) hne).2
        exact hsame.trans (hwaits id hmem)
      obtain ⟨hids, hall, hfinal⟩ :=
        ih (tracked_turned hv hs hrunning hturned h) hlater hmoved
      have hturns : turns host d occupied (s.id :: rest) m =
          ⟨s, m⟩ :: turns host d occupied rest next := by
        simp only [turns, hs, he]
      rw [hturns]
      refine ⟨by rw [List.map_cons, hids], ?_, ?_⟩
      · intro t ht
        rcases List.mem_cons.mp ht with rfl | ht
        · exact hheads
        · exact hall t ht
      · intro id
        rw [hfinal, hcurrent, keptTo_cons, hids, List.mem_cons]
        tauto
    · simp [moveAll, hrunning, hs, he, bind, Except.bind] at hmoved

/-- Where only terminal states are occupied, that is the reserved one. -/
theorem current_eq_endId {r : Run} (hsound : d.Sound) (h : Coherent d r) (hne : r.current ≠ [])
    (hterminal : ∀ id ∈ r.current, isTerminal d id = true) : r.current = [endId] := by
  have hend : ∀ id ∈ r.current, id = endId :=
    fun id hid => eq_endId_of_isTerminal hsound (hterminal id hid)
  have hdistinct := h.distinct
  cases hcurrent : r.current with
  | nil => exact absurd hcurrent hne
  | cons first others =>
    rw [hcurrent] at hend hdistinct
    have hfirst : first = endId := hend first (List.mem_cons_self ..)
    have hnone : others = [] := by
      rw [List.eq_nil_iff_forall_not_mem]
      intro id hid
      have heq : id = first := (hend id (List.mem_cons_of_mem _ hid)).trans hfirst.symm
      exact (List.nodup_cons.mp hdistinct).1 (heq ▸ hid)
    rw [hfirst, hnone]

/-- What a step of a run leaves occupied, in terms of the turns of that step. -/
structure Accounted (host : Host) (d : Definition) (before after : Machine) : Prop where
  turns : (turns host d before.run.current before.run.current before).map (·.state.id) =
    before.run.current
  heads : ∀ t ∈ Machine.turns host d before.run.current before.run.current before,
    t.heads host d before ≠ []
  current : ∀ id, id ∈ after.run.current ↔ KeptTo (Turn.heads host d before)
    (Machine.turns host d before.run.current before.run.current before) id

/-- Where only terminal states are occupied they have their turns and stay. -/
theorem accounted_completed (hsound : d.Sound) {after : Machine}
    (h : AtRest d m.run) (hterminal : ∀ id ∈ m.run.current, isTerminal d id = true)
    (hafter : after.run.current = m.run.current) : Accounted host d m after := by
  obtain ⟨t, ht, hkind⟩ := exists_terminal (isTerminal_endId hsound h.nonempty hterminal)
  have hid : t.id = endId := (Definition.mem_of_state? ht).2
  have hcurrent : m.run.current = [endId] :=
    current_eq_endId hsound h.toCoherent h.nonempty hterminal
  have hturns : turns host d m.run.current m.run.current m = [⟨t, m⟩] := by
    rw [hcurrent]
    simp only [turns, ht]
    rw [move_of_stays (Or.inl hkind)]
  have hheads : Turn.heads host d m ⟨t, m⟩ = [endId] := by
    unfold Turn.heads
    rw [if_pos (Or.inl hkind), hid]
  constructor
  · rw [hturns, hcurrent, List.map_singleton, hid]
  · rw [hturns]
    intro u hu
    rw [List.mem_singleton.mp hu, hheads]
    exact List.cons_ne_nil endId []
  · intro id
    rw [hturns, keptTo_cons, hheads, hafter, hcurrent]
    simp [not_keptTo_nil]

/-- Unless it fails the run, the end of a step leaves the occupied states as they are. -/
theorem conclude_current (hsound : d.Sound) {moved : Bool}
    (h : Midway d rest m.run) (hgood : (m.conclude d moved).run.status ≠ .failed) :
    m.isRunning = true ∧ (m.conclude d moved).run.current = m.run.current := by
  unfold conclude at hgood ⊢
  by_cases hrunning : m.isRunning = true
  · refine ⟨hrunning, ?_⟩
    simp only [hrunning, Bool.not_true, Bool.false_eq_true, if_false] at hgood ⊢
    split
    · rename_i hdone
      rw [Bool.and_eq_true, List.all_eq_true] at hdone
      exact (current_eq_endId hsound h.toCoherent h.nonempty hdone.2).symm
    · rename_i hopen
      rw [if_neg hopen] at hgood
      split
      · rename_i hidle
        rw [if_pos hidle] at hgood
        exact absurd rfl hgood
      · rfl
  · simp only [hrunning, Bool.not_false, if_true] at hgood
    rcases h.going with hgoing | hfailed
    · exact absurd ((isRunning_iff m).mpr hgoing) hrunning
    · exact absurd hfailed hgood

theorem accounted_advance (hsound : d.Sound) {after : Machine} (h : AtRest d m.run)
    (hshut : Sealed d m.run) (hadvance : m.advance host d = .ok after)
    (hgood : after.run.status = .running ∨ after.run.status = .completed) :
    Accounted host d m after := by
  unfold advance at hadvance
  rw [if_neg (not_not.mpr h.workflow)] at hadvance
  by_cases hrunning : m.isRunning = true
  · simp only [hrunning, Bool.not_true, Bool.false_eq_true, if_false] at hadvance
    split at hadvance
    · cases hadvance
    · rename_i moved last hmoved
      cases hadvance
      obtain ⟨rest, hlast⟩ := midway_moveAll hsound.valid (midway_of_atRest hrunning h) hmoved
      have hfine : (last.conclude d moved).run.status ≠ .failed := by
        have hsame : ((last.conclude d moved).touch host).run.status =
            (last.conclude d moved).run.status := rfl
        rw [← hsame]
        rcases hgood with hs | hs <;>
          (rw [hs]; nofun)
      obtain ⟨hgoing, hfinal⟩ := conclude_current hsound hlast hfine
      obtain ⟨hids, hheads, hcurrent⟩ := current_moveAll m hsound.valid
        (tracked_of_atRest hrunning h hshut) (fun _ _ => rfl) hmoved hgoing
      refine ⟨hids, hheads, fun id => ?_⟩
      have hsame : ((last.conclude d moved).touch host).run.current = last.run.current := hfinal
      rw [hsame, hcurrent]
      tauto
  · simp only [hrunning, Bool.not_false, if_true] at hadvance
    cases hadvance
    have hcompleted : m.run.status = .completed := by
      rcases hgood with hgoing | hcompleted
      · exact absurd ((isRunning_iff m).mpr hgoing) hrunning
      · exact hcompleted
    exact accounted_completed hsound h (h.completed.mp hcompleted) rfl

/-- After a step that has not failed the run, a state is occupied exactly when some turn of the
step headed for it and its own turn was not later. So the occupied states are those that are headed
for exactly when none of these is lost. -/
theorem mem_current_advance_iff {text : String} {name : Option String} {d : Definition}
    (hparse : Definition.parse text name = .ok d) (hv : d.validate.hasErrors = false)
    {host : Host} {bindings : Fields} {id : String} {reads judged invoked : Nat} {m : Machine}
    (hstart : start host d bindings id reads judged invoked = .ok m) (calls : List Call)
    {after : Machine} (hadvance : (m.after host d calls).advance host d = .ok after)
    (hgood : after.run.status = .running ∨ after.run.status = .completed) :
    let before := m.after host d calls
    let turns := before.turns host d before.run.current before.run.current
    Accounted host d before after ∧
      ((∀ y, y ∈ after.run.current ↔ HeadedFor (Turn.heads host d before) turns y) ↔
        ∀ y, ¬ Lost (Turn.heads host d before) turns y) := by
  intro before turns
  have hsound : d.Sound := Definition.sound_of_parse hparse hv
  have haccounted : Accounted host d before after :=
    accounted_advance hsound (atRest_after hsound hstart calls)
      (sealed_after hsound hstart calls) hadvance hgood
  refine ⟨haccounted, ?_⟩
  constructor
  · intro hclaim y hparts
    obtain ⟨hheaded, hnot⟩ := hparts
    exact hnot ((haccounted.current y).mp ((hclaim y).mpr hheaded))
  · intro hnone y
    rw [haccounted.current y]
    refine ⟨KeptTo.headedFor, fun hheaded => ?_⟩
    by_contra hnot
    exact hnone y ⟨hheaded, hnot⟩

/-- A branch of a fork that leads to the other one. -/
def overtakenBranch : List String :=
  ["name: overtaken", "", "state F <<fork>>", "state J <<join>>", "[*] --> F", "F --> A", "F --> B",
    "A --> B", "A --> J : {late}", "B --> J", "J --> [*]"]

/-- The second branch is left for the join together with what has just come over from the first. -/
theorem exists_lost_of_overtakenBranch :
    ∃ d m after, Definition.parse (Text.unlines overtakenBranch) none = .ok d ∧
      d.validate.hasErrors = false ∧ start quietHost d [] "run-1" 0 0 0 = .ok m ∧
      (m.after quietHost d [.advance]).advance quietHost d = .ok after ∧
      after.run.status = .running ∧ after.run.current = ["J"] ∧
      Lost (Turn.heads quietHost d (m.after quietHost d [.advance]))
        ((m.after quietHost d [.advance]).turns quietHost d ["A", "B"] ["A", "B"]) "B" := by
  obtain ⟨d, m, hparse, hv, hstart, htest⟩ := exists_started overtakenBranch []
    (fun d m =>
      let before := m.after quietHost d [.advance]
      decide (before.run.current = ["A", "B"]) &&
        (before.turns quietHost d ["A", "B"] ["A", "B"]).any
          (fun t => (t.heads quietHost d before).contains "B") &&
        succeedsWith (fun after : Machine =>
          decide (after.run.status = .running ∧ after.run.current = ["J"]))
          (before.advance quietHost d)) (by decide) (by decide +kernel)
  simp only [Bool.and_eq_true, decide_eq_true_eq, List.any_eq_true, List.contains_iff_mem] at htest
  obtain ⟨⟨hbefore, hheaded⟩, hadvanced⟩ := htest
  obtain ⟨after, hadvance, hafter⟩ := succeedsWith_iff.mp hadvanced
  obtain ⟨hstatus, hcurrent⟩ := of_decide_eq_true hafter
  refine ⟨d, m, after, hparse, hv, hstart, hadvance, hstatus, hcurrent, hheaded, fun hkept => ?_⟩
  have haccounted :=
    (mem_current_advance_iff hparse hv hstart [.advance] hadvance (Or.inl hstatus)).1
  have hoccupied := (haccounted.current "B").mpr (by rw [hbefore]; exact hkept)
  rw [hcurrent] at hoccupied
  simp at hoccupied

end Machine

end Runbook.Workflow
