import Runbook.Proofs.Coherence
import Runbook.Proofs.Documents

/-!
Every run is orderly after any calls upon it. A turn keeps coherence and leaves the states that
have not had their turn where they are; the end of a step decides whether the run is completed.
-/
namespace Runbook.Workflow

namespace Machine

open Run

variable {host : Host} {d : Definition} {m : Machine} {s : State}

theorem midway_alike {rest : List String} {asked : Machine} (ha : Alike m asked)
    (h : Midway d rest m.run) : Midway d rest asked.run where
  toCoherent := coherent_alike ha h.toCoherent
  nonempty := ha.current_eq ▸ h.nonempty
  going := ha.status_eq ▸ h.going
  rest_occupied := ha.current_eq ▸ h.rest_occupied
  rest_distinct := h.rest_distinct

/-- Arrivals after a state has been left keep the run coherent and give up no other state. -/
theorem midway_goes {rest : List String} {targets : List State}
    (h : Midway d (s.id :: rest) m.run) (hrunning : m.run.status = .running)
    (hs : d.state? s.id = some s) (hidle : m.awaits s = false) (hne : targets ≠ [])
    (hleads : ∀ t ∈ targets, d.state? t.id = some t ∧ d.Leads s.id t.id) :
    Midway d rest (arriveAll host s.id targets (m.leave host s)).run := by
  have hdistinct := List.nodup_cons.mp h.rest_distinct
  let P : Machine → Prop := fun after => Coherent d after.run ∧
    (after.run.status = .running ∨ after.run.status = .failed) ∧
    ∀ id ∈ rest, id ∈ after.run.current
  have hleft : P (m.leave host s) := by
    refine ⟨coherent_leave h.toCoherent hrunning hs hidle, ?_, ?_⟩
    · rw [leave_status]
      exact h.going
    · intro id hid
      have hother : id ≠ s.id := fun heq => hdistinct.1 (heq ▸ hid)
      rw [leave_current]
      exact (List.mem_erase_of_ne hother).mpr (h.rest_occupied id (List.mem_cons_of_mem _ hid))
  have hall : P (arriveAll host s.id targets (m.leave host s)) := by
    refine arriveAll_keeps ?_ ?_ hleft
    · intro t ht before hgoing hparts
      obtain ⟨hcoherent, hstatus, hrest⟩ := hparts
      have hbefore := (isRunning_iff before).mp hgoing
      obtain ⟨hdeclared, hlead⟩ := hleads t ht
      refine ⟨coherent_arriveAt hcoherent hbefore hdeclared hlead, ?_, ?_⟩
      · rcases arriveAt_status host s.id before t with ⟨he, -⟩ | ⟨-, message, he, -⟩
        · exact he ▸ hstatus
        · exact Or.inr he
      · intro id hid
        rw [arriveAt_current, mem_current_occupy]
        exact Or.inl (hrest id hid)
    · rw [leave_isRunning]
      exact (isRunning_iff m).mpr hrunning
  exact ⟨hall.1, arriveAll_current_ne_nil hne, hall.2.1, hall.2.2, hdistinct.2⟩

theorem midway_turned (hv : d.validate.hasErrors = false) {occupied rest : List String}
    {moved : Bool} {after : Machine} (hs : d.state? s.id = some s) (hrunning : m.isRunning = true)
    (hturned : Turned host d occupied s m moved after) (h : Midway d (s.id :: rest) m.run) :
    Midway d rest after.run := by
  have hstatus := (isRunning_iff m).mp hrunning
  have hdistinct := List.nodup_cons.mp h.rest_distinct
  have hrest : ∀ id ∈ rest, id ∈ m.run.current :=
    fun id hid => h.rest_occupied id (List.mem_cons_of_mem _ hid)
  have hself : s.id ∈ m.run.current := h.rest_occupied s.id (List.mem_cons_self ..)
  cases hturned with
  | stays => exact ⟨h.toCoherent, h.nonempty, h.going, hrest, hdistinct.2⟩
  | fires hwaits hready =>
    refine ⟨coherent_fire_enter h.toCoherent hs hwaits, ?_, ?_, ?_, hdistinct.2⟩
    · rw [enter_current]
      exact h.nonempty
    · rcases enter_status host (m.fire s.id) s with ⟨he, -⟩ | ⟨message, he, -⟩
      · exact Or.inl (he.trans hstatus)
      · exact Or.inr he
    · rw [enter_current]
      exact hrest
  | fails hkind hwaits hasked =>
    have hask := midway_alike hasked.toAlike h
    refine ⟨coherent_fail hask.toCoherent _ ?_, hask.nonempty, Or.inr rfl, ?_, hdistinct.2⟩
    · exact ⟨s.id, hask.rest_occupied s.id (List.mem_cons_self ..), isTerminal_of_kind_ne hs hkind⟩
    · exact fun id hid => hask.rest_occupied id (List.mem_cons_of_mem _ hid)
  | goes hkind hwaits hasked htargets hleads =>
    have hidle := (hasked.awaits_eq s).trans hwaits
    exact midway_goes (midway_alike hasked.toAlike h) (hasked.status_eq.trans hstatus) hs hidle
      (targets_ne_nil hv hs htargets) hleads

theorem atRest_alike {after : Machine} (ha : Alike m after) (h : AtRest d m.run) :
    AtRest d after.run where
  toCoherent := coherent_alike ha h.toCoherent
  nonempty := ha.current_eq ▸ h.nonempty
  completed := by
    rw [ha.status_eq, ha.current_eq]
    exact h.completed

/-- Where only terminal states are occupied, no join waits. -/
theorem pending_eq_nil {r : Run} (h : Coherent d r)
    (hterminal : ∀ id ∈ r.current, isTerminal d id = true) : r.pending = [] := by
  rw [List.eq_nil_iff_forall_not_mem]
  intro hparts he
  obtain ⟨join, arrived⟩ := hparts
  have hawaits := h.awaits join arrived he
  have hopen := isTerminal_of_isJoin hawaits.isJoin
  rw [hterminal join hawaits.occupied] at hopen
  cases hopen

theorem exists_terminal {id : String} (h : isTerminal d id = true) :
    ∃ t, d.state? id = some t ∧ t.kind = .terminal := by
  unfold isTerminal at h
  cases ht : d.state? id with
  | none => simp [ht] at h
  | some t => exact ⟨t, rfl, by simpa [ht] using h⟩

/-- The reserved identifier is the only terminal state of a definition that was read. -/
theorem eq_endId_of_isTerminal (hsound : d.Sound) {id : String}
    (h : isTerminal d id = true) : id = endId := by
  obtain ⟨t, ht, hkind⟩ := exists_terminal h
  obtain ⟨hmem, rfl⟩ := Definition.mem_of_state? ht
  exact (hsound.reserved t hmem).2 hkind

theorem isTerminal_endId {r : Run} (hsound : d.Sound)
    (hne : r.current ≠ []) (hterminal : ∀ id ∈ r.current, isTerminal d id = true) :
    isTerminal d endId = true := by
  obtain ⟨id, hid⟩ := List.exists_mem_of_ne_nil _ hne
  rw [← eq_endId_of_isTerminal hsound (hterminal id hid)]
  exact hterminal id hid

theorem atRest_touch (host : Host) (h : AtRest d m.run) : AtRest d (m.touch host).run :=
  ⟨⟨h.workflow, h.distinct, h.declared, h.keys, h.awaits, h.failed, h.unfinished⟩, h.nonempty,
    h.completed⟩

/-- Between two turns a run is as it may be between two calls while a state is occupied that is not
terminal. -/
theorem atRest_of_open {rest : List String}
    (hopen : ∃ id ∈ m.run.current, isTerminal d id = false) (h : Midway d rest m.run) :
    AtRest d m.run := by
  obtain ⟨id, hid, hnot⟩ := hopen
  refine ⟨h.toCoherent, h.nonempty, iff_of_false ?_ ?_⟩
  · rcases h.going with hs | hs <;>
      (rw [hs]; nofun)
  · intro hterminal
    rw [hterminal id hid] at hnot
    cases hnot

/-- A step that breaks off does so at the turn of a state that is not terminal. -/
theorem atRest_broken {rest : List String} (hopen : ∃ id ∈ rest, isTerminal d id = false)
    (h : Midway d rest m.run) : AtRest d m.run := by
  obtain ⟨id, hid, hnot⟩ := hopen
  exact atRest_of_open ⟨id, h.rest_occupied id hid, hnot⟩ h

/-- A run is completed where only terminal states are occupied. -/
theorem atRest_complete {rest : List String} (hsound : d.Sound) (h : Midway d rest m.run)
    (hrunning : m.isRunning = true) (hterminal : ∀ id ∈ m.run.current, isTerminal d id = true) :
    AtRest d m.complete.run := by
  have hend := isTerminal_endId hsound h.nonempty hterminal
  obtain ⟨t, ht, -⟩ := exists_terminal hend
  refine ⟨⟨h.workflow, List.nodup_singleton _, ?_, h.keys, ?_, ?_, nofun⟩,
    List.cons_ne_nil endId [], iff_of_true rfl ?_⟩
  · intro id hid
    rw [List.mem_singleton.mp hid]
    exact ⟨t, ht⟩
  · intro join arrived he
    have hnone : m.run.pending = [] := pending_eq_nil h.toCoherent hterminal
    have hmem : (join, arrived) ∈ m.run.pending := he
    rw [hnone] at hmem
    cases hmem
  · rw [show (m.complete).run.failure = m.run.failure from rfl, h.failed,
      (isRunning_iff m).mp hrunning]
    exact iff_of_false nofun nofun
  · intro id hid
    rw [List.mem_singleton.mp hid]
    exact hend

theorem atRest_conclude {rest : List String} {moved : Bool}
    (hsound : d.Sound) (h : Midway d rest m.run) :
    AtRest d ((m.conclude d moved).touch host).run := by
  apply atRest_touch
  unfold conclude
  by_cases hrunning : m.isRunning = true
  · have hempty : m.run.current.isEmpty = false := by simpa using h.nonempty
    simp only [hrunning, Bool.not_true, Bool.false_eq_true, if_false, hempty, Bool.not_false,
      Bool.true_and]
    by_cases hall : m.run.current.all (isTerminal d) = true
    · rw [if_pos hall]
      exact atRest_complete hsound h hrunning (List.all_eq_true.mp hall)
    · have hopen : ∃ id ∈ m.run.current, isTerminal d id = false := by
        simpa using hall
      rw [if_neg hall]
      split
      · have hnot : ¬ ∀ id ∈ m.run.current, isTerminal d id = true :=
          fun hterminal => hall (List.all_eq_true.mpr hterminal)
        exact ⟨coherent_fail h.toCoherent _ hopen, h.nonempty, iff_of_false nofun hnot⟩
      · exact atRest_of_open hopen h
  · simp only [hrunning, Bool.not_false, if_true]
    have hfailed : m.run.status = .failed := by
      rcases h.going with hgoing | hfailed
      · exact absurd ((isRunning_iff m).mpr hgoing) hrunning
      · exact hfailed
    exact atRest_of_open (h.unfinished hfailed) h

theorem midway_moveAll (hv : d.validate.hasErrors = false) {occupied ids : List String}
    {moved moved' : Bool} {after : Machine} (h : Midway d ids m.run)
    (hmoved : moveAll host d occupied ids moved m = .ok (moved', after)) :
    ∃ rest, Midway d rest after.run := by
  have hturns := moveAll_keeps host occupied hv
    (P := fun rest m => Midway d rest m.run)
    (fun _ _ h id hid => h.declared id (h.rest_occupied id hid))
    (fun _ _ _ ha => midway_alike ha.toAlike)
    (fun _ _ _ _ _ hs hrunning hturned => midway_turned hv hs hrunning hturned) moved h
  rcases hturns with ⟨flag, final, rest, he, hfinal, -⟩ | ⟨why, final, rest, he, -⟩
  · rw [hmoved] at he
    cases he
    exact ⟨rest, hfinal⟩
  · rw [hmoved] at he
    cases he

theorem atRest_restated {kind : EventKind} {after : Machine} (ha : Restated kind m after)
    (h : AtRest d m.run) : AtRest d after.run := by
  have hcurrent : after.run.current = m.run.current := by rw [ha.run]
  have hpending : after.run.pending = m.run.pending := by rw [ha.run]
  have hfailure : after.run.failure = m.run.failure := by rw [ha.run]
  have hworkflow : after.run.workflow = m.run.workflow := by rw [ha.run]
  have hopen := ha.requested.unfinished
  have hfailed : m.run.status ≠ .failed := fun hs => by simp [hs, Status.isFinished] at hopen
  have hcompleted : m.run.status ≠ .completed := fun hs => by simp [hs, Status.isFinished] at hopen
  obtain ⟨hfailed', hcompleted'⟩ := ha.requested.ne_verdict
  refine ⟨⟨hworkflow.trans h.workflow, hcurrent ▸ h.distinct, hcurrent ▸ h.declared,
    hpending ▸ h.keys, ?_, ?_, fun hf => absurd hf hfailed'⟩, hcurrent ▸ h.nonempty, ?_⟩
  · rw [hpending, hcurrent]
    exact h.awaits
  · rw [hfailure, h.failed]
    exact iff_of_false hfailed hfailed'
  · rw [hcurrent, ← h.completed]
    exact iff_of_false hcompleted' hcompleted

theorem midway_of_atRest (hrunning : m.isRunning = true) (h : AtRest d m.run) :
    Midway d m.run.current m.run :=
  ⟨h.toCoherent, h.nonempty, Or.inl ((isRunning_iff m).mp hrunning), fun _ hid => hid, h.distinct⟩

theorem exists_open_of_isRunning (h : AtRest d m.run) (hrunning : m.isRunning = true) :
    ∃ id ∈ m.run.current, isTerminal d id = false := by
  have hnot : ¬ ∀ id ∈ m.run.current, isTerminal d id = true := by
    rw [← h.completed, (isRunning_iff m).mp hrunning]
    nofun
  push Not at hnot
  obtain ⟨id, hid, hopen⟩ := hnot
  exact ⟨id, hid, Bool.eq_false_iff.mpr hopen⟩

theorem failure_eq_none_of_isRunning (h : AtRest d m.run) (hrunning : m.isRunning = true) :
    m.run.failure = none := by
  have hnot : ¬ m.run.failure.isSome = true := by
    rw [h.failed, (isRunning_iff m).mp hrunning]
    nofun
  simpa using hnot

theorem kept_atRest (hsound : d.Sound) : Kept host d fun m => AtRest d m.run where
  unmoved := fun _ _ ha => atRest_alike ha.toAlike
  restated := fun _ _ _ => atRest_restated
  advanced := by
    intro m hm
    refine leftBy_advance_keeps (P := fun _ rest m => Midway d rest m.run) hsound.valid
      (fun _ hrunning => midway_of_atRest hrunning)
      (fun _ _ _ h id hid => h.declared id (h.rest_occupied id hid))
      (fun _ _ _ _ ha => midway_alike ha.toAlike)
      (fun _ _ _ _ _ _ hs hrunning hturned => midway_turned hsound.valid hs hrunning hturned)
      (fun _ _ _ _ _ => atRest_conclude hsound)
      (fun _ _ _ hopen => atRest_broken hopen) (fun _ _ ha => atRest_alike ha.toAlike) hm

theorem atRest_fresh {initial : State} (hinitial : d.initial? = some initial) {id : String}
    {bindings : Fields} {time : Timestamp} :
    AtRest d (fresh id d.name initial.id bindings time) := by
  obtain ⟨hmem, hkind⟩ := Definition.mem_of_initial? hinitial
  have hs : d.state? initial.id = some initial := Definition.state?_of_mem hmem
  have hopen : isTerminal d initial.id = false :=
    isTerminal_of_kind_ne hs (by rw [hkind]; nofun)
  refine ⟨⟨rfl, List.nodup_singleton _, ?_, List.nodup_nil, nofun, iff_of_false nofun nofun,
    nofun⟩, List.cons_ne_nil initial.id [], iff_of_false nofun ?_⟩
  · intro other hother
    rw [List.mem_singleton.mp hother]
    exact ⟨initial, hs⟩
  · intro hterminal
    rw [hterminal initial.id (List.mem_singleton_self _)] at hopen
    cases hopen

theorem atRest_after (hsound : d.Sound) {bindings : Fields} {id : String}
    {reads judged invoked : Nat}
    (hstart : start host d bindings id reads judged invoked = .ok m) (calls : List Call) :
    AtRest d (m.after host d calls).run := by
  refine (kept_atRest hsound).reached ?_ hstart calls
  intro before initial hinitial hrun _
  rw [hrun]
  exact atRest_fresh hinitial

end Machine

/-- What can be told of every run from outside: where it is, who waits, and how it ended. -/
structure Run.Orderly (d : Definition) (r : Run) : Prop where
  nonempty : r.current ≠ []
  distinct : r.current.Nodup
  declared : ∀ id ∈ r.current, d.declares id = true
  waiting : ∀ join ∈ Keyed.keys r.pending, join ∈ r.current ∧ d.IsJoin join ∧
    ∃ arrived, Keyed.get? join r.pending = some arrived ∧ arrived ≠ [] ∧
      ∀ source ∈ arrived, d.Leads source join
  completed : r.status = .completed ↔ ∀ id ∈ r.current, Machine.isTerminal d id = true
  settled : r.status = .completed → r.pending = []
  failed : r.failure.isSome = true ↔ r.status = .failed

namespace Machine

/-- A run of a valid definition stays orderly whatever is asked of it, in whatever order, and
whatever guards and actions answer. -/
theorem orderly_after {text : String} {name : Option String} {d : Definition}
    (hparse : Definition.parse text name = .ok d) (hv : d.validate.hasErrors = false)
    {host : Host} {bindings : Fields} {id : String} {reads judged invoked : Nat} {m : Machine}
    (hstart : start host d bindings id reads judged invoked = .ok m) (calls : List Call) :
    (m.after host d calls).run.Orderly d := by
  have hrest := atRest_after (Definition.sound_of_parse hparse hv) hstart calls
  refine ⟨hrest.nonempty, hrest.distinct, ?_, ?_, hrest.completed, ?_, hrest.failed⟩
  · intro state hstate
    exact Definition.declares_iff.mpr (hrest.declared state hstate)
  · intro join hjoin
    obtain ⟨arrived, hget⟩ := Option.isSome_iff_exists.mp (Keyed.has_iff_mem_keys.mpr hjoin)
    have hawaits := hrest.awaits join arrived (Keyed.mem_of_get? hget)
    exact ⟨hawaits.occupied, hawaits.isJoin, arrived, hget, hawaits.nonempty, hawaits.leads⟩
  · intro hcompleted
    exact pending_eq_nil hrest.toCoherent (hrest.completed.mp hcompleted)

/-- Two branches of a fork, of which the second is longer. -/
def unevenBranches : List String :=
  ["name: uneven", "", "state F <<fork>>", "state J <<join>>", "[*] --> F", "F --> A", "F --> B",
    "A --> J", "B --> C", "C --> J", "J --> [*]"]

/-- The shorter branch waits at the join while the run is suspended and a step is not taken. -/
theorem orderly_after_uneven_branches :
    ∃ d m, Definition.parse (Text.unlines unevenBranches) none = .ok d ∧
      d.validate.hasErrors = false ∧ start quietHost d [] "run-1" 0 0 0 = .ok m ∧
      (m.after quietHost d [.advance, .advance, .suspend, .advance]).run.Orderly d ∧
      (m.after quietHost d [.advance, .advance, .suspend, .advance]).run.pending =
        [("J", ["A"])] := by
  obtain ⟨d, m, hparse, hv, hstart, htest⟩ := exists_started unevenBranches []
    (fun d m =>
      (m.after quietHost d [.advance, .advance, .suspend, .advance]).run.pending ==
        [("J", ["A"])]) (by decide) (by decide +kernel)
  exact ⟨d, m, hparse, hv, hstart, orderly_after hparse hv hstart _, by simpa using htest⟩

end Machine

end Runbook.Workflow
