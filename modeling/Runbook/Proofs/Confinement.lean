import Runbook.Proofs.Agenda

/-!
Runs stay within what a search from the initial state finds. A turn goes along transitions only,
whoever waits at a join has been left for it, and a run that is completed ends in a terminal state
that it had reached. So a state that validation calls unreachable is never occupied, awaited or
visited, and none of its actions is ever carried out.
-/
namespace Runbook.Workflow

namespace Definition

/-- A path leads to a state from the initial one. -/
def FromStart (d : Definition) (id : String) : Prop :=
  ∃ initial, d.initial? = some initial ∧ d.Reaches initial.id id

variable {d : Definition}

theorem FromStart.leads {a b : String} (h : d.FromStart a) (hab : d.Leads a b) :
    d.FromStart b := by
  obtain ⟨initial, hinitial, hpath⟩ := h
  exact ⟨initial, hinitial, hpath.trans (Reaches.of_leads hab)⟩

theorem fromStart_iff {initial : State} (hinitial : d.initial? = some initial) {id : String} :
    d.FromStart id ↔ id ∈ d.reachableFrom [initial.id] := by
  rw [mem_reachableFrom]
  constructor
  · intro h
    obtain ⟨other, hother, hpath⟩ := h
    obtain rfl : initial = other := Option.some.inj (hinitial.symm.trans hother)
    exact ⟨initial.id, List.mem_singleton_self _, hpath⟩
  · intro h
    obtain ⟨start, hstart, hpath⟩ := h
    rw [List.mem_singleton.mp hstart] at hpath
    exact ⟨initial, hinitial, hpath⟩

/-- The only issue that is told of by this code is that a state cannot be reached. -/
theorem eq_unreachable_of_code {i : Issue} (h : i.code = "unreachable") :
    ∃ id, i = .unreachable id := by
  cases i with
  | unreachable id => exact ⟨id, rfl⟩
  | _ => simp [Issue.code] at h

theorem not_fromStart_of_issue {id : String} (h : Issue.unreachable id ∈ d.issues) :
    ¬ d.FromStart id := by
  have hreach : Issue.unreachable id ∈ d.reachabilityIssues := by
    simp only [issues, List.mem_append] at h
    rcases h with ((((h | h) | h) | h) | h) | h
    · unfold initialIssues at h
      repeat' split at h
      all_goals simp at h
    · unfold referenceIssues at h
      simp at h
    · exact h
    · unfold exitIssues stateExitIssues at h
      obtain ⟨s, -, h⟩ := List.mem_flatMap.mp h
      repeat' split at h
      all_goals simp at h
    · unfold forkIssues forkIssuesOf at h
      obtain ⟨s, -, h⟩ := List.mem_flatMap.mp h
      simp only [List.mem_append] at h
      rcases h with (h | h) | h
      · split at h <;> simp at h
      · simp at h
      · split at h <;> simp at h
    · unfold joinIssues joinIssuesOf at h
      obtain ⟨s, -, h⟩ := List.mem_flatMap.mp h
      simp only [List.mem_append] at h
      rcases h with h | h <;> split at h <;> simp at h
  unfold reachabilityIssues at hreach
  split at hreach
  · cases hreach
  · rename_i initial hinitial
    simp only [List.mem_append] at hreach
    rcases hreach with (hreach | hreach) | hreach
    · unfold unreachableIssues at hreach
      obtain ⟨s, hs, heq⟩ := List.mem_map.mp hreach
      obtain rfl : s.id = id := by simpa using heq
      rw [fromStart_iff hinitial]
      have hout := (List.mem_filter.mp hs).2
      simp only [Bool.and_eq_true, Bool.not_eq_true', List.contains_eq_mem,
        decide_eq_false_iff_not] at hout
      exact hout.1
    · unfold terminalIssues at hreach
      split at hreach <;> simp at hreach
    · unfold deadEndIssues at hreach
      simp at hreach

/-- A state that validation finds unreachable is not reached from the initial one. -/
theorem not_fromStart_of_finding {f : Finding} {id : String} (hf : f ∈ d.validate.findings)
    (hcode : f.code = "unreachable") (hstate : f.state = some id) : ¬ d.FromStart id := by
  obtain ⟨i, hi, rfl⟩ := List.mem_map.mp hf
  obtain ⟨other, rfl⟩ := eq_unreachable_of_code hcode
  obtain rfl : other = id := Option.some.inj hstate
  exact not_fromStart_of_issue hi

end Definition

namespace Run

/-- Whatever a run names can be reached from the initial state. -/
structure Confined (d : Definition) (r : Run) : Prop where
  current : ∀ id ∈ r.current, d.FromStart id
  waiting : ∀ join arrived, (join, arrived) ∈ r.pending →
    d.FromStart join ∧ ∀ source ∈ arrived, d.FromStart source
  visited : ∀ id ∈ r.history.map Visit.state, d.FromStart id

theorem Confined.of_eq {d : Definition} {r r' : Run} (h : Confined d r)
    (hcurrent : r'.current = r.current) (hpending : r'.pending = r.pending)
    (hhistory : r'.history.map Visit.state = r.history.map Visit.state) : Confined d r' :=
  ⟨hcurrent ▸ h.current, hpending ▸ h.waiting, hhistory ▸ h.visited⟩

end Run

namespace Machine

open Run

variable {host : Host} {d : Definition} {m after : Machine} {s : State} {occupied : List String}

theorem confined_enter (h : Confined d m.run) (hs : d.FromStart s.id) :
    Confined d (m.enter host s).run where
  current := by
    rw [enter_current]
    exact h.current
  waiting := by
    rw [enter_pending]
    exact h.waiting
  visited := by
    intro id hid
    rw [enter_history, List.map_append] at hid
    rcases List.mem_append.mp hid with hid | hid
    · exact h.visited id hid
    · rw [List.mem_singleton.mp hid]
      exact hs

theorem confined_leave (h : Confined d m.run) : Confined d (m.leave host s).run where
  current := by
    intro id hid
    rw [leave_current] at hid
    exact h.current id (List.mem_of_mem_erase hid)
  waiting := by
    rw [leave_pending]
    exact h.waiting
  visited := by
    rw [leave_states]
    exact h.visited

theorem confined_occupy (h : Confined d m.run) (hs : d.FromStart s.id) :
    Confined d (m.mapRun fun r => r.occupy s.id).run := by
  rw [mapRun_run]
  refine ⟨?_, by rw [occupy_eq]; exact h.waiting, by rw [occupy_eq]; exact h.visited⟩
  intro id hid
  rcases mem_current_occupy.mp hid with hid | rfl
  · exact h.current id hid
  · exact hs

theorem confined_awaitJoin {source join : String} (h : Confined d m.run)
    (hsource : d.FromStart source) (hjoin : d.FromStart join) :
    Confined d (m.mapRun fun r => r.awaitJoin join source).run := by
  refine ⟨h.current, ?_, h.visited⟩
  intro other arrived he
  rcases Keyed.eq_or_mem_of_mem_set he with heq | hmem
  · obtain ⟨rfl, rfl⟩ := Prod.mk.inj heq
    refine ⟨hjoin, ?_⟩
    intro from' hfrom
    rcases List.mem_append.mp hfrom with hfrom | hfrom
    · cases hget : Keyed.get? other m.run.pending with
      | none => simp [hget] at hfrom
      | some earlier =>
        rw [hget] at hfrom
        exact (h.waiting other earlier (Keyed.mem_of_get? hget)).2 from' hfrom
    · rw [List.mem_singleton.mp hfrom]
      exact hsource
  · exact h.waiting other arrived hmem

theorem confined_arriveAt {source : String} (h : Confined d m.run) (hsource : d.FromStart source)
    (hs : d.FromStart s.id) : Confined d (m.arriveAt host source s).run := by
  rcases arriveAt_cases host source m s with ⟨-, he⟩ | ⟨-, payload, he⟩ | ⟨-, -, he⟩
  · rw [he]
    exact confined_occupy h hs
  · rw [he, emit_run]
    exact confined_occupy (m := m.mapRun fun r => r.awaitJoin s.id source)
      (confined_awaitJoin h hsource hs) hs
  · rw [he]
    exact confined_enter (confined_occupy h hs) hs

/-- The turn of a state that was reached leads to states that are reached. -/
theorem confined_turned {moved : Bool} (h : Confined d m.run) (hs : d.FromStart s.id)
    (hrunning : m.isRunning = true) (hturned : Turned host d occupied s m moved after) :
    Confined d after.run := by
  cases hturned with
  | stays => exact h
  | fires =>
    refine confined_enter ⟨h.current, ?_, h.visited⟩ hs
    exact fun join arrived he =>
      h.waiting join arrived ((Keyed.sublist_erase s.id m.run.pending).subset he)
  | fails hkind hwaits hasked => exact h.of_eq hasked.current_eq hasked.pending_eq (by
      rw [← hasked.history_eq]
      rfl)
  | @goes asked targets hkind hwaits hasked htargets hleads =>
    have hasked' : Confined d asked.run :=
      h.of_eq hasked.current_eq hasked.pending_eq (by rw [hasked.history_eq])
    refine arriveAll_keeps (P := fun after => Confined d after.run) ?_
      (hasked.isRunning_leave host s hrunning) (confined_leave hasked')
    intro t ht before _ hbefore
    exact confined_arriveAt hbefore hs (hs.leads (hleads t ht).2)

/-- A run that ends has reached the terminal state it is left in. -/
theorem confined_conclude (hsound : d.Sound) (moved : Bool) (h : Confined d m.run) :
    Confined d ((m.conclude d moved).touch host).run := by
  suffices hconcluded : Confined d (m.conclude d moved).run from hconcluded.of_eq rfl rfl rfl
  unfold conclude
  split
  · exact h
  · split
    · rename_i hdone
      simp only [Bool.and_eq_true, Bool.not_eq_true', List.isEmpty_eq_false_iff,
        List.all_eq_true] at hdone
      obtain ⟨hne, hterminal⟩ := hdone
      obtain ⟨id, hid⟩ := List.exists_mem_of_ne_nil _ hne
      refine ⟨?_, h.waiting, h.visited⟩
      intro other hother
      obtain rfl : other = endId := List.mem_singleton.mp hother
      rw [← eq_endId_of_isTerminal hsound (hterminal id hid)]
      exact h.current id hid
    · split
      · exact h.of_eq rfl rfl rfl
      · exact h

theorem kept_confined (hsound : d.Sound) :
    Kept host d fun m => AtRest d m.run ∧ Confined d m.run where
  unmoved := fun m after ha hm => ⟨atRest_alike ha.toAlike hm.1,
    hm.2.of_eq ha.current_eq ha.pending_eq (by rw [ha.history_eq])⟩
  restated := fun kind m after ha hm => ⟨atRest_restated ha hm.1,
    hm.2.of_eq (by rw [ha.run]) (by rw [ha.run]) (by rw [ha.run])⟩
  advanced := by
    intro m hm
    refine leftBy_advance_keeps (Q := fun m => AtRest d m.run ∧ Confined d m.run)
      (P := fun _ rest m => Midway d rest m.run ∧ Confined d m.run) hsound.valid
      (fun m hrunning hm => ⟨midway_of_atRest hrunning hm.1, hm.2⟩)
      (fun _ _ _ hm id hid => hm.1.declared id (hm.1.rest_occupied id hid))
      (fun _ _ m asked ha hm => ⟨midway_alike ha.toAlike hm.1,
        hm.2.of_eq ha.current_eq ha.pending_eq (by rw [ha.history_eq])⟩) ?_
      (fun _ _ moved _ _ hm => ⟨atRest_conclude hsound hm.1, confined_conclude hsound moved hm.2⟩)
      (fun _ _ _ hopen hm => ⟨atRest_broken hopen hm.1, hm.2⟩)
      (fun m after ha hm => ⟨atRest_alike ha.toAlike hm.1,
        hm.2.of_eq ha.current_eq ha.pending_eq (by rw [ha.history_eq])⟩) hm
    intro occupied s rest m moved after hs hrunning hturned hm
    obtain ⟨hmidway, hconfined⟩ := hm
    have hself := hconfined.current s.id (hmidway.rest_occupied s.id (List.mem_cons_self ..))
    exact ⟨midway_turned hsound.valid hs hrunning hturned hmidway,
      confined_turned hconfined hself hrunning hturned⟩

theorem confined_fresh {initial : State} (hinitial : d.initial? = some initial) {id : String}
    {bindings : Fields} {time : Timestamp} :
    Confined d (fresh id d.name initial.id bindings time) := by
  refine ⟨?_, nofun, nofun⟩
  intro other hother
  rw [List.mem_singleton.mp hother]
  exact ⟨initial, hinitial, Definition.Reaches.refl d initial.id⟩

/-- Whatever action is carried out belongs to a state that was visited. -/
theorem visited_of_invoked {id : String} {first : Account} (h : Attended host d id first m)
    {state : String} {action : Action} (hinvoked : (state, action) ∈ m.journal.invocations) :
    state ∈ m.run.history.map Visit.state := by
  have hagenda : ∀ ids, (state, action) ∈ d.agenda ids → state ∈ ids := by
    intro ids hmem
    obtain ⟨other, hother, hduty⟩ := List.mem_flatMap.mp hmem
    unfold Definition.duties at hduty
    split at hduty
    · obtain ⟨duty, -, heq⟩ := List.mem_map.mp hduty
      obtain ⟨rfl, -⟩ := Prod.mk.inj heq
      exact hother
    · cases hduty
  rcases h with ⟨-, faults, -, hbilled⟩ |
    ⟨-, earlier, last, ran, failing, rest, message, faults, hvisited, hduties, -, -, hbilled⟩
  · rw [hbilled.invocations] at hinvoked
    exact hagenda _ hinvoked
  · rw [hbilled.invocations] at hinvoked
    rw [hvisited]
    refine hagenda _ ?_
    rw [Definition.agenda_concat, hduties]
    rcases List.mem_append.mp hinvoked with hmem | hmem
    · exact List.mem_append_left _ hmem
    · refine List.mem_append_right _ ?_
      rw [show ran ++ failing :: rest = ran ++ [failing] ++ rest by simp]
      exact List.mem_append_left _ hmem

end Machine

/-- A run and its journal have nothing to do with a state. -/
structure Machine.Avoids (m : Machine) (id : String) : Prop where
  current : id ∉ m.run.current
  joins : id ∉ Keyed.keys m.run.pending
  arrivals : ∀ join arrived, (join, arrived) ∈ m.run.pending → id ∉ arrived
  visits : id ∉ m.run.history.map Visit.state
  actions : ∀ action, (id, action) ∉ m.journal.invocations

namespace Machine

/-- Whatever is asked of a run of a valid definition, and whatever guards and actions answer, it
keeps to what a search from the initial state finds; it never has to do with a state that validation
finds unreachable. -/
theorem confined_after {text : String} {name : Option String} {d : Definition}
    (hparse : Definition.parse text name = .ok d) (hv : d.validate.hasErrors = false)
    {host : Host} {bindings : Fields} {id : String} {reads judged invoked : Nat} {m : Machine}
    (hstart : start host d bindings id reads judged invoked = .ok m) (calls : List Call) :
    ∃ initial, d.initial? = some initial ∧
      (∀ state, state ∉ d.reachableFrom [initial.id] → (m.after host d calls).Avoids state) ∧
      ∀ f ∈ d.validate.findings, f.code = "unreachable" →
        ∃ state, f.state = some state ∧ (m.after host d calls).Avoids state := by
  have hsound : d.Sound := Definition.sound_of_parse hparse hv
  obtain ⟨initial, -, hinitial, -, -⟩ := Definition.exists_initial hv
  have hconfined : Run.Confined d (m.after host d calls).run := by
    refine ((kept_confined hsound).reached ?_ hstart calls).2
    intro before first hfirst hrun _
    rw [hrun]
    exact ⟨atRest_fresh hfirst, confined_fresh hfirst⟩
  have hattended : Attended host d id ⟨invoked, bindings, []⟩ (m.after host d calls) := by
    refine (kept_attended (Definition.linked_of_valid hv)).begun ?_ hstart calls
    intro first _
    exact Or.inl ⟨nofun, [], nofun, rfl, rfl, begun_invocations, rfl⟩
  have havoids : ∀ state, ¬ d.FromStart state → (m.after host d calls).Avoids state := by
    intro state hout
    refine ⟨fun h => hout (hconfined.current state h), ?_,
      fun join arrived he h => hout ((hconfined.waiting join arrived he).2 state h),
      fun h => hout (hconfined.visited state h),
      fun action h => hout (hconfined.visited state (visited_of_invoked hattended h))⟩
    intro hkey
    obtain ⟨⟨join, arrived⟩, he, rfl⟩ := List.mem_map.mp hkey
    exact hout (hconfined.waiting join arrived he).1
  refine ⟨initial, hinitial, ?_, ?_⟩
  · intro state hstate
    exact havoids state fun h => hstate ((Definition.fromStart_iff hinitial).mp h)
  · intro f hf hcode
    obtain ⟨i, -, rfl⟩ := List.mem_map.mp hf
    obtain ⟨state, rfl⟩ := Definition.eq_unreachable_of_code hcode
    exact ⟨state, rfl, havoids state (Definition.not_fromStart_of_finding hf hcode rfl)⟩

/-- A loop, and two states that lead into it and that nothing leads to. -/
def lonelyBranch : List String :=
  ["name: lonely", "", "[*] --> A", "A --> B", "B --> A : {again}", "B --> [*]", "C --> D",
    "D --> A", "## Actions", "- A: Set again = yes", "- C: Log \"never\""]

theorem confined_after_lonelyBranch :
    ∃ d m, Definition.parse (Text.unlines lonelyBranch) none = .ok d ∧
      d.validate.hasErrors = false ∧ start quietHost d [] "run-1" 0 0 0 = .ok m ∧
      (m.after quietHost d [.advance, .advance, .suspend]).Avoids "C" ∧
      (m.after quietHost d [.advance, .advance, .suspend]).run.history.map Visit.state =
        ["A", "B", "A"] := by
  obtain ⟨d, m, hparse, hv, hstart, htest⟩ := exists_started lonelyBranch []
    (fun d m => decide
      ((d.initial?.map fun s => decide ("C" ∈ d.reachableFrom [s.id])) = some false ∧
        (m.after quietHost d [.advance, .advance, .suspend]).run.history.map Visit.state =
          ["A", "B", "A"]))
    (by decide) (by decide +kernel)
  obtain ⟨hout, hvisited⟩ := of_decide_eq_true htest
  obtain ⟨initial, hinitial, havoids, -⟩ :=
    confined_after hparse hv hstart [.advance, .advance, .suspend]
  rw [hinitial, Option.map_some, Option.some.injEq, decide_eq_false_iff_not] at hout
  exact ⟨d, m, hparse, hv, hstart, havoids "C" hout, hvisited⟩

end Machine

end Runbook.Workflow
