import Runbook.Proofs.Documents
import Runbook.Proofs.Tally

/-!
The visits of a run. Every turn of a step keeps the tally of visits, since a join that is arrived
at without waiting is sealed, and only states that an author declared are visited. So all visits of
a completed run are closed exactly when no state was crowded.
-/
namespace Runbook.Workflow

namespace Machine

open Run Presence

variable {host : Host} {d : Definition} {m after : Machine} {s : State}
  {occupied rest : List String} {id : String}

section Arriving

theorem Names.ne_pseudo (hid : d.Names id) {t : State} (ht : d.state? t.id = some t)
    (hpseudo : t.kind.isPseudo = true) : id ≠ t.id := by
  intro heq
  obtain rfl := heq
  obtain ⟨u, hu, hauthor⟩ := hid
  obtain rfl : t = u := Option.some.inj (ht.symm.trans hu)
  rw [hpseudo] at hauthor
  cases hauthor

theorem inside_arriveAt_ne (host : Host) (m : Machine) (source : String) {t : State}
    (hne : id ≠ t.id) :
    (m.arriveAt host source t).run.inside id = m.run.inside id := by
  rw [Bool.eq_iff_iff, inside_iff, inside_iff, arriveAt_current, mem_current_occupy,
    has_pending_arriveAt]
  simp [hne]

/-- An arrival keeps tallies, unless it is at a join that is occupied without waiting. -/
theorem Tallied.arriveAt {source : String} {t : State} (h : Tallied m id) (hid : d.Names id)
    (hcoherent : Coherent d m.run) (ht : d.state? t.id = some t)
    (hwaiting : t.kind = .join → t.id ∈ m.run.current → Keyed.has t.id m.run.pending = true) :
    Tallied (m.arriveAt host source t) id := by
  rcases arriveAt_cases host source m t with
    ⟨hterminal, he⟩ | ⟨hjoin, payload, he⟩ | ⟨-, hother, he⟩
  · have hne : id ≠ t.id := Names.ne_pseudo hid ht (by rw [hterminal]; rfl)
    refine h.keep [] ?_ nofun ?_ (inside_arriveAt_ne host m source hne)
    · rw [he, mapRun_journal, List.append_nil]
    · rw [he, mapRun_run, occupy_eq]
      rfl
  · refine h.keep _ (by rw [he, emit_events, mapRun_journal]) ?_ ?_ ?_
    · intro e hmem _
      rw [List.mem_singleton.mp hmem]
      exact ⟨nofun, nofun⟩
    · rw [he, emit_run, mapRun_run, occupy_eq]
      rfl
    · by_cases hne : id = t.id
      · subst hne
        have hafter : (m.arriveAt host source t).run.inside t.id = false := by
          rw [Bool.eq_false_iff, Ne, inside_iff, has_pending_arriveAt]
          simp [hjoin]
        have hbefore : m.run.inside t.id = false := by
          rw [Bool.eq_false_iff, Ne, inside_iff]
          intro hparts
          obtain ⟨hcurrent, hfree⟩ := hparts
          rw [hwaiting hjoin hcurrent] at hfree
          cases hfree
        rw [hafter, hbefore]
      · exact inside_arriveAt_ne host m source hne
  · have hhistory : (m.mapRun fun r => r.occupy t.id).run.history = m.run.history := by
      rw [mapRun_run, occupy_eq]
    by_cases hne : id = t.id
    · subst hne
      rw [he]
      refine h.enter_self rfl hhistory ?_
      rw [inside_iff, mapRun_run, mem_current_occupy]
      refine ⟨Or.inr rfl, ?_⟩
      rw [occupy_eq, Bool.eq_false_iff]
      intro hhas
      exact hother ((hcoherent.has_pending hhas).2.kind_eq ht)
    · rw [he]
      refine h.enter_ne hne rfl hhistory ?_
      rw [← inside_arriveAt_ne host m source hne, he, enter_inside]

/-- A state that is occupied and does not wait as a join is inside. -/
theorem inside_of_idle (hcoherent : Coherent d m.run) (hs : d.state? s.id = some s)
    (hself : s.id ∈ m.run.current) (hidle : m.awaits s = false) :
    m.run.inside s.id = true := by
  refine inside_iff.mpr ⟨hself, ?_⟩
  rw [Bool.eq_false_iff]
  intro hhas
  have hjoin := (hcoherent.has_pending hhas).2.kind_eq hs
  rw [awaits_iff.mpr ⟨hjoin, hhas⟩] at hidle
  cases hidle

/-- Leaving a state that does not wait keeps tallies. -/
theorem Tallied.leave (h : Tallied m id) (hid : d.Names id) (hcoherent : Coherent d m.run)
    (hs : d.state? s.id = some s) (hself : s.id ∈ m.run.current) (hidle : m.awaits s = false) :
    Tallied (m.leave host s) id := by
  by_cases hne : id = s.id
  · subst hne
    obtain ⟨u, hu, hauthor⟩ := hid
    obtain rfl : s = u := Option.some.inj (hs.symm.trans hu)
    exact h.leave_self hcoherent.distinct hauthor (inside_of_idle hcoherent hs hself hidle)
  · exact h.leave_ne hne

end Arriving

theorem Tallied.turned {moved : Bool} (h : Tallied m id) (hid : d.Names id)
    (hs : d.state? s.id = some s) (hrunning : m.isRunning = true)
    (hturned : Turned host d occupied s m moved after)
    (htracked : Tracked d occupied (s.id :: rest) m.run) : Tallied after id := by
  have hself : s.id ∈ m.run.current := htracked.rest_occupied s.id (List.mem_cons_self ..)
  cases hturned with
  | stays => exact h
  | fires hwaits =>
    have hevents : (m.fire s.id).journal.events = m.journal.events := log_events ..
    by_cases hne : id = s.id
    · subst hne
      refine h.enter_self hevents rfl (inside_iff.mpr ⟨hself, ?_⟩)
      exact Keyed.has_erase_self htracked.keys
    · refine h.enter_ne hne hevents rfl ?_
      rw [Bool.eq_iff_iff, inside_iff, inside_iff]
      have hsame : Keyed.has id (m.fire s.id).run.pending = Keyed.has id m.run.pending :=
        Keyed.has_erase_ne hne m.run.pending
      rw [hsame]
      rfl
  | fails hkind hwaits hasked => exact (h.alike hasked.toAlike).fail _
  | goes hkind hwaits hasked htargets hleads =>
    have hask := tracked_alike hasked.toAlike htracked
    have hoccupied := hask.rest_occupied s.id (List.mem_cons_self ..)
    have hidle := (hasked.awaits_eq s).trans hwaits
    refine goes_keeps (P := fun after => Tallied after id) hask.toCoherent hask.shut
      (hasked.isRunning_eq.trans hrunning) hs hoccupied hkind hidle hleads ?_
      ((h.alike hasked.toAlike).leave hid hask.toCoherent hs hoccupied hidle)
    intro t before ht hcoherent hwaiting hbefore
    exact hbefore.arriveAt hid hcoherent ht hwaiting

/-- The end of a step leaves every author's state inside or outside: where the run is completed, all
of them are outside before and after. -/
theorem inside_conclude {moved : Bool} (hid : d.Names id) (hsound : d.Sound)
    (hmidway : Midway d rest m.run) :
    ((m.conclude d moved).touch host).run.inside id = m.run.inside id := by
  unfold Machine.conclude
  split
  · rfl
  · split
    · rename_i hdone
      rw [Bool.and_eq_true, List.all_eq_true] at hdone
      have hopen : ∀ other, isTerminal d other = true → id ≠ other := by
        intro other hother heq
        obtain rfl := heq
        obtain ⟨t, ht, hkind⟩ := exists_terminal hother
        obtain rfl : t.id = id := (Definition.mem_of_state? ht).2
        exact Names.ne_pseudo hid ht (by rw [hkind]; rfl) rfl
      have hend := isTerminal_endId hsound hmidway.nonempty hdone.2
      rw [Bool.eq_iff_iff, inside_iff, inside_iff]
      refine iff_of_false ?_ ?_
      · intro hparts
        obtain ⟨hcurrent, -⟩ := hparts
        exact hopen endId hend (List.mem_singleton.mp hcurrent)
      · intro hparts
        obtain ⟨hcurrent, -⟩ := hparts
        exact hopen id (hdone.2 id hcurrent) rfl
    · split <;> rfl

theorem conclude_history {moved : Bool} :
    ((m.conclude d moved).touch host).run.history = m.run.history := by
  unfold conclude
  split
  · rfl
  · split
    · rfl
    · split <;> rfl

/-- The end of a step tells at most that the run is completed or has failed. -/
theorem conclude_events (host : Host) (d : Definition) (moved : Bool) (m : Machine) :
    ∃ verdict, ((m.conclude d moved).touch host).journal.events = m.journal.events ++ verdict ∧
      ∀ e ∈ verdict, e.kind = .runCompleted ∨ e.kind = .runFailed := by
  unfold Machine.conclude
  split
  · exact ⟨[], (List.append_nil _).symm, nofun⟩
  · split
    · refine ⟨_, (emit_events ..).trans (congrArg (· ++ _) (log_events ..)), ?_⟩
      intro e he
      rw [List.mem_singleton.mp he]
      exact Or.inl rfl
    · split
      · refine ⟨_, fail_events m _, ?_⟩
        intro e he
        rw [List.mem_singleton.mp he]
        exact Or.inr rfl
      · exact ⟨[], (List.append_nil _).symm, nofun⟩

theorem Tallied.conclude {moved : Bool} (h : Tallied m id) (hid : d.Names id)
    (hsound : d.Sound) (hmidway : Midway d rest m.run) :
    Tallied ((m.conclude d moved).touch host) id := by
  obtain ⟨verdict, hevents, hverdict⟩ := conclude_events host d moved m
  refine h.keep verdict hevents ?_ ?_ (inside_conclude hid hsound hmidway)
  · intro e he _
    rcases hverdict e he with hkind | hkind <;> (rw [hkind]; exact ⟨nofun, nofun⟩)
  · unfold Run.openVisits
    rw [conclude_history]

theorem Tallied.restated {kind : EventKind} (h : Tallied m id) (ha : Restated kind m after) :
    Tallied after id := by
  refine h.keep _ ha.events ?_ ?_ (inside_congr (by rw [ha.run]) (by rw [ha.run]) id)
  · intro e he
    rw [List.mem_singleton.mp he]
    exact quiet_of_stateless rfl
  · unfold Run.openVisits
    rw [ha.run]

/-- Every visit is one to a state that an author declared. -/
def Recorded (d : Definition) (m : Machine) : Prop := ∀ v ∈ m.run.history, d.Names v.state

section Recording

theorem recorded_of_history_eq (h : Recorded d m) (he : after.run.history = m.run.history) :
    Recorded d after := by
  unfold Recorded
  rw [he]
  exact h

theorem recorded_enter (h : Recorded d m) (hs : d.Names s.id) : Recorded d (m.enter host s) := by
  intro v hv
  rw [enter_history] at hv
  rcases List.mem_append.mp hv with hv | hv
  · exact h v hv
  · rw [List.mem_singleton.mp hv]
    exact hs

theorem map_state_closeFirst (id : String) (time : Timestamp) (visits : List Visit) :
    (closeFirst id time visits).map Visit.state = visits.map Visit.state := by
  induction visits with
  | nil => rfl
  | cons v rest ih =>
    unfold closeFirst
    split
    · rfl
    · rw [List.map_cons, List.map_cons, ih]

/-- Leaving a state closes a visit and makes none. -/
theorem leave_states (host : Host) (m : Machine) (s : State) :
    (m.leave host s).run.history.map Visit.state = m.run.history.map Visit.state := by
  rw [leave_run]
  split
  · rfl
  · have hclosed := map_state_closeFirst s.id (host.clock m.reads) m.run.history.reverse
    have hreversed := congrArg List.reverse hclosed
    rw [← List.map_reverse, ← List.map_reverse, List.reverse_reverse] at hreversed
    exact hreversed

theorem recorded_leave (h : Recorded d m) : Recorded d (m.leave host s) := by
  intro v hv
  have hstate := List.mem_map_of_mem (f := Visit.state) hv
  rw [leave_states] at hstate
  obtain ⟨w, hw, hsame⟩ := List.mem_map.mp hstate
  rw [← hsame]
  exact h w hw

theorem recorded_arriveAt {source : String} {t : State} (h : Recorded d m)
    (ht : d.state? t.id = some t) (hentry : t.kind ≠ .initial) :
    Recorded d (m.arriveAt host source t) := by
  rcases arriveAt_cases host source m t with
    ⟨-, he⟩ | ⟨-, payload, he⟩ | ⟨hterminal, -, he⟩
  · refine recorded_of_history_eq h ?_
    rw [he, mapRun_run, occupy_eq]
  · refine recorded_of_history_eq h ?_
    rw [he, emit_run, mapRun_run, occupy_eq]
    rfl
  · rw [he]
    have hoccupied : Recorded d (m.mapRun fun r => r.occupy t.id) := by
      refine recorded_of_history_eq h ?_
      rw [mapRun_run, occupy_eq]
    refine recorded_enter hoccupied ⟨t, ht, ?_⟩
    cases hkind : t.kind <;> simp_all [StateKind.isPseudo]

theorem recorded_turned {moved : Bool} (hsound : d.Sound) (h : Recorded d m)
    (hs : d.state? s.id = some s) (hrunning : m.isRunning = true)
    (hturned : Turned host d occupied s m moved after) : Recorded d after := by
  cases hturned with
  | stays => exact h
  | fires hwaits =>
    refine recorded_enter (recorded_of_history_eq h rfl) ⟨s, hs, ?_⟩
    rw [(awaits_iff.mp hwaits).1]
    rfl
  | fails hkind hwaits hasked => exact recorded_of_history_eq h hasked.history_eq
  | goes hkind hwaits hasked htargets hleads =>
    have hasked' := recorded_of_history_eq h hasked.history_eq
    refine arriveAll_keeps (fun t ht before _ hbefore => ?_)
      (hasked.isRunning_leave host s hrunning) (recorded_leave hasked')
    obtain ⟨hdeclared, hlead⟩ := hleads t ht
    exact recorded_arriveAt hbefore hdeclared (hsound.kind_ne_initial hlead hdeclared)

end Recording

/-- What is kept of the visits by every call. -/
structure Visited (d : Definition) (m : Machine) : Prop where
  rest : AtRest d m.run
  shut : Sealed d m.run
  tallied : ∀ id, d.Names id → Tallied m id
  recorded : Recorded d m

theorem Visited.alike (h : Visited d m) (ha : Alike m after) : Visited d after where
  rest := atRest_alike ha h.rest
  shut := sealed_alike ha h.shut
  tallied := fun id hid => (h.tallied id hid).alike ha
  recorded := recorded_of_history_eq h.recorded ha.history_eq

theorem Visited.restated {kind : EventKind} (h : Visited d m) (ha : Restated kind m after) :
    Visited d after where
  rest := atRest_restated ha h.rest
  shut := sealed_of_eq (by rw [ha.run]) (by rw [ha.run]) h.shut
  tallied := fun id hid => (h.tallied id hid).restated ha
  recorded := recorded_of_history_eq h.recorded (by rw [ha.run])

theorem kept_visited (hsound : d.Sound) : Kept host d (Visited d) where
  unmoved := fun _ _ ha h => h.alike ha.toAlike
  restated := fun _ _ _ ha h => h.restated ha
  advanced := by
    intro m hm
    refine leftBy_advance_keeps (Q := Visited d)
      (P := fun occupied rest m => Tracked d occupied rest m.run ∧
        (∀ id, d.Names id → Tallied m id) ∧ Recorded d m) hsound.valid
      (fun _ hrunning h => ⟨tracked_of_atRest hrunning h.rest h.shut, h.tallied, h.recorded⟩)
      (fun _ _ _ h id hid => h.1.declared id (h.1.rest_occupied id hid)) ?_ ?_ ?_ ?_
      (fun _ _ ha h => h.alike ha.toAlike) hm
    · intro occupied ids m asked ha hparts
      obtain ⟨htracked, htallied, hrecorded⟩ := hparts
      exact ⟨tracked_alike ha.toAlike htracked, fun id hid => (htallied id hid).alike ha.toAlike,
        recorded_of_history_eq hrecorded ha.history_eq⟩
    · intro occupied s rest m moved after hs hrunning hturned hparts
      obtain ⟨htracked, htallied, hrecorded⟩ := hparts
      exact ⟨tracked_turned hsound.valid hs hrunning hturned htracked,
        fun id hid => (htallied id hid).turned hid hs hrunning hturned htracked,
        recorded_turned hsound hrecorded hs hrunning hturned⟩
    · intro occupied rest moved m _ hparts
      obtain ⟨htracked, htallied, hrecorded⟩ := hparts
      exact ⟨atRest_conclude hsound htracked.toMidway, sealed_conclude hsound htracked,
        fun id hid => (htallied id hid).conclude hid hsound htracked.toMidway,
        recorded_of_history_eq hrecorded conclude_history⟩
    · intro occupied rest m hopen hparts
      obtain ⟨htracked, htallied, hrecorded⟩ := hparts
      exact ⟨atRest_broken hopen htracked.toMidway, htracked.shut, htallied, hrecorded⟩

/-- What is kept besides by the turns of a run whose visits are tallied, and by all that happens
between them, is kept by every call. -/
theorem kept_with_visited (hsound : d.Sound) {R : Machine → Prop}
    (hunmoved : ∀ m after, Unmoved m after → R m → R after)
    (hrestated : ∀ kind m after, Restated kind m after → R m → R after)
    (hturn : ∀ occupied s rest m moved after, d.state? s.id = some s → m.isRunning = true →
      Turned host d occupied s m moved after → Tracked d occupied (s.id :: rest) m.run →
      (∀ id, d.Names id → Tallied m id) → R m → R after)
    (hconclude : ∀ occupied rest moved m, Tracked d occupied rest m.run → R m →
      R ((m.conclude d moved).touch host)) :
    Kept host d fun m => Visited d m ∧ R m where
  unmoved := fun m after ha h => ⟨h.1.alike ha.toAlike, hunmoved m after ha h.2⟩
  restated := fun kind m after ha h => ⟨h.1.restated ha, hrestated kind m after ha h.2⟩
  advanced := by
    intro m hm
    obtain ⟨hvisited, hextra⟩ := hm
    refine ⟨(kept_visited hsound).advanced m hvisited, ?_⟩
    refine leftBy_advance (Q := R)
      (P := fun rest before => Tracked d m.run.current rest before.run ∧
        (∀ id, d.Names id → Tallied before id) ∧ R before) hsound.valid
      (fun hrunning => ⟨tracked_of_atRest hrunning hvisited.rest hvisited.shut,
        hvisited.tallied, hextra⟩)
      (fun _ _ h id hid => h.1.declared id (h.1.rest_occupied id hid))
      (fun _ before asked ha h => ⟨tracked_alike ha.toAlike h.1,
        fun id hid => (h.2.1 id hid).alike ha.toAlike, hunmoved before asked ha h.2.2⟩) ?_
      (fun rest moved before _ h => hconclude m.run.current rest moved before h.1 h.2.2)
      (fun _ _ _ h => h.2.2) (fun after ha => hunmoved m after ha hextra)
    intro s rest before moved after hs hrunning hturned hparts
    obtain ⟨htracked, htallied, hbefore⟩ := hparts
    exact ⟨tracked_turned hsound.valid hs hrunning hturned htracked,
      fun id hid => (htallied id hid).turned hid hs hrunning hturned htracked,
      hturn m.run.current s rest before moved after hs hrunning hturned htracked htallied hbefore⟩

theorem visited_fresh {initial : State} (hinitial : d.initial? = some initial) {run : String}
    {bindings : Fields} {time : Timestamp}
    (hrun : m.run = fresh run d.name initial.id bindings time)
    (hevents : m.journal.events = [⟨.runStarted, run, d.name, none, []⟩]) : Visited d m := by
  obtain ⟨hmem, hkind⟩ := Definition.mem_of_initial? hinitial
  refine ⟨?_, ?_, ?_, ?_⟩
  · rw [hrun]
    exact atRest_fresh hinitial
  · rw [hrun]
    exact sealed_fresh hinitial
  · intro other hother
    have hne : other ≠ initial.id :=
      Names.ne_pseudo hother (Definition.state?_of_mem hmem) (by rw [hkind]; rfl)
    have hpresence : m.journal.presence other = ⟨false, 0⟩ := by
      unfold Journal.presence
      rw [hevents, Presence.foldl_hear_of_quiet]
      intro e he
      rw [List.mem_singleton.mp he]
      exact quiet_of_stateless rfl
    have houtside : m.run.inside other = false := by
      rw [hrun, Bool.eq_false_iff, Ne, inside_iff]
      intro hparts
      obtain ⟨hcurrent, -⟩ := hparts
      exact hne (List.mem_singleton.mp hcurrent)
    refine ⟨by rw [hpresence, houtside], ?_⟩
    rw [hpresence, houtside, hrun]
    rfl
  · intro v hv
    rw [hrun] at hv
    cases hv

theorem visited_after (hsound : d.Sound) {bindings : Fields} {id : String}
    {reads judged invoked : Nat}
    (hstart : start host d bindings id reads judged invoked = .ok m) (calls : List Call) :
    Visited d (m.after host d calls) :=
  (kept_visited hsound).reached
    (fun _ _ hinitial hrun hevents => visited_fresh hinitial hrun hevents) hstart calls

theorem names_of_mem_named (hs : s ∈ d.named) : d.Names s.id := by
  obtain ⟨hmem, hauthor⟩ := List.mem_filter.mp hs
  exact ⟨s, Definition.state?_of_mem hmem, by simpa using hauthor⟩

theorem exists_named (h : d.Names id) : ∃ s ∈ d.named, s.id = id := by
  obtain ⟨s, hs, hauthor⟩ := h
  obtain ⟨hmem, hid⟩ := Definition.mem_of_state? hs
  exact ⟨s, List.mem_filter.mpr ⟨hmem, by simpa using hauthor⟩, hid⟩

theorem inside_eq_false_of_completed (h : AtRest d m.run) (hcompleted : m.run.status = .completed)
    (hid : d.Names id) : m.run.inside id = false := by
  rw [Bool.eq_false_iff, Ne, inside_iff]
  intro hparts
  obtain ⟨hcurrent, -⟩ := hparts
  obtain ⟨t, ht, hkind⟩ := exists_terminal (h.completed.mp hcompleted id hcurrent)
  obtain rfl : t.id = id := (Definition.mem_of_state? ht).2
  exact Names.ne_pseudo hid ht (by rw [hkind]; rfl) rfl

/-- Whatever is asked of a run of a valid definition, an author's state has one open visit while it
is occupied without waiting, and one more for each of its crowded entries. So there are no others,
and none at all in a completed run, exactly when no state was ever crowded. -/
theorem openVisits_after {text : String} {name : Option String} {d : Definition}
    (hparse : Definition.parse text name = .ok d) (hv : d.validate.hasErrors = false)
    {host : Host} {bindings : Fields} {id : String} {reads judged invoked : Nat} {m : Machine}
    (hstart : start host d bindings id reads judged invoked = .ok m) (calls : List Call) :
    let final := m.after host d calls
    let crowded := fun s : State => (final.journal.presence s.id).crowded
    (∀ s ∈ d.named, final.run.openVisits s.id = (final.run.inside s.id).toNat + crowded s) ∧
      ((∀ s ∈ d.named, final.run.openVisits s.id = (final.run.inside s.id).toNat) ↔
        ∀ s ∈ d.named, crowded s = 0) ∧
      (final.run.status = .completed →
        ((∀ v ∈ final.run.history, v.exited.isSome = true) ↔ ∀ s ∈ d.named, crowded s = 0)) := by
  intro final crowded
  have hvisited : Visited d final :=
    visited_after (Definition.sound_of_parse hparse hv) hstart calls
  have hopen : ∀ s ∈ d.named,
      final.run.openVisits s.id = (final.run.inside s.id).toNat + crowded s :=
    fun s hs => (hvisited.tallied s.id (names_of_mem_named hs)).openVisits
  refine ⟨hopen, forall₂_congr fun s hs => ?_, fun hcompleted => ?_⟩
  · rw [hopen s hs]
    omega
  have hcrowded : ∀ s ∈ d.named, final.run.openVisits s.id = crowded s := by
    intro s hs
    have houtside :=
      inside_eq_false_of_completed hvisited.rest hcompleted (names_of_mem_named hs)
    rw [hopen s hs, houtside]
    exact Nat.zero_add _
  constructor
  · intro hclosed s hs
    rw [← hcrowded s hs]
    refine List.countP_eq_zero.mpr fun v hv => ?_
    have hexited := hclosed v hv
    simp [Visit.isOpenOf, Option.isNone_eq_false_iff.mpr hexited]
  · intro hnone v hv
    obtain ⟨s, hs, hid⟩ := exists_named (hvisited.recorded v hv)
    have hzero : final.run.openVisits s.id = 0 := (hcrowded s hs).trans (hnone s hs)
    have hclosed := List.countP_eq_zero.mp hzero v hv
    simpa [Visit.isOpenOf, hid, Option.isSome_iff_ne_none] using hclosed

/-- Two branches that meet in a state before their join. -/
def meetingBranches : List String :=
  ["name: meeting", "", "state F <<fork>>", "state J <<join>>", "[*] --> F", "F --> A", "F --> B",
    "A --> C", "B --> C", "C --> J", "C --> J : {late}", "J --> [*]"]

/-- The state in which they meet is entered twice and left once, so one visit stays open. -/
theorem exists_open_of_meetingBranches :
    ∃ d m, Definition.parse (Text.unlines meetingBranches) none = .ok d ∧
      d.validate.hasErrors = false ∧ start quietHost d [] "run-1" 0 0 0 = .ok m ∧
      (m.after quietHost d [.settle 10]).run.status = .completed ∧
      ((m.after quietHost d [.settle 10]).journal.presence "C").crowded = 1 ∧
      ¬ ∀ v ∈ (m.after quietHost d [.settle 10]).run.history, v.exited.isSome = true := by
  obtain ⟨d, m, hparse, hv, hstart, htest⟩ := exists_started meetingBranches []
    (fun d m => decide
      ((m.after quietHost d [.settle 10]).run.status = .completed ∧
        ((m.after quietHost d [.settle 10]).journal.presence "C").crowded = 1 ∧
        "C" ∈ d.named.map State.id)) (by decide) (by decide +kernel)
  obtain ⟨hcompleted, hcrowded, hnamed⟩ := of_decide_eq_true htest
  refine ⟨d, m, hparse, hv, hstart, hcompleted, hcrowded, fun hclosed => ?_⟩
  obtain ⟨s, hs, hid⟩ := List.mem_map.mp hnamed
  have hnone : ((m.after quietHost d [.settle 10]).journal.presence s.id).crowded = 0 :=
    ((openVisits_after hparse hv hstart [.settle 10]).2.2 hcompleted).mp hclosed s hs
  rw [hid, hcrowded] at hnone
  cases hnone

end Machine

end Runbook.Workflow
