import Runbook.Proofs.Sealed

/-!
What is told of a state, tallied against its visits. A state that is entered again before it was
left is crowded: every such entry opens another visit, and leaving the state closes only the
latest. So entering and leaving keep the number of open visits at one for a state that is occupied
without waiting, none otherwise, and one more for each crowded entry so far.
-/
namespace Runbook.Workflow

/-- What has been told of a state: whether it was entered and not exited since, and how often it was
entered in spite of that. -/
structure Presence where
  inside : Bool
  crowded : Nat
  deriving DecidableEq, Repr

namespace Presence

def enter (p : Presence) : Presence := ⟨true, p.inside.toNat + p.crowded⟩

def exit (p : Presence) : Presence := ⟨false, p.crowded⟩

def hear (id : String) (p : Presence) (e : Event) : Presence :=
  if e.state = some id then
    match e.kind with
    | .stateEntered => p.enter
    | .stateExited => p.exit
    | _ => p
  else p

/-- An event tells neither that a state was entered nor that it was exited. -/
def Quiet (id : String) (e : Event) : Prop :=
  e.state = some id → e.kind ≠ .stateEntered ∧ e.kind ≠ .stateExited

theorem hear_of_quiet {id : String} {p : Presence} {e : Event} (h : Quiet id e) :
    p.hear id e = p := by
  unfold hear
  split
  · rename_i hstate
    obtain ⟨hentered, hexited⟩ := h hstate
    split
    · contradiction
    · contradiction
    · rfl
  · rfl

theorem foldl_hear_of_quiet {id : String} {p : Presence} {events : List Event}
    (h : ∀ e ∈ events, Quiet id e) : events.foldl (hear id) p = p := by
  induction events with
  | nil => rfl
  | cons e rest ih =>
    rw [List.foldl_cons, hear_of_quiet (h e (List.mem_cons_self ..))]
    exact ih fun other hother => h other (List.mem_cons_of_mem _ hother)

end Presence

open Presence (Quiet)

/-- What a journal tells of a state. -/
def Journal.presence (j : Journal) (id : String) : Presence :=
  j.events.foldl (Presence.hear id) ⟨false, 0⟩

theorem Journal.presence_append {j after : Journal} {more : List Event} (id : String)
    (h : after.events = j.events ++ more) :
    after.presence id = more.foldl (Presence.hear id) (j.presence id) := by
  unfold Journal.presence
  rw [h, List.foldl_append]

theorem Journal.presence_eq_of_quiet {j after : Journal} {more : List Event} {id : String}
    (h : after.events = j.events ++ more) (hquiet : ∀ e ∈ more, Quiet id e) :
    after.presence id = j.presence id := by
  rw [Journal.presence_append id h, Presence.foldl_hear_of_quiet hquiet]

namespace Visit

/-- A visit to a state that is open. -/
def isOpenOf (id : String) (v : Visit) : Bool := v.state == id && v.exited.isNone

end Visit

namespace Run

/-- A state is occupied and does not wait. -/
def inside (r : Run) (id : String) : Bool := r.current.contains id && !Keyed.has id r.pending

def openVisits (r : Run) (id : String) : Nat := r.history.countP (Visit.isOpenOf id)

theorem inside_congr {r r' : Run} (hcurrent : r'.current = r.current)
    (hpending : r'.pending = r.pending) (id : String) : r'.inside id = r.inside id := by
  unfold inside
  rw [hcurrent, hpending]

theorem inside_iff {r : Run} {id : String} :
    r.inside id = true ↔ id ∈ r.current ∧ Keyed.has id r.pending = false := by
  simp [inside]

theorem openVisits_openVisit (r : Run) (id other : String) (time : Timestamp) :
    (r.openVisit id time).openVisits other = r.openVisits other + if other = id then 1 else 0 := by
  unfold openVisits openVisit
  rw [List.countP_append]
  by_cases h : other = id
  · simp [h, Visit.isOpenOf]
  · have hne : id ≠ other := fun heq => h heq.symm
    simp [h, hne, Visit.isOpenOf]

theorem countP_closeFirst_self (id : String) (time : Timestamp) (visits : List Visit) :
    (closeFirst id time visits).countP (Visit.isOpenOf id) =
      visits.countP (Visit.isOpenOf id) - 1 := by
  induction visits with
  | nil => rfl
  | cons v rest ih =>
    by_cases h : (v.state == id && v.exited.isNone) = true
    · simp [closeFirst, h, Visit.isOpenOf]
    · have hv : Visit.isOpenOf id v = false := Bool.eq_false_iff.mpr h
      simp only [closeFirst, if_neg h, List.countP_cons, hv, ih]
      simp

theorem countP_closeFirst_ne {id other : String} (h : other ≠ id) (time : Timestamp)
    (visits : List Visit) :
    (closeFirst id time visits).countP (Visit.isOpenOf other) =
      visits.countP (Visit.isOpenOf other) := by
  induction visits with
  | nil => rfl
  | cons v rest ih =>
    by_cases hv : (v.state == id && v.exited.isNone) = true
    · have hstate : v.state = id := by simp_all
      have hne : id ≠ other := fun heq => h heq.symm
      rw [closeFirst, if_pos hv]
      simp [Visit.isOpenOf, hstate, hne]
    · simp only [closeFirst, if_neg hv, List.countP_cons, ih]

theorem openVisits_closeVisit (r : Run) (id other : String) (time : Timestamp) :
    (r.closeVisit id time).openVisits other =
      r.openVisits other - if other = id then 1 else 0 := by
  unfold openVisits closeVisit
  rw [List.countP_reverse, ← List.countP_reverse (l := r.history)]
  by_cases h : other = id
  · subst h
    rw [countP_closeFirst_self, if_pos rfl]
  · rw [countP_closeFirst_ne h, if_neg h, Nat.sub_zero]

end Run

/-- An identifier names a state that an author declared. -/
def Definition.Names (d : Definition) (id : String) : Prop :=
  ∃ s, d.state? id = some s ∧ s.kind.isPseudo = false

theorem Definition.IsJoin.names {d : Definition} {id : String} (h : d.IsJoin id) : d.Names id := by
  obtain ⟨s, hs, hkind⟩ := h
  exact ⟨s, hs, by rw [hkind]; rfl⟩

namespace Machine

open Run

/-- The open visits to a state agree with what has been told of it. -/
structure Tallied (m : Machine) (id : String) : Prop where
  inside : (m.journal.presence id).inside = m.run.inside id
  openVisits : m.run.openVisits id = (m.run.inside id).toNat + (m.journal.presence id).crowded

variable {host : Host} {d : Definition} {m after : Machine} {s : State}
  {occupied rest : List String} {id : String}

/-- News of other things, with no change to the visits, does not touch a tally. -/
theorem Tallied.keep (h : Tallied m id) (more : List Event)
    (hevents : after.journal.events = m.journal.events ++ more)
    (hquiet : ∀ e ∈ more, Quiet id e)
    (hvisits : after.run.openVisits id = m.run.openVisits id)
    (hinside : after.run.inside id = m.run.inside id) : Tallied after id := by
  have hpresence := Journal.presence_eq_of_quiet hevents hquiet
  refine ⟨?_, ?_⟩
  · rw [hpresence, hinside]
    exact h.inside
  · rw [hpresence, hinside, hvisits]
    exact h.openVisits

theorem Tallied.alike (h : Tallied m id) (ha : Alike m after) : Tallied after id := by
  refine h.keep [] (by rw [ha.events, List.append_nil]) nofun ?_ ?_
  · unfold Run.openVisits
    rw [ha.history_eq]
  · exact inside_congr ha.current_eq ha.pending_eq id

theorem quiet_of_ne {e : Event} {other : String} (hstate : e.state = some other)
    (h : id ≠ other) : Quiet id e := by
  intro hsame
  exact absurd (Option.some.inj (hsame.symm.trans hstate)) h

theorem quiet_of_failed {e : Event} (h : e.kind = .runFailed) : Quiet id e := by
  intro _
  rw [h]
  exact ⟨nofun, nofun⟩

theorem quiet_of_stateless {e : Event} (h : e.state = none) : Quiet id e := by
  intro hstate
  rw [h] at hstate
  cases hstate

theorem Tallied.fail (h : Tallied m id) (f : Failure) : Tallied (m.fail f) id := by
  refine h.keep _ (fail_events m f) ?_ rfl rfl
  intro e he
  rw [List.mem_singleton.mp he]
  exact quiet_of_failed rfl

section Entering

theorem enter_openVisits (host : Host) (m : Machine) (s : State) (id : String) :
    (m.enter host s).run.openVisits id = m.run.openVisits id + if id = s.id then 1 else 0 := by
  have hopened := openVisits_openVisit m.run s.id id (host.clock m.reads)
  unfold Run.openVisits
  rw [enter_history]
  exact hopened

theorem enter_inside (host : Host) (m : Machine) (s : State) (id : String) :
    (m.enter host s).run.inside id = m.run.inside id :=
  inside_congr (enter_current ..) (enter_pending ..) id

/-- Entering a state keeps the tally of the others, given what has been told before. -/
theorem Tallied.enter_ne (h : Tallied m id) {before : Machine} (hne : id ≠ s.id)
    (hevents : before.journal.events = m.journal.events)
    (hhistory : before.run.history = m.run.history)
    (hinside : before.run.inside id = m.run.inside id) : Tallied (before.enter host s) id := by
  obtain ⟨failures, hfailures, hnews⟩ := enter_events host before s
  rw [hevents] at hnews
  refine h.keep _ hnews ?_ ?_ ?_
  · intro e he
    rcases List.mem_cons.mp he with rfl | he
    · exact quiet_of_ne rfl hne
    · exact quiet_of_failed (hfailures e he)
  · rw [enter_openVisits, if_neg hne]
    unfold Run.openVisits
    rw [hhistory, Nat.add_zero]
  · rw [enter_inside, hinside]

/-- A state that is entered is inside from then on; if it was already, this entry is crowded. -/
theorem Tallied.enter_self {before : Machine} (h : Tallied m s.id)
    (hevents : before.journal.events = m.journal.events)
    (hhistory : before.run.history = m.run.history)
    (hinside : before.run.inside s.id = true) : Tallied (before.enter host s) s.id := by
  obtain ⟨failures, hfailures, hnews⟩ := enter_events host before s
  rw [hevents] at hnews
  have hpresence : (before.enter host s).journal.presence s.id =
      (m.journal.presence s.id).enter := by
    rw [Journal.presence_append s.id hnews, List.foldl_cons,
      Presence.foldl_hear_of_quiet fun e he => quiet_of_failed (hfailures e he)]
    simp [Presence.hear]
  have hvisits : before.run.openVisits s.id = m.run.openVisits s.id := by
    unfold Run.openVisits
    rw [hhistory]
  refine ⟨?_, ?_⟩
  · rw [hpresence, enter_inside, hinside]
    rfl
  · rw [hpresence, enter_inside, hinside, enter_openVisits, if_pos rfl, hvisits, h.openVisits,
      ← h.inside]
    exact Nat.add_comm ..

end Entering

section Leaving

theorem leave_openVisits (hauthor : s.kind.isPseudo = false) :
    (m.leave host s).run.openVisits id = m.run.openVisits id - if id = s.id then 1 else 0 := by
  rw [leave_run, if_neg (by simp [hauthor])]
  exact openVisits_closeVisit (m.run.vacate s.id) s.id id _

theorem Tallied.leave_ne (h : Tallied m id) (hne : id ≠ s.id) :
    Tallied (m.leave host s) id := by
  refine h.keep _ (leave_events host m s) ?_ ?_ ?_
  · intro e he
    split at he
    · cases he
    · rw [List.mem_singleton.mp he]
      exact quiet_of_ne rfl hne
  · cases hpseudo : s.kind.isPseudo with
    | true =>
      rw [leave_run, if_pos hpseudo]
      rfl
    | false => rw [leave_openVisits hpseudo, if_neg hne, Nat.sub_zero]
  · rw [Bool.eq_iff_iff, inside_iff, inside_iff, leave_current, leave_pending,
      List.mem_erase_of_ne hne]

/-- A state that is left is outside, and keeps one open visit for each crowded entry. -/
theorem Tallied.leave_self (h : Tallied m s.id) (hdistinct : m.run.current.Nodup)
    (hauthor : s.kind.isPseudo = false) (hinside : m.run.inside s.id = true) :
    Tallied (m.leave host s) s.id := by
  have hnews := leave_events host m s
  rw [if_neg (by simp [hauthor])] at hnews
  have hpresence : (m.leave host s).journal.presence s.id = (m.journal.presence s.id).exit := by
    rw [Journal.presence_append s.id hnews]
    simp [Presence.hear]
  have houtside : (m.leave host s).run.inside s.id = false := by
    rw [Bool.eq_false_iff, Ne, inside_iff, leave_current]
    intro hparts
    obtain ⟨hmem, -⟩ := hparts
    exact hdistinct.not_mem_erase hmem
  refine ⟨?_, ?_⟩
  · rw [hpresence, houtside]
    rfl
  · rw [hpresence, houtside, leave_openVisits hauthor, if_pos rfl, h.openVisits, hinside]
    simp [Presence.exit]

end Leaving

end Machine

end Runbook.Workflow
