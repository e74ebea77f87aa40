import Mathlib.Data.List.Induction
import Runbook.Proofs.Visits

/-!
Entries into joins. A join is entered when it fires, and is sealed from then on: nothing else that
is occupied can reach it, and no arrival at it is told of until it is left. Where no state leads
back to itself the seal is for good, because what follows the join does not reach it either, so it
is entered once at most.
-/
namespace Runbook.Workflow

/-- What is told of a state. -/
def Event.Tells (e : Event) (kind : EventKind) (id : String) : Prop :=
  e.kind = kind ∧ e.state = some id

/-- As far as events tell, a state is being visited: it was entered, and not exited since. -/
def VisitedBy (events : List Event) (id : String) : Prop :=
  ∃ earlier e later, events = earlier ++ e :: later ∧ e.Tells .stateEntered id ∧
    ∀ other ∈ later, ¬ other.Tells .stateExited id

/-- No arrival at a state is told of while it is being visited. -/
def Undisturbed (id : String) (events : List Event) : Prop :=
  ∀ earlier e later, events = earlier ++ e :: later → e.Tells .joinWaiting id →
    ¬ VisitedBy earlier id

section Events

variable {id : String} {events more : List Event} {e : Event}

theorem eq_or_concat_of_append_cons {e' : Event} {earlier later : List Event}
    (h : events ++ [e] = earlier ++ e' :: later) :
    (later = [] ∧ e = e' ∧ events = earlier) ∨
      ∃ later', later = later' ++ [e] ∧ events = earlier ++ e' :: later' := by
  rcases List.eq_nil_or_concat' later with rfl | ⟨later', last, rfl⟩
  · obtain ⟨hevents, he⟩ := List.append_inj' h rfl
    exact Or.inl ⟨rfl, (List.cons.inj he).1, hevents⟩
  · have hsplit : events ++ [e] = (earlier ++ e' :: later') ++ [last] := by
      rw [h, List.append_assoc]
      rfl
    obtain ⟨hevents, hlast⟩ := List.append_inj' hsplit rfl
    obtain rfl : e = last := (List.cons.inj hlast).1
    exact Or.inr ⟨later', rfl, hevents⟩

theorem visitedBy_concat :
    VisitedBy (events ++ [e]) id ↔
      e.Tells .stateEntered id ∨ VisitedBy events id ∧ ¬ e.Tells .stateExited id := by
  constructor
  · intro hparts
    obtain ⟨earlier, entered, later, heq, hentered, hlater⟩ := hparts
    rcases eq_or_concat_of_append_cons heq with ⟨rfl, rfl, -⟩ | ⟨later', rfl, hevents⟩
    · exact Or.inl hentered
    · have hlast := hlater e (List.mem_append_right _ (List.mem_singleton_self e))
      have hbefore := fun other hother => hlater other (List.mem_append_left _ hother)
      exact Or.inr ⟨⟨earlier, entered, later', hevents, hentered, hbefore⟩, hlast⟩
  · intro hcase
    rcases hcase with hentered | ⟨⟨earlier, entered, later, rfl, hentered, hlater⟩, hlast⟩
    · exact ⟨events, e, [], rfl, hentered, nofun⟩
    · refine ⟨earlier, entered, later ++ [e], List.append_assoc .., hentered, ?_⟩
      intro other hother
      rcases List.mem_append.mp hother with hother | hother
      · exact hlater other hother
      · rw [List.mem_singleton.mp hother]
        exact hlast

/-- A state is being visited when it is inside by what has been told. -/
theorem inside_foldl_hear_iff :
    (events.foldl (Presence.hear id) ⟨false, 0⟩).inside = true ↔ VisitedBy events id := by
  induction events using List.reverseRecOn with
  | nil =>
    refine iff_of_false nofun ?_
    intro hparts
    obtain ⟨earlier, e, later, heq, -⟩ := hparts
    simp at heq
  | append_singleton events e ih =>
    rw [List.foldl_append, List.foldl_cons, List.foldl_nil, visitedBy_concat, ← ih]
    unfold Presence.hear Event.Tells
    by_cases hstate : e.state = some id
    · rw [if_pos hstate]
      cases hkind : e.kind <;> simp [hstate, Presence.enter, Presence.exit]
    · simp [hstate]

theorem undisturbed_concat :
    Undisturbed id (events ++ [e]) ↔
      Undisturbed id events ∧ (e.Tells .joinWaiting id → ¬ VisitedBy events id) := by
  constructor
  · intro h
    refine ⟨?_, h events e [] rfl⟩
    intro earlier other later heq
    refine h earlier other (later ++ [e]) ?_
    rw [heq, List.append_assoc]
    rfl
  · intro hparts earlier other later heq hwaiting
    obtain ⟨hevents, hlast⟩ := hparts
    rcases eq_or_concat_of_append_cons heq with ⟨-, rfl, rfl⟩ | ⟨later', -, hbefore⟩
    · exact hlast hwaiting
    · exact hevents earlier other later' hbefore hwaiting

theorem Undisturbed.append (h : Undisturbed id events)
    (hmore : ∀ e ∈ more, ¬ e.Tells .joinWaiting id) : Undisturbed id (events ++ more) := by
  induction more using List.reverseRecOn with
  | nil =>
    rw [List.append_nil]
    exact h
  | append_singleton more e ih =>
    rw [← List.append_assoc, undisturbed_concat]
    refine ⟨ih fun other hother => hmore other (List.mem_append_left _ hother), ?_⟩
    intro hwaiting
    exact absurd hwaiting (hmore e (List.mem_append_right _ (List.mem_singleton_self e)))

theorem undisturbed_of_not_tells (h : ∀ e ∈ events, ¬ e.Tells .joinWaiting id) :
    Undisturbed id events := by
  intro earlier e later heq hwaiting
  refine absurd hwaiting (h e ?_)
  rw [heq]
  exact List.mem_append_right _ (List.mem_cons_self ..)

theorem not_tells_of_kind_ne {kind : EventKind} (h : e.kind ≠ kind) : ¬ e.Tells kind id :=
  fun htells => h htells.1

end Events

namespace Run

/-- How often a state has been visited. -/
def visitsTo (r : Run) (id : String) : Nat := (r.history.map Visit.state).count id

end Run

namespace Machine

open Run

variable {host : Host} {d : Definition} {m after : Machine} {s : State}
  {occupied rest : List String} {id join : String}

section Undisturbed

theorem undisturbed_enter (h : Undisturbed id m.journal.events) :
    Undisturbed id (m.enter host s).journal.events := by
  obtain ⟨failures, hfailures, hevents⟩ := enter_events host m s
  rw [hevents]
  refine h.append fun e he => not_tells_of_kind_ne ?_
  rcases List.mem_cons.mp he with rfl | he
  · nofun
  · rw [hfailures e he]
    nofun

theorem undisturbed_leave (h : Undisturbed id m.journal.events) :
    Undisturbed id (m.leave host s).journal.events := by
  rw [leave_events]
  refine h.append fun e he => not_tells_of_kind_ne ?_
  split at he
  · cases he
  · rw [List.mem_singleton.mp he]
    nofun

/-- An arrival disturbs no visit, unless it is at a join that is occupied without waiting. -/
theorem undisturbed_arriveAt {source : String} {t : State} (htallied : Tallied m id)
    (hwaiting : t.kind = .join → t.id ∈ m.run.current → Keyed.has t.id m.run.pending = true)
    (h : Undisturbed id m.journal.events) :
    Undisturbed id (m.arriveAt host source t).journal.events := by
  rcases arriveAt_cases host source m t with ⟨-, he⟩ | ⟨hjoin, payload, he⟩ | ⟨-, -, he⟩
  · rw [he]
    exact h
  · rw [he, emit_events, undisturbed_concat]
    refine ⟨h, ?_⟩
    intro htells hvisited
    obtain rfl : t.id = id := Option.some.inj htells.2
    have hinside : m.run.inside t.id = true := by
      rw [← htallied.inside]
      exact inside_foldl_hear_iff.mpr hvisited
    obtain ⟨hcurrent, hfree⟩ := inside_iff.mp hinside
    rw [hwaiting hjoin hcurrent] at hfree
    cases hfree
  · rw [he]
    exact undisturbed_enter h

theorem undisturbed_turned {moved : Bool} (htallied : Tallied m id) (hid : d.Names id)
    (hs : d.state? s.id = some s) (hrunning : m.isRunning = true)
    (hturned : Turned host d occupied s m moved after)
    (htracked : Tracked d occupied (s.id :: rest) m.run) (h : Undisturbed id m.journal.events) :
    Undisturbed id after.journal.events := by
  cases hturned with
  | stays => exact h
  | fires =>
    apply undisturbed_enter
    have hevents : (m.fire s.id).journal.events = m.journal.events := log_events ..
    rw [hevents]
    exact h
  | fails hkind hwaits hasked =>
    rw [fail_events, hasked.events]
    refine h.append fun e he => not_tells_of_kind_ne ?_
    rw [List.mem_singleton.mp he]
    nofun
  | @goes asked targets hkind hwaits hasked htargets hleads =>
    have hask := tracked_alike hasked.toAlike htracked
    have hoccupied := hask.rest_occupied s.id (List.mem_cons_self ..)
    have hidle := (hasked.awaits_eq s).trans hwaits
    have hquiet : Undisturbed id asked.journal.events := by
      rw [hasked.events]
      exact h
    suffices hall : Tallied (arriveAll host s.id targets (asked.leave host s)) id ∧
        Undisturbed id (arriveAll host s.id targets (asked.leave host s)).journal.events from hall.2
    refine goes_keeps (P := fun after => Tallied after id ∧ Undisturbed id after.journal.events)
      hask.toCoherent hask.shut (hasked.isRunning_eq.trans hrunning) hs hoccupied hkind hidle hleads
      ?_ ?_
    · intro t before ht hcoherent hwaiting hparts
      obtain ⟨hbefore, hundisturbed⟩ := hparts
      exact ⟨hbefore.arriveAt hid hcoherent ht hwaiting,
        undisturbed_arriveAt hbefore hwaiting hundisturbed⟩
    · exact ⟨(htallied.alike hasked.toAlike).leave hid hask.toCoherent hs hoccupied hidle,
        undisturbed_leave hquiet⟩

end Undisturbed

section Visits

theorem visitsTo_congr {r r' : Run} (h : r'.history = r.history) (id : String) :
    r'.visitsTo id = r.visitsTo id := by
  unfold visitsTo
  rw [h]

theorem visitsTo_enter (host : Host) (m : Machine) (s : State) (id : String) :
    (m.enter host s).run.visitsTo id = m.run.visitsTo id + if s.id = id then 1 else 0 := by
  unfold visitsTo
  rw [enter_history, List.map_append, List.count_append]
  simp [List.count_singleton]

theorem visitsTo_leave (host : Host) (m : Machine) (s : State) (id : String) :
    (m.leave host s).run.visitsTo id = m.run.visitsTo id := by
  unfold visitsTo
  rw [leave_states]

/-- An arrival does not visit a join. -/
theorem visitsTo_arriveAt {source : String} {t : State} (ht : d.state? t.id = some t)
    (hjoin : d.IsJoin join) :
    (m.arriveAt host source t).run.visitsTo join = m.run.visitsTo join := by
  rcases arriveAt_cases host source m t with ⟨-, he⟩ | ⟨-, payload, he⟩ | ⟨-, hother, he⟩
  · rw [he]
    exact visitsTo_congr (by rw [mapRun_run, occupy_eq]) join
  · rw [he]
    exact visitsTo_congr (by rw [emit_run, mapRun_run, occupy_eq]; rfl) join
  · have hne : t.id ≠ join := by
      intro heq
      obtain rfl := heq
      exact hother (hjoin.kind_eq ht)
    rw [he, visitsTo_enter, if_neg hne]
    exact visitsTo_congr (by rw [mapRun_run, occupy_eq]) join

/-- A turn visits a join only if the join fires. -/
theorem visitsTo_turned {moved : Bool} (hjoin : d.IsJoin join) (hrunning : m.isRunning = true)
    (hturned : Turned host d occupied s m moved after) :
    after.run.visitsTo join = m.run.visitsTo join ∨
      s.id = join ∧ after = (m.fire s.id).enter host s ∧ m.awaits s = true ∧
        after.run.visitsTo join = m.run.visitsTo join + 1 := by
  cases hturned with
  | stays => exact Or.inl rfl
  | fires hwaits =>
    rw [visitsTo_enter]
    have hfired : (m.fire s.id).run.visitsTo join = m.run.visitsTo join := visitsTo_congr rfl join
    by_cases hself : s.id = join
    · rw [if_pos hself, hfired]
      exact Or.inr ⟨hself, rfl, hwaits, rfl⟩
    · rw [if_neg hself, hfired]
      exact Or.inl rfl
  | fails hkind hwaits hasked => exact Or.inl (visitsTo_congr hasked.history_eq join)
  | @goes asked targets hkind hwaits hasked htargets hleads =>
    left
    have hleft := (visitsTo_leave host asked s join).trans (visitsTo_congr hasked.history_eq join)
    exact arriveAll_keeps (P := fun after => after.run.visitsTo join = m.run.visitsTo join)
      (fun t ht _ _ hbefore => (visitsTo_arriveAt (hleads t ht).1 hjoin).trans hbefore)
      (hasked.isRunning_leave host s hrunning) hleft

/-- A join that fires is inside. -/
theorem inside_fired (host : Host) (hself : s.id ∈ m.run.current)
    (hkeys : (Keyed.keys m.run.pending).Nodup) :
    ((m.fire s.id).enter host s).run.inside s.id = true := by
  rw [enter_inside, inside_iff]
  exact ⟨hself, Keyed.has_erase_self hkeys⟩

/-- In a step from a machine, a join has not been visited yet, or it has had its turn and is inside.
-/
def Visiting (join : String) (first : Machine) (rest : List String) (m : Machine) : Prop :=
  m.run.visitsTo join = first.run.visitsTo join ∨ join ∉ rest ∧ m.run.inside join = true

theorem visiting_alike {first asked : Machine} (ha : Alike m asked)
    (h : Visiting join first rest m) : Visiting join first rest asked := by
  refine h.imp (visitsTo_congr ha.history_eq join).trans fun hparts => ?_
  rw [inside_congr ha.current_eq ha.pending_eq]
  exact hparts

/-- The turn of a join may visit it, and those of other states leave it inside. -/
theorem visiting_turned {first : Machine} {moved : Bool} (hjoin : d.IsJoin join)
    (hs : d.state? s.id = some s) (hrunning : m.isRunning = true)
    (hturned : Turned host d occupied s m moved after)
    (htracked : Tracked d occupied (s.id :: rest) m.run)
    (h : Visiting join first (s.id :: rest) m) : Visiting join first rest after := by
  have hnotin := (List.nodup_cons.mp htracked.rest_distinct).1
  have hself := htracked.rest_occupied s.id (List.mem_cons_self ..)
  rcases h with hsame | ⟨hpast, hinside⟩
  · rcases visitsTo_turned hjoin hrunning hturned with hturn | ⟨rfl, rfl, -⟩
    · exact Or.inl (hturn.trans hsame)
    · exact Or.inr ⟨hnotin, inside_fired host hself htracked.keys⟩
  · obtain ⟨hcurrent, hfree⟩ := inside_iff.mp hinside
    have hne : join ≠ s.id := fun heq => hpast (heq ▸ List.mem_cons_self ..)
    obtain ⟨hmem, hwaits⟩ := others_turned hs hrunning hturned htracked hcurrent hne
    exact Or.inr ⟨fun hrest => hpast (List.mem_cons_of_mem _ hrest),
      inside_iff.mpr ⟨hmem, hwaits.trans hfree⟩⟩

/-- A step that visits a join ends with the join inside and sealed. -/
theorem visitsTo_advance (hsound : d.Sound) (hrest : AtRest d m.run) (hshut : Sealed d m.run)
    (hjoin : d.IsJoin join) :
    let next := m.leftBy (m.advance host d)
    next.run.visitsTo join = m.run.visitsTo join ∨
      next.run.inside join = true ∧ Sealed d next.run := by
  intro next
  refine leftBy_advance (P := fun rest before =>
      Tracked d m.run.current rest before.run ∧ Visiting join m rest before)
    (Q := fun after => after.run.visitsTo join = m.run.visitsTo join ∨
      after.run.inside join = true ∧ Sealed d after.run)
    hsound.valid (fun hrunning => ⟨tracked_of_atRest hrunning hrest hshut, Or.inl rfl⟩)
    (fun _ _ h id hid => h.1.declared id (h.1.rest_occupied id hid))
    (fun _ _ _ ha h => ⟨tracked_alike ha.toAlike h.1, visiting_alike ha.toAlike h.2⟩)
    (fun _ _ _ _ _ hs hrunning hturned h =>
      ⟨tracked_turned hsound.valid hs hrunning hturned h.1,
        visiting_turned hjoin hs hrunning hturned h.1 h.2⟩) ?_
    (fun _ _ _ h => h.2.imp_right fun hinside => ⟨hinside.2, h.1.shut⟩)
    fun _ ha => Or.inl (visitsTo_congr ha.history_eq join)
  intro rest moved before _ hparts
  obtain ⟨htracked, hsame | ⟨-, hinside⟩⟩ := hparts
  · exact Or.inl ((visitsTo_congr conclude_history join).trans hsame)
  · refine Or.inr ⟨?_, sealed_conclude hsound htracked⟩
    rw [inside_conclude hjoin.names hsound htracked.toMidway]
    exact hinside

end Visits

section Once

/-- A join has not been visited, or once and nothing that is occupied will lead to it again. -/
def Spent (d : Definition) (join : String) (r : Run) : Prop :=
  r.visitsTo join = 0 ∨ r.visitsTo join = 1 ∧ Keyed.has join r.pending = false ∧
    ∀ id ∈ r.current, id ≠ join → isTerminal d id = false → ¬ d.Reaches id join

theorem spent_of_eq {r r' : Run} (hhistory : r'.history = r.history)
    (hpending : r'.pending = r.pending)
    (hcurrent : ∀ id ∈ r'.current, isTerminal d id = false → id ∈ r.current)
    (h : Spent d join r) : Spent d join r' := by
  unfold Spent
  rw [visitsTo_congr hhistory, hpending]
  refine h.imp_right fun hparts => ?_
  obtain ⟨honce, hfree, hclear⟩ := hparts
  exact ⟨honce, hfree, fun id hid hne hopen => hclear id (hcurrent id hid hopen) hne hopen⟩

/-- A spent join is not fired again, and what follows it does not lead back to it. -/
theorem spent_turned (hacyclic : d.Acyclic) {moved : Bool} (hjoin : d.IsJoin join)
    (hs : d.state? s.id = some s) (hrunning : m.isRunning = true)
    (hturned : Turned host d occupied s m moved after)
    (h : Tracked d occupied (s.id :: rest) m.run) (hafter : Tracked d occupied rest after.run)
    (hspent : Spent d join m.run) : Spent d join after.run := by
  have hself := h.rest_occupied s.id (List.mem_cons_self ..)
  have hturn := visitsTo_turned hjoin hrunning hturned
  rcases hspent with hnever | ⟨honce, hfree, hclear⟩
  · rcases hturn with hsame | ⟨rfl, rfl, -, hmore⟩
    · exact Or.inl (hsame.trans hnever)
    · have hinside := inside_fired host hself h.keys
      obtain ⟨hcurrent, hfree⟩ := inside_iff.mp hinside
      refine Or.inr ⟨by rw [hmore, hnever], hfree, ?_⟩
      exact hafter.shut s.id hcurrent hjoin hfree
  · have hidle : ¬ (s.id = join ∧ m.awaits s = true) := by
      intro hparts
      obtain ⟨rfl, hwaits⟩ := hparts
      rw [(awaits_iff.mp hwaits).2] at hfree
      cases hfree
    have hsame : after.run.visitsTo join = m.run.visitsTo join :=
      hturn.resolve_right fun hparts => hidle ⟨hparts.1, hparts.2.2.1⟩
    -- the state whose turn it is does not reach the join, or is the join and does not reach itself
    have haway : ∀ id, isTerminal d s.id = false → d.Leads s.id id → ¬ d.Reaches id join := by
      intro id hopen hlead hpath
      by_cases heq : s.id = join
      · exact hacyclic s.id id hlead (heq ▸ hpath)
      · exact hclear s.id hself heq hopen (.head hlead hpath)
    refine Or.inr ⟨hsame.trans honce, ?_, ?_⟩
    · rw [Bool.eq_false_iff]
      intro hhas
      rcases has_pending_turned hs hrunning hturned hhas with hold | ⟨hopen, hlead⟩
      · rw [hfree] at hold
        cases hold
      · exact haway join hopen hlead (.refl d join)
    · intro id hid hne hopen
      rcases current_turned hs hrunning hturned hid with hold | ⟨hsopen, hlead⟩
      · exact hclear id hold hne hopen
      · exact haway id hsopen hlead

end Once

/-- What every call keeps of a join: no visit to it is disturbed, and without cycles it is spent. -/
structure Respected (d : Definition) (join : String) (m : Machine) : Prop where
  undisturbed : Undisturbed join m.journal.events
  spent : d.Acyclic → Spent d join m.run

theorem Respected.alike (h : Respected d join m) (ha : Alike m after) :
    Respected d join after where
  undisturbed := by
    rw [ha.events]
    exact h.undisturbed
  spent := fun hacyclic => spent_of_eq ha.history_eq ha.pending_eq
    (fun _ hid _ => ha.current_eq ▸ hid) (h.spent hacyclic)

theorem Respected.restated {kind : EventKind} (h : Respected d join m)
    (ha : Restated kind m after) : Respected d join after where
  undisturbed := by
    rw [ha.events]
    refine h.undisturbed.append fun e he => ?_
    rw [List.mem_singleton.mp he]
    intro htells
    cases htells.2
  spent := fun hacyclic => spent_of_eq (by rw [ha.run]) (by rw [ha.run])
    (fun _ hid _ => by rw [ha.run] at hid; exact hid) (h.spent hacyclic)

theorem Respected.conclude {moved : Bool} (hsound : d.Sound) (h : Respected d join m)
    (hmidway : Midway d rest m.run) : Respected d join ((m.conclude d moved).touch host) where
  undisturbed := by
    obtain ⟨verdict, hevents, hverdict⟩ := conclude_events host d moved m
    rw [hevents]
    refine h.undisturbed.append fun e he => not_tells_of_kind_ne ?_
    rcases hverdict e he with hkind | hkind <;> (rw [hkind]; nofun)
  spent := by
    intro hacyclic
    have hspent := h.spent hacyclic
    unfold Machine.conclude
    split
    · exact hspent
    · split
      · rename_i hdone
        rw [Bool.and_eq_true, List.all_eq_true] at hdone
        have hend := isTerminal_endId hsound hmidway.nonempty hdone.2
        refine spent_of_eq (r := m.run) rfl rfl ?_ hspent
        intro id hid hopen
        rw [List.mem_singleton.mp hid, hend] at hopen
        cases hopen
      · split <;> exact hspent

theorem kept_respected (hsound : d.Sound) (hjoin : d.IsJoin join) :
    Kept host d fun m => Visited d m ∧ Respected d join m := by
  refine kept_with_visited hsound (fun _ _ ha h => h.alike ha.toAlike)
    (fun _ _ _ ha h => h.restated ha) ?_
    (fun _ _ _ _ htracked h => h.conclude hsound htracked.toMidway)
  intro occupied s rest m moved after hs hrunning hturned htracked htallied hm
  have hafter := tracked_turned hsound.valid hs hrunning hturned htracked
  have hnamed := hjoin.names
  refine ⟨?_, ?_⟩
  · exact undisturbed_turned (htallied join hnamed) hnamed hs hrunning hturned htracked
      hm.undisturbed
  · exact fun hacyclic => spent_turned hacyclic hjoin hs hrunning hturned htracked hafter
      (hm.spent hacyclic)

theorem respected_after (hsound : d.Sound) (hjoin : d.IsJoin join) {bindings : Fields}
    {reads judged invoked : Nat}
    (hstart : start host d bindings id reads judged invoked = .ok m) (calls : List Call) :
    Respected d join (m.after host d calls) := by
  refine ((kept_respected hsound hjoin).reached ?_ hstart calls).2
  intro before initial hinitial hrun hevents
  refine ⟨visited_fresh hinitial hrun hevents, ?_, ?_⟩
  · rw [hevents]
    refine undisturbed_of_not_tells fun e he => not_tells_of_kind_ne ?_
    rw [List.mem_singleton.mp he]
    nofun
  · intro _
    left
    rw [hrun]
    rfl

/-- When a step of a run of a valid definition visits a join, it ends within that visit, and no
other occupied state that is not terminal can reach the join any more. As long as a join is being
visited, nobody waits at it and no arrival at it is told of. Where no state leads back to itself,
no join is visited twice. -/
theorem join_visited_after {text : String} {name : Option String} {d : Definition}
    (hparse : Definition.parse text name = .ok d) (hv : d.validate.hasErrors = false)
    {host : Host} {bindings : Fields} {id : String} {reads judged invoked : Nat} {m : Machine}
    (hstart : start host d bindings id reads judged invoked = .ok m) (calls : List Call)
    {join : String} (hjoin : d.IsJoin join) :
    let before := m.after host d calls
    let next := before.call host d .advance
    (before.run.visitsTo join < next.run.visitsTo join →
      VisitedBy next.journal.events join ∧
      ∀ id ∈ next.run.current, id ≠ join → isTerminal d id = false → ¬ d.Reaches id join) ∧
    (VisitedBy before.journal.events join →
      join ∈ before.run.current ∧ Keyed.has join before.run.pending = false) ∧
    (∀ earlier e later, before.journal.events = earlier ++ e :: later →
      e.Tells .joinWaiting join → ¬ VisitedBy earlier join) ∧
    (d.Acyclic → before.run.visitsTo join ≤ 1) := by
  intro before next
  have hsound := Definition.sound_of_parse hparse hv
  have hvisited : Visited d before := visited_after hsound hstart calls
  have hrespected : Respected d join before := respected_after hsound hjoin hstart calls
  refine ⟨?_, ?_, hrespected.undisturbed, ?_⟩
  · intro hmore
    have hnext : Visited d next := (kept_visited hsound).call .advance hvisited
    rcases visitsTo_advance hsound hvisited.rest hvisited.shut hjoin with
      hsame | ⟨hinside, hshut⟩
    · exact absurd hsame (Nat.ne_of_gt hmore)
    · obtain ⟨hcurrent, hfree⟩ := inside_iff.mp hinside
      refine ⟨?_, hshut join hcurrent hjoin hfree⟩
      rw [← inside_foldl_hear_iff]
      exact (hnext.tallied join hjoin.names).inside.trans hinside
  · intro htold
    rw [← inside_iff, ← (hvisited.tallied join hjoin.names).inside]
    exact inside_foldl_hear_iff.mpr htold
  · intro hacyclic
    rcases hrespected.spent hacyclic with hnever | ⟨honce, -⟩
    · omega
    · omega

/-- The fourth step visits the join, once the longer branch has arrived there too. -/
theorem join_visited_after_uneven_branches :
    ∃ d m, Definition.parse (Text.unlines unevenBranches) none = .ok d ∧
      d.validate.hasErrors = false ∧ start quietHost d [] "run-1" 0 0 0 = .ok m ∧
      d.IsJoin "J" ∧ d.Acyclic ∧
      let before := m.after quietHost d [.advance, .advance, .advance]
      let next := before.call quietHost d .advance
      before.run.visitsTo "J" < next.run.visitsTo "J" ∧ VisitedBy next.journal.events "J" ∧
      (∀ id ∈ next.run.current, id ≠ "J" → isTerminal d id = false → ¬ d.Reaches id "J") ∧
      next.run.visitsTo "J" ≤ 1 := by
  obtain ⟨d, m, hparse, hv, hstart, htest⟩ := exists_started unevenBranches []
    (fun d m =>
      let before := m.after quietHost d [.advance, .advance, .advance]
      decide ((d.state? "J").map State.kind = some .join ∧ d.Acyclic ∧
        before.run.visitsTo "J" < (before.call quietHost d .advance).run.visitsTo "J"))
    (by decide) (by decide +kernel)
  obtain ⟨hkind, hacyclic, hmore⟩ := of_decide_eq_true htest
  obtain ⟨s, hs, hjoin⟩ := Option.map_eq_some_iff.mp hkind
  have hvisits := join_visited_after hparse hv hstart [.advance, .advance, .advance] ⟨s, hs, hjoin⟩
  have hlater := join_visited_after hparse hv hstart [.advance, .advance, .advance, .advance]
    ⟨s, hs, hjoin⟩
  obtain ⟨hvisited, hclear⟩ := hvisits.1 hmore
  exact ⟨d, m, hparse, hv, hstart, ⟨s, hs, hjoin⟩, hacyclic, hmore, hvisited, hclear,
    hlater.2.2.2 hacyclic⟩

end Machine

end Runbook.Workflow
