import Runbook.Proofs.Orderly

/-!
Joins that have fired are sealed: no other occupied state can reach them until they are left. A
join fires only when nothing occupied before the step can reach it, and whatever is occupied in the
course of the step lies on a path from there. So a step finds every join waiting, or not waiting,
as it was before the step.
-/
namespace Runbook.Workflow

namespace Run

/-- No other occupied state that is not terminal can reach an occupied join that does not wait. -/
def Sealed (d : Definition) (r : Run) : Prop :=
  ∀ join ∈ r.current, d.IsJoin join → Keyed.has join r.pending = false →
    ∀ id ∈ r.current, id ≠ join → Machine.isTerminal d id = false → ¬ d.Reaches id join

/-- A path leads to a state from one of the occupied states that have had their turn. -/
def Follows (d : Definition) (occupied rest : List String) (id : String) : Prop :=
  ∃ origin ∈ occupied, origin ∉ rest ∧ Machine.isTerminal d origin = false ∧ d.Reaches origin id

/-- What holds of a run between two turns, given the states that were occupied before the step and
those that have not had their turn. -/
structure Tracked (d : Definition) (occupied rest : List String) (r : Run) : Prop
    extends Midway d rest r where
  shut : Sealed d r
  known : ∀ id ∈ occupied, ∃ s, d.state? id = some s
  remaining : ∀ id ∈ rest, id ∈ occupied
  follows : ∀ id ∈ r.current, Machine.isTerminal d id = false →
    id ∈ rest ∨ Follows d occupied rest id

end Run

namespace Machine

open Run

variable {host : Host} {d : Definition} {m : Machine} {s : State} {occupied rest : List String}

theorem sealed_alike {asked : Machine} (ha : Alike m asked) (h : Sealed d m.run) :
    Sealed d asked.run := by
  unfold Sealed
  rw [ha.current_eq, ha.pending_eq]
  exact h

theorem tracked_alike {asked : Machine} (ha : Alike m asked)
    (h : Tracked d occupied rest m.run) : Tracked d occupied rest asked.run where
  toMidway := midway_alike ha h.toMidway
  shut := sealed_alike ha h.shut
  known := h.known
  remaining := h.remaining
  follows := by
    rw [ha.current_eq]
    exact h.follows

theorem follows_past {id next : String} (h : Follows d occupied (next :: rest) id) :
    Follows d occupied rest id := by
  obtain ⟨origin, horigin, hpast, hopen, hpath⟩ := h
  exact ⟨origin, horigin, fun hrest => hpast (List.mem_cons_of_mem _ hrest), hopen, hpath⟩

section Spreading

/-- Arrivals occupy only states that a transition leads to, and leave no join that they reach free
of waiting. -/
structure Spread (d : Definition) (source : String) (r r' : Run) : Prop where
  free : ∀ join ∈ r'.current, d.IsJoin join → Keyed.has join r'.pending = false →
    join ∈ r.current ∧ Keyed.has join r.pending = false
  spread : ∀ id ∈ r'.current, id ∈ r.current ∨ d.Leads source id

theorem has_pending_arriveAt {source id : String} {t : State} :
    Keyed.has id (m.arriveAt host source t).run.pending =
      (decide (t.kind = .join ∧ id = t.id) || Keyed.has id m.run.pending) := by
  rw [arriveAt_pending]
  by_cases hjoin : t.kind = .join
  · rw [if_pos hjoin]
    exact (Keyed.has_set ..).trans (by simp [hjoin])
  · rw [if_neg hjoin]
    simp [hjoin]

theorem spread_arriveAt {source : String} {t : State} {r : Run} (ht : d.state? t.id = some t)
    (hleads : d.Leads source t.id) (h : Spread d source r m.run) :
    Spread d source r (m.arriveAt host source t).run where
  free := by
    intro join hcurrent hjoin hfree
    rw [has_pending_arriveAt, Bool.or_eq_false_iff, decide_eq_false_iff_not] at hfree
    obtain ⟨hother, hfree⟩ := hfree
    rw [arriveAt_current, mem_current_occupy] at hcurrent
    rcases hcurrent with hcurrent | rfl
    · exact h.free join hcurrent hjoin hfree
    · exact absurd ⟨hjoin.kind_eq ht, rfl⟩ hother
  spread := by
    intro id hid
    rw [arriveAt_current, mem_current_occupy] at hid
    rcases hid with hid | rfl
    · exact h.spread id hid
    · exact Or.inr hleads

theorem spread_arriveAll (host : Host) {source : String} {targets : List State}
    (hrunning : m.isRunning = true)
    (hleads : ∀ t ∈ targets, d.state? t.id = some t ∧ d.Leads source t.id) :
    Spread d source m.run (arriveAll host source targets m).run := by
  refine arriveAll_keeps (P := fun after => Spread d source m.run after.run) ?_ hrunning
    ⟨fun _ hcurrent _ hfree => ⟨hcurrent, hfree⟩, fun _ hid => Or.inl hid⟩
  intro t ht before _ hbefore
  exact spread_arriveAt (hleads t ht).1 (hleads t ht).2 hbefore

/-- A join waits after some arrivals only if it did before or they lead to it. -/
theorem has_pending_arriveAll {source id : String} {targets : List State}
    (hrunning : m.isRunning = true) (hleads : ∀ t ∈ targets, d.Leads source t.id)
    (h : Keyed.has id (arriveAll host source targets m).run.pending = true) :
    Keyed.has id m.run.pending = true ∨ d.Leads source id := by
  revert h
  refine arriveAll_keeps (P := fun after => Keyed.has id after.run.pending = true →
    Keyed.has id m.run.pending = true ∨ d.Leads source id) ?_ hrunning Or.inl
  intro t ht before _ hbefore hafter
  rw [has_pending_arriveAt, Bool.or_eq_true, decide_eq_true_eq] at hafter
  rcases hafter with ⟨-, rfl⟩ | hafter
  · exact Or.inr (hleads t ht)
  · exact hbefore hafter

/-- What a turn occupies was occupied before, or the state whose turn it is leads to it. -/
theorem current_turned {moved : Bool} {after : Machine} (hs : d.state? s.id = some s)
    (hrunning : m.isRunning = true) (hturned : Turned host d occupied s m moved after) {id : String}
    (hid : id ∈ after.run.current) :
    id ∈ m.run.current ∨ isTerminal d s.id = false ∧ d.Leads s.id id := by
  cases hturned with
  | stays => exact Or.inl hid
  | fires =>
    rw [enter_current] at hid
    exact Or.inl hid
  | fails hkind hwaits hasked =>
    rw [fail_run, hasked.current_eq] at hid
    exact Or.inl hid
  | goes hkind hwaits hasked htargets hleads =>
    have hspread := spread_arriveAll host (hasked.isRunning_leave host s hrunning) hleads
    rcases hspread.spread id hid with hold | hlead
    · rw [leave_current, hasked.current_eq] at hold
      exact Or.inl (List.mem_of_mem_erase hold)
    · exact Or.inr ⟨isTerminal_of_kind_ne hs hkind, hlead⟩

/-- What waits after a turn waited before, or the state whose turn it is leads to it. -/
theorem has_pending_turned {moved : Bool} {after : Machine} (hs : d.state? s.id = some s)
    (hrunning : m.isRunning = true) (hturned : Turned host d occupied s m moved after) {id : String}
    (h : Keyed.has id after.run.pending = true) :
    Keyed.has id m.run.pending = true ∨ isTerminal d s.id = false ∧ d.Leads s.id id := by
  cases hturned with
  | stays => exact Or.inl h
  | fires hwaits =>
    rw [enter_pending] at h
    left
    by_cases hfired : id = s.id
    · rw [hfired]
      exact (awaits_iff.mp hwaits).2
    · exact (Keyed.has_erase_ne hfired m.run.pending).symm.trans h
  | fails hkind hwaits hasked =>
    rw [fail_run, hasked.pending_eq] at h
    exact Or.inl h
  | goes hkind hwaits hasked htargets hleads =>
    have hgoing := hasked.isRunning_leave host s hrunning
    rcases has_pending_arriveAll hgoing (fun t ht => (hleads t ht).2) h with hold | hlead
    · rw [leave_pending, hasked.pending_eq] at hold
      exact Or.inl hold
    · exact Or.inr ⟨isTerminal_of_kind_ne hs hkind, hlead⟩

end Spreading

theorem sealed_goes {targets : List State} (h : Sealed d m.run) (hrunning : m.isRunning = true)
    (hself : s.id ∈ m.run.current) (hopen : isTerminal d s.id = false)
    (hdistinct : m.run.current.Nodup)
    (hleads : ∀ t ∈ targets, d.state? t.id = some t ∧ d.Leads s.id t.id) :
    Sealed d (arriveAll host s.id targets (m.leave host s)).run := by
  have hspread := spread_arriveAll host (m := m.leave host s)
    ((leave_isRunning ..).trans hrunning) hleads
  intro join hjoin hkind hfree id hid hne hidopen hpath
  obtain ⟨hbefore, hwasfree⟩ := hspread.free join hjoin hkind hfree
  rw [leave_current, hdistinct.mem_erase_iff] at hbefore
  rw [leave_pending] at hwasfree
  rcases hspread.spread id hid with hold | hlead
  · rw [leave_current, hdistinct.mem_erase_iff] at hold
    exact h join hbefore.2 hkind hwasfree id hold.2 hne hidopen hpath
  -- what the left state leads to reaches nothing that it does not reach itself
  · exact h join hbefore.2 hkind hwasfree s.id hself hbefore.1.symm hopen
      (Definition.Reaches.head hlead hpath)

/-- What no other state occupied before the step reaches, no other state reaches at its turn. -/
theorem clear_of_follows (h : Tracked d occupied (s.id :: rest) m.run)
    (hclear : ∀ id ∈ occupied, id ≠ s.id → isTerminal d id = false → ¬ d.Reaches id s.id) :
    ∀ id ∈ m.run.current, id ≠ s.id → isTerminal d id = false → ¬ d.Reaches id s.id := by
  intro id hid hne hopen hpath
  rcases h.follows id hid hopen with hrest | ⟨origin, hbefore, hpast, horiginopen, hreach⟩
  · exact hclear id (h.remaining id hrest) hne hopen hpath
  · have hother : origin ≠ s.id := fun he => hpast (he ▸ List.mem_cons_self ..)
    exact hclear origin hbefore hother horiginopen (hreach.trans hpath)

/-- A turn keeps joins sealed and keeps to paths from the states occupied before the step. -/
theorem tracked_turned (hv : d.validate.hasErrors = false) {moved : Bool} {after : Machine}
    (hs : d.state? s.id = some s) (hrunning : m.isRunning = true)
    (hturned : Turned host d occupied s m moved after)
    (h : Tracked d occupied (s.id :: rest) m.run) : Tracked d occupied rest after.run := by
  have hmidway := midway_turned hv hs hrunning hturned h.toMidway
  have hnotin := (List.nodup_cons.mp h.rest_distinct).1
  have horigin : s.id ∈ occupied := h.remaining s.id (List.mem_cons_self ..)
  have hremaining : ∀ id ∈ rest, id ∈ occupied :=
    fun id hid => h.remaining id (List.mem_cons_of_mem _ hid)
  -- whatever stays occupied follows from where it was, or from the state whose turn it is
  have hfollows : ∀ id ∈ m.run.current, isTerminal d id = false →
      id ∈ rest ∨ Follows d occupied rest id := by
    intro id hid hopen
    rcases h.follows id hid hopen with hrest | hpast
    · rcases List.mem_cons.mp hrest with rfl | hrest
      · exact Or.inr ⟨s.id, horigin, hnotin, hopen, Definition.Reaches.refl d s.id⟩
      · exact Or.inl hrest
    · exact Or.inr (follows_past hpast)
  refine ⟨hmidway, ?_, h.known, hremaining, ?_⟩
  · cases hturned with
    | stays => exact h.shut
    | fires hwaits hready =>
      intro join hjoin hkind hfree id hid hne hopen hpath
      rw [enter_current] at hjoin hid
      rw [enter_pending] at hfree
      by_cases hfired : join = s.id
      · subst hfired
        have hclear := clear_of_follows h ((joinReady_iff h.known).mp hready)
        exact hclear id hid hne hopen hpath
      · have hwasfree : Keyed.has join m.run.pending = false :=
          (Keyed.has_erase_ne hfired m.run.pending).symm.trans hfree
        exact h.shut join hjoin hkind hwasfree id hid hne hopen hpath
    | fails hkind hwaits hasked =>
      have hask := sealed_alike hasked.toAlike h.shut
      exact hask
    | goes hkind hwaits hasked htargets hleads =>
      have hask := tracked_alike hasked.toAlike h
      refine sealed_goes hask.shut ?_ (hask.rest_occupied s.id (List.mem_cons_self ..))
        (isTerminal_of_kind_ne hs hkind) hask.distinct hleads
      exact hasked.isRunning_eq.trans hrunning
  · intro id hid hopen
    rcases current_turned hs hrunning hturned hid with hold | ⟨hsopen, hlead⟩
    · exact hfollows id hold hopen
    · exact Or.inr ⟨s.id, horigin, hnotin, hsopen, Definition.Reaches.of_leads hlead⟩

/-- Whatever leaving a state keeps, and arriving at its targets where the joins among them wait, the
whole turn keeps, since a join that is reached from an occupied state is sealed only while it waits.
-/
theorem goes_keeps {targets : List State} {P : Machine → Prop} (hcoherent : Coherent d m.run)
    (hshut : Sealed d m.run) (hrunning : m.isRunning = true) (hs : d.state? s.id = some s)
    (hself : s.id ∈ m.run.current) (hkind : s.kind ≠ .terminal) (hidle : m.awaits s = false)
    (hleads : ∀ t ∈ targets, d.state? t.id = some t ∧ d.Leads s.id t.id)
    (harrive : ∀ t before, d.state? t.id = some t → Coherent d before.run →
      (t.kind = .join → t.id ∈ before.run.current → Keyed.has t.id before.run.pending = true) →
      P before → P (before.arriveAt host s.id t))
    (hleft : P (m.leave host s)) : P (arriveAll host s.id targets (m.leave host s)) := by
  have hgoing : (m.leave host s).isRunning = true := (leave_isRunning ..).trans hrunning
  have hbegin : Coherent d (m.leave host s).run :=
    coherent_leave hcoherent ((isRunning_iff m).mp hrunning) hs hidle
  suffices hall : Coherent d (arriveAll host s.id targets (m.leave host s)).run ∧
      Spread d s.id (m.leave host s).run (arriveAll host s.id targets (m.leave host s)).run ∧
      P (arriveAll host s.id targets (m.leave host s)) from hall.2.2
  refine arriveAll_keeps (P := fun after => Coherent d after.run ∧
    Spread d s.id (m.leave host s).run after.run ∧ P after) ?_ hgoing
    ⟨hbegin, ⟨fun _ hcurrent _ hfree => ⟨hcurrent, hfree⟩, fun _ hmem => Or.inl hmem⟩, hleft⟩
  intro t ht before hbefore hparts
  obtain ⟨hcoherent', hspread, hP⟩ := hparts
  obtain ⟨hdeclared, hlead⟩ := hleads t ht
  refine ⟨coherent_arriveAt hcoherent' ((isRunning_iff before).mp hbefore) hdeclared hlead,
    spread_arriveAt hdeclared hlead hspread, harrive t before hdeclared hcoherent' ?_ hP⟩
  intro hjoin hcurrent
  by_contra hfree
  obtain ⟨hmem, hwasfree⟩ :=
    hspread.free t.id hcurrent ⟨t, hdeclared, hjoin⟩ (Bool.eq_false_iff.mpr hfree)
  rw [leave_current, hcoherent.distinct.mem_erase_iff] at hmem
  rw [leave_pending] at hwasfree
  exact hshut t.id hmem.2 ⟨t, hdeclared, hjoin⟩ hwasfree s.id hself hmem.1.symm
    (isTerminal_of_kind_ne hs hkind) (Definition.Reaches.of_leads hlead)

/-- A turn leaves every other state occupied, and waiting or not waiting as it was. -/
theorem others_turned {moved : Bool} {after : Machine} (hs : d.state? s.id = some s)
    (hrunning : m.isRunning = true) (hturned : Turned host d occupied s m moved after)
    (h : Tracked d occupied (s.id :: rest) m.run) {id : String} (hid : id ∈ m.run.current)
    (hne : id ≠ s.id) :
    id ∈ after.run.current ∧ Keyed.has id after.run.pending = Keyed.has id m.run.pending := by
  cases hturned with
  | stays => exact ⟨hid, rfl⟩
  | fires =>
    rw [enter_current, enter_pending]
    exact ⟨hid, Keyed.has_erase_ne hne m.run.pending⟩
  | fails hkind hwaits hasked =>
    rw [fail_run, hasked.pending_eq, hasked.current_eq]
    exact ⟨hid, rfl⟩
  | goes hkind hwaits hasked htargets hleads =>
    have hask := tracked_alike hasked.toAlike h
    have hgoing := hasked.isRunning_eq.trans hrunning
    have hidle := (hasked.awaits_eq s).trans hwaits
    refine goes_keeps (P := fun after => id ∈ after.run.current ∧
        Keyed.has id after.run.pending = Keyed.has id m.run.pending)
      hask.toCoherent hask.shut hgoing hs (hask.rest_occupied s.id (List.mem_cons_self ..)) hkind
      hidle hleads ?_ ?_
    · intro t before _ _ hwaiting hbefore
      obtain ⟨hcurrent, hsame⟩ := hbefore
      refine ⟨?_, ?_⟩
      · rw [arriveAt_current, mem_current_occupy]
        exact Or.inl hcurrent
      · rw [has_pending_arriveAt]
        by_cases harrived : t.kind = .join ∧ id = t.id
        · obtain ⟨hjoin, rfl⟩ := harrived
          rw [← hsame, hwaiting hjoin hcurrent, Bool.or_true]
        · simp [harrived, hsame]
    · rw [leave_current, leave_pending, hasked.current_eq, hasked.pending_eq]
      exact ⟨(List.mem_erase_of_ne hne).mpr hid, rfl⟩

theorem tracked_of_atRest (hrunning : m.isRunning = true) (h : AtRest d m.run)
    (hshut : Sealed d m.run) : Tracked d m.run.current m.run.current m.run :=
  ⟨midway_of_atRest hrunning h, hshut, h.declared, fun _ hid => hid, fun _ hid _ => Or.inl hid⟩

theorem sealed_of_eq {r r' : Run} (hcurrent : r'.current = r.current)
    (hpending : r'.pending = r.pending) (h : Sealed d r) : Sealed d r' := by
  unfold Sealed
  rw [hcurrent, hpending]
  exact h

theorem sealed_conclude {moved : Bool} (hsound : d.Sound)
    (h : Tracked d occupied rest m.run) : Sealed d ((m.conclude d moved).touch host).run := by
  unfold conclude
  split
  · exact sealed_of_eq rfl rfl h.shut
  · split
    · rename_i hdone
      intro join hjoin hkind
      have hend : isTerminal d endId = true := by
        rw [Bool.and_eq_true, List.all_eq_true] at hdone
        exact isTerminal_endId hsound h.nonempty hdone.2
      obtain rfl : join = endId := List.mem_singleton.mp hjoin
      rw [isTerminal_of_isJoin hkind] at hend
      cases hend
    · split
      · exact sealed_of_eq rfl rfl h.shut
      · exact sealed_of_eq rfl rfl h.shut

theorem kept_sealed (hsound : d.Sound) :
    Kept host d fun m => AtRest d m.run ∧ Sealed d m.run where
  unmoved := fun _ _ ha h => ⟨atRest_alike ha.toAlike h.1, sealed_alike ha.toAlike h.2⟩
  restated := by
    intro kind m after ha hparts
    obtain ⟨hrest, hshut⟩ := hparts
    exact ⟨atRest_restated ha hrest, sealed_of_eq (by rw [ha.run]) (by rw [ha.run]) hshut⟩
  advanced := by
    intro m hm
    refine leftBy_advance_keeps (P := fun occupied rest m => Tracked d occupied rest m.run)
      (Q := fun m => AtRest d m.run ∧ Sealed d m.run) hsound.valid
      (fun _ hrunning h => tracked_of_atRest hrunning h.1 h.2)
      (fun _ _ _ h id hid => h.declared id (h.rest_occupied id hid))
      (fun _ _ _ _ ha => tracked_alike ha.toAlike)
      (fun _ _ _ _ _ _ hs hrunning hturned => tracked_turned hsound.valid hs hrunning hturned)
      (fun _ _ _ _ _ h => ⟨atRest_conclude hsound h.toMidway, sealed_conclude hsound h⟩)
      (fun _ _ _ hopen h => ⟨atRest_broken hopen h.toMidway, h.shut⟩)
      (fun _ _ ha h => ⟨atRest_alike ha.toAlike h.1, sealed_alike ha.toAlike h.2⟩) hm

theorem sealed_fresh {initial : State} (hinitial : d.initial? = some initial) {id : String}
    {bindings : Fields} {time : Timestamp} :
    Sealed d (fresh id d.name initial.id bindings time) := by
  intro join hjoin hkind
  obtain ⟨hmem, hkindInitial⟩ := Definition.mem_of_initial? hinitial
  obtain rfl : join = initial.id := List.mem_singleton.mp hjoin
  have hjoinkind := hkind.kind_eq (Definition.state?_of_mem hmem)
  rw [hkindInitial] at hjoinkind
  cases hjoinkind

theorem sealed_after (hsound : d.Sound) {bindings : Fields} {id : String}
    {reads judged invoked : Nat}
    (hstart : start host d bindings id reads judged invoked = .ok m) (calls : List Call) :
    Sealed d (m.after host d calls).run := by
  refine ((kept_sealed hsound).reached ?_ hstart calls).2
  intro before initial hinitial hrun _
  rw [hrun]
  exact ⟨atRest_fresh hinitial, sealed_fresh hinitial⟩

end Machine

end Runbook.Workflow
