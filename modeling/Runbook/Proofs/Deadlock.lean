import Runbook.Proofs.Orderly

/-!
Joins that wait on each other. A step ends in a deadlock exactly when every occupied state that is
not terminal is a waiting join which another such state can still reach. Two of these joins then
reach each other, so no run deadlocks where no two joins do. A definition without fault may have
such joins: a region nested in another one that lies inside a loop.
-/
namespace Runbook.Workflow

namespace Run

def Deadlocked (r : Run) : Prop := ∃ f, r.failure = some f ∧ f.kind = "Deadlock"

instance (r : Run) : Decidable r.Deadlocked :=
  decidable_of_iff (r.failure.any fun f => f.kind == "Deadlock") (by
    rw [Option.any_eq_true]
    simp only [beq_iff_eq]
    rfl)

/-- Whatever is not terminal waits at a join that something else can still reach. -/
def Knotted (d : Definition) (r : Run) : Prop :=
  ∀ join ∈ r.current, Machine.isTerminal d join = false →
    d.IsJoin join ∧ Keyed.has join r.pending = true ∧
      ∃ id ∈ r.current, id ≠ join ∧ Machine.isTerminal d id = false ∧ d.Reaches id join

/-- Among the occupied states that are not terminal, one reaches whichever of them reach it. -/
theorem exists_first_open {d : Definition} {r : Run}
    (hopen : ∃ id ∈ r.current, Machine.isTerminal d id = false) :
    ∃ a ∈ r.current, Machine.isTerminal d a = false ∧
      ∀ b ∈ r.current, Machine.isTerminal d b = false → d.Reaches b a → d.Reaches a b := by
  let waiting := r.current.filter fun id => !Machine.isTerminal d id
  have hwaiting : ∀ id, id ∈ waiting ↔ id ∈ r.current ∧ Machine.isTerminal d id = false := by
    intro id
    simp [waiting]
  have hne : waiting ≠ [] := by
    obtain ⟨id, hid⟩ := hopen
    exact List.ne_nil_of_mem ((hwaiting id).mpr hid)
  obtain ⟨a, ha, hfirst⟩ := Definition.exists_first_among (d := d) hne
  obtain ⟨hacurrent, haopen⟩ := (hwaiting a).mp ha
  exact ⟨a, hacurrent, haopen, fun b hb hbopen => hfirst b ((hwaiting b).mpr ⟨hb, hbopen⟩)⟩

/-- A knot ties two joins that reach each other. -/
theorem Knotted.exists_mutual {d : Definition} {r : Run} (h : Knotted d r)
    (hopen : ∃ id ∈ r.current, Machine.isTerminal d id = false) :
    ∃ a b, d.IsJoin a ∧ d.IsJoin b ∧ a ≠ b ∧ d.Reaches a b ∧ d.Reaches b a := by
  obtain ⟨a, hacurrent, haopen, hfirst⟩ := exists_first_open hopen
  obtain ⟨hajoin, -, b, hbcurrent, hne, hbopen, hba⟩ := h a hacurrent haopen
  have hbjoin : d.IsJoin b := (h b hbcurrent hbopen).1
  exact ⟨a, b, hajoin, hbjoin, hne.symm, hfirst b hbcurrent hbopen hba, hba⟩

end Run

namespace Machine

open Run

variable {host : Host} {d : Definition} {m : Machine} {s : State} {occupied : List String}

theorem moveAll_of_stays {ids : List String} {moved : Bool} (hrunning : m.isRunning = true)
    (h : ∀ id ∈ ids, ∃ s, d.state? id = some s ∧ Stays d occupied m s) :
    moveAll host d occupied ids moved m = .ok (moved, m) := by
  induction ids with
  | nil => rfl
  | cons id rest ih =>
    obtain ⟨s, hs, hstays⟩ := h id (List.mem_cons_self ..)
    have hrest := ih fun other hother => h other (List.mem_cons_of_mem _ hother)
    simp only [moveAll, hrunning, hs, move_of_stays hstays, bind, Except.bind, Bool.not_true,
      Bool.false_eq_true, if_false, Bool.or_false]
    exact hrest

/-- Once a state has moved, the flag stays up. -/
theorem moved_of_moveAll {ids : List String} {moved : Bool} {after : Machine}
    (h : moveAll host d occupied ids true m = .ok (moved, after)) : moved = true := by
  induction ids generalizing m with
  | nil =>
    cases h
    rfl
  | cons id rest ih =>
    unfold moveAll at h
    split at h
    · cases h
      rfl
    · split at h
      · cases h
        rfl
      · rw [bind_eq_ok_iff] at h
        obtain ⟨⟨here, next⟩, -, hrest⟩ := h
        exact ih hrest

/-- Where nothing has moved and the run goes on, every state has stayed. -/
theorem stays_of_moveAll (hv : d.validate.hasErrors = false) {ids : List String}
    {after : Machine} (hdeclared : ∀ id ∈ ids, ∃ s, d.state? id = some s)
    (h : moveAll host d occupied ids false m = .ok (false, after))
    (hrunning : after.isRunning = true) :
    ∀ id ∈ ids, ∃ s, d.state? id = some s ∧ Stays d occupied m s := by
  induction ids generalizing m with
  | nil =>
    intro id hid
    cases hid
  | cons id rest ih =>
    unfold moveAll at h
    split at h
    · rename_i hstopped
      cases h
      simp [hrunning] at hstopped
    obtain ⟨s, hs⟩ := hdeclared id (List.mem_cons_self ..)
    obtain rfl : s.id = id := (Definition.mem_of_state? hs).2
    simp only [hs] at h
    rcases move_cases host occupied m (Definition.linked_of_valid hv) hs with
      ⟨here, next, he, hturned⟩ | ⟨why, asked, he, -⟩
    · simp only [he, bind, Except.bind, Bool.false_or] at h
      cases hturned with
      | stays hstays =>
        have hrest := ih (fun other hother => hdeclared other (List.mem_cons_of_mem _ hother)) h
        intro other hother
        rcases List.mem_cons.mp hother with rfl | hother
        · exact ⟨s, hs, hstays⟩
        · exact hrest other hother
      | fires => exact absurd (moved_of_moveAll h) Bool.false_ne_true
      | goes => exact absurd (moved_of_moveAll h) Bool.false_ne_true
      | fails =>
        -- after a failure no further state has its turn
        have hfinal : after.isRunning = false := by
          cases rest with
          | nil =>
            cases h
            rfl
          | cons =>
            simp only [moveAll, not_isRunning_fail, Bool.not_false, if_true] at h
            cases h
            rfl
        rw [hfinal] at hrunning
        cases hrunning
    · simp [he, bind, Except.bind] at h

/-- For a run that goes on, to be knotted is that every occupied state stays at its turn. -/
theorem knotted_iff (h : Coherent d m.run) :
    Knotted d m.run ↔
      ∀ id ∈ m.run.current, ∃ s, d.state? id = some s ∧ Stays d m.run.current m s := by
  have hready : ∀ join, joinReady d join m.run.current = false ↔
      ∃ id ∈ m.run.current, id ≠ join ∧ isTerminal d id = false ∧ d.Reaches id join := by
    intro join
    rw [Bool.eq_false_iff, Ne, joinReady_iff h.declared]
    push Not
    rfl
  refine forall₂_congr fun id hid => ?_
  obtain ⟨s, hs⟩ := h.declared id hid
  obtain rfl : s.id = id := (Definition.mem_of_state? hs).2
  unfold Stays
  rw [isTerminal_eq hs]
  constructor
  · intro hwaits
    refine ⟨s, hs, ?_⟩
    by_cases hterminal : s.kind = .terminal
    · exact Or.inl hterminal
    · obtain ⟨hjoin, hhas, hother⟩ := hwaits (by simpa using hterminal)
      exact Or.inr ⟨awaits_iff.mpr ⟨hjoin.kind_eq hs, hhas⟩, (hready s.id).mpr hother⟩
  · intro hparts hopen
    obtain ⟨t, ht, hstays⟩ := hparts
    obtain rfl : s = t := Option.some.inj (hs.symm.trans ht)
    rcases hstays with hterminal | ⟨hwaits, hblocked⟩
    · simp [hterminal] at hopen
    · obtain ⟨hkind, hhas⟩ := awaits_iff.mp hwaits
      exact ⟨⟨s, hs, hkind⟩, hhas, (hready s.id).mp hblocked⟩

section Failures

variable {after : Machine}

theorem not_deadlocked_of_failure_eq {r r' : Run} (he : r'.failure = r.failure)
    (h : ¬ Deadlocked r) : ¬ Deadlocked r' := by
  unfold Deadlocked
  rw [he]
  exact h

/-- No turn ends in a deadlock. -/
theorem not_deadlocked_turned {moved : Bool} (hrunning : m.isRunning = true)
    (hturned : Turned host d occupied s m moved after) (h : ¬ Deadlocked m.run) :
    ¬ Deadlocked after.run := by
  rcases failure_turned hrunning hturned with he | ⟨f, hf, hmet⟩
  · exact not_deadlocked_of_failure_eq he h
  · intro hparts
    obtain ⟨g, hg, hdeadlock⟩ := hparts
    obtain rfl : f = g := Option.some.inj (hf.symm.trans hg)
    exact hmet.kind_ne.1 hdeadlock

end Failures

theorem deadlocked_conclude_iff {moved : Bool} (hfree : ¬ Deadlocked m.run) :
    Deadlocked ((m.conclude d moved).touch host).run ↔
      m.isRunning = true ∧ moved = false ∧
        ¬ (m.run.current ≠ [] ∧ ∀ id ∈ m.run.current, isTerminal d id = true) := by
  unfold conclude
  by_cases hrunning : m.isRunning = true
  · simp only [hrunning, Bool.not_true, Bool.false_eq_true, if_false, true_and]
    by_cases hdone : (!m.run.current.isEmpty && m.run.current.all (isTerminal d)) = true
    · rw [if_pos hdone]
      refine iff_of_false hfree ?_
      intro hparts
      obtain ⟨-, hnot⟩ := hparts
      exact hnot (by simpa using hdone)
    · rw [if_neg hdone]
      have hnot : ¬ (m.run.current ≠ [] ∧ ∀ id ∈ m.run.current, isTerminal d id = true) := by
        simpa using hdone
      cases moved with
      | true => exact iff_of_false hfree nofun
      | false => exact iff_of_true ⟨_, rfl, rfl⟩ ⟨rfl, hnot⟩
  · simp only [hrunning, Bool.not_false, if_true, false_and, iff_false, Bool.false_eq_true]
    exact hfree

/-- A step of a run that goes on ends in a deadlock exactly when the run is knotted. -/
theorem deadlocked_advance_iff (hv : d.validate.hasErrors = false) (h : AtRest d m.run)
    (hrunning : m.isRunning = true) :
    Deadlocked (m.leftBy (m.advance host d)).run ↔ Knotted d m.run := by
  have hfree : ¬ Deadlocked m.run := by
    intro hparts
    obtain ⟨f, hf, -⟩ := hparts
    rw [failure_eq_none_of_isRunning h hrunning] at hf
    cases hf
  have hopen : ¬ (m.run.current ≠ [] ∧ ∀ id ∈ m.run.current, isTerminal d id = true) := by
    intro hparts
    obtain ⟨id, hid, hnot⟩ := exists_open_of_isRunning h hrunning
    rw [hparts.2 id hid] at hnot
    cases hnot
  unfold advance
  rw [if_neg (not_not.mpr h.workflow)]
  simp only [hrunning, Bool.not_true, Bool.false_eq_true, if_false]
  rw [knotted_iff h.toCoherent]
  constructor
  · intro hdead
    have hturns := moveAll_keeps host m.run.current hv
      (P := fun ids after => (∀ id ∈ ids, ∃ s, d.state? id = some s) ∧ ¬ Deadlocked after.run)
      (fun _ _ hids => hids.1)
      (fun _ _ _ ha hids => ⟨hids.1, not_deadlocked_of_failure_eq ha.failure_eq hids.2⟩)
      (fun _ _ _ _ _ _ hgoing hturned hids =>
        ⟨fun id hid => hids.1 id (List.mem_cons_of_mem _ hid),
          not_deadlocked_turned hgoing hturned hids.2⟩)
      false ⟨h.declared, hfree⟩
    rcases hturns with
      ⟨moved, after, rest, he, ⟨-, hafter⟩, -⟩ | ⟨why, after, rest, he, -, ⟨-, hafter⟩, -⟩
    · rw [he] at hdead
      obtain ⟨hgoing, rfl, -⟩ := (deadlocked_conclude_iff hafter).mp hdead
      exact stays_of_moveAll hv h.declared he hgoing
    · rw [he] at hdead
      exact absurd hdead hafter
  · intro hstays
    rw [moveAll_of_stays hrunning hstays]
    exact (deadlocked_conclude_iff hfree).mpr ⟨hrunning, rfl, hopen⟩

theorem not_deadlocked_of_restated {kind : EventKind} {after : Machine}
    (ha : Restated kind m after) (h : AtRest d m.run) : ¬ Deadlocked after.run := by
  have hopen := ha.requested.unfinished
  have hfailure : after.run.failure = m.run.failure := by rw [ha.run]
  intro hparts
  obtain ⟨f, hf, -⟩ := hparts
  have hfailed : m.run.status = .failed := h.failed.mp (by rw [← hfailure, hf]; rfl)
  simp [hfailed, Status.isFinished] at hopen

theorem kept_mutual_of_deadlocked (host : Host) (hsound : d.Sound) :
    Kept host d fun m => AtRest d m.run ∧ (Deadlocked m.run →
      ∃ a b, d.IsJoin a ∧ d.IsJoin b ∧ a ≠ b ∧ d.Reaches a b ∧ d.Reaches b a) where
  unmoved := by
    intro m after ha hparts
    obtain ⟨hrest, hdead⟩ := hparts
    refine ⟨atRest_alike ha.toAlike hrest, ?_⟩
    unfold Deadlocked
    rw [ha.failure_eq]
    exact hdead
  restated := by
    intro kind m after ha hparts
    obtain ⟨hrest, -⟩ := hparts
    exact ⟨atRest_restated ha hrest, fun h => absurd h (not_deadlocked_of_restated ha hrest)⟩
  advanced := by
    intro m hparts
    obtain ⟨hrest, hdead⟩ := hparts
    refine ⟨(kept_atRest hsound).advanced m hrest, ?_⟩
    intro hafter
    by_cases hrunning : m.isRunning = true
    · have hknotted := (deadlocked_advance_iff hsound.valid hrest hrunning).mp hafter
      exact hknotted.exists_mutual (exists_open_of_isRunning hrest hrunning)
    · unfold advance at hafter
      simp only [hrest.workflow, ne_eq, not_true_eq_false, if_false, hrunning, Bool.not_false,
        if_true] at hafter
      exact hdead hafter

/-- Whatever is asked of a run of a valid definition, and whatever guards and actions answer, its
next step ends in a deadlock exactly when it is knotted, and it never does where no two joins reach
each other. -/
theorem deadlocked_iff_knotted {text : String} {name : Option String} {d : Definition}
    (hparse : Definition.parse text name = .ok d) (hv : d.validate.hasErrors = false)
    {host : Host} {bindings : Fields} {id : String} {reads judged invoked : Nat} {m : Machine}
    (hstart : start host d bindings id reads judged invoked = .ok m) (calls : List Call) :
    ((m.after host d calls).isRunning = true →
      (Deadlocked (m.after host d (calls ++ [.advance])).run ↔
        Knotted d (m.after host d calls).run)) ∧
    ((∀ a b, d.IsJoin a → d.IsJoin b → a ≠ b → d.Reaches a b → ¬ d.Reaches b a) →
      ¬ Deadlocked (m.after host d calls).run) := by
  have hsound : d.Sound := Definition.sound_of_parse hparse hv
  constructor
  · intro hrunning
    rw [after_append]
    exact deadlocked_advance_iff hv (atRest_after hsound hstart calls) hrunning
  · intro hapart hdead
    have hkept := (kept_mutual_of_deadlocked host hsound).reached (m := m)
      (fun before initial hinitial hrun _ => by
        rw [hrun]
        refine ⟨atRest_fresh hinitial, ?_⟩
        intro hparts
        obtain ⟨f, hf, -⟩ := hparts
        cases hf) hstart calls
    obtain ⟨a, b, ha, hb, hne, hab, hba⟩ := hkept.2 hdead
    exact hapart a b ha hb hne hab hba

/-- A region that lies in a branch of another one, both of them inside a loop. -/
def nestedInLoop : List String :=
  ["name: nest", "", "state F1 <<fork>>", "state F2 <<fork>>", "state J1 <<join>>",
    "state J2 <<join>>", "[*] --> F1", "F1 --> F2", "F1 --> X", "F2 --> A", "F2 --> B",
    "A --> J2", "B --> J2", "J2 --> J1", "X --> J1", "J1 --> D", "D --> [*] : {done}", "D --> F1"]

theorem exists_deadlocked_of_nestedInLoop :
    ∃ d m, Definition.parse (Text.unlines nestedInLoop) none = .ok d ∧
      d.validate.hasErrors = false ∧ start quietHost d [] "run-1" 0 0 0 = .ok m ∧
      Deadlocked (m.after quietHost d [.advance, .advance, .advance, .advance]).run := by
  obtain ⟨d, m, hparse, hv, hstart, htest⟩ := exists_started nestedInLoop []
    (fun d m =>
      decide (Deadlocked (m.after quietHost d [.advance, .advance, .advance, .advance]).run))
    (by decide) (by decide +kernel)
  exact ⟨d, m, hparse, hv, hstart, of_decide_eq_true htest⟩

/-- The inner join waits for whatever may come round the loop, and the outer one for the inner. -/
theorem knotted_of_nestedInLoop :
    ∃ d m, Definition.parse (Text.unlines nestedInLoop) none = .ok d ∧
      d.validate.hasErrors = false ∧ start quietHost d [] "run-1" 0 0 0 = .ok m ∧
      (m.after quietHost d [.advance, .advance, .advance]).isRunning = true ∧
      Knotted d (m.after quietHost d [.advance, .advance, .advance]).run := by
  obtain ⟨d, m, hparse, hv, hstart, htest⟩ := exists_started nestedInLoop []
    (fun d m => decide
      ((m.after quietHost d [.advance, .advance, .advance]).isRunning = true ∧
        Deadlocked (m.after quietHost d [.advance, .advance, .advance, .advance]).run))
    (by decide) (by decide +kernel)
  obtain ⟨hrunning, hdead⟩ := of_decide_eq_true htest
  exact ⟨d, m, hparse, hv, hstart, hrunning,
    ((deadlocked_iff_knotted hparse hv hstart _).1 hrunning).mp hdead⟩

end Machine

end Runbook.Workflow
