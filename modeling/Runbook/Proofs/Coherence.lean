import Runbook.Proofs.Calls
import Runbook.Proofs.Pseudostates

/-!
Runs stay in order. Between any two turns of a step the occupied states are declared and distinct,
whoever waits at a join has arrived there along a transition, and a failure goes with the failed
status. At the end of a step it also holds that a run is completed exactly when only terminal
states are occupied. Every call upon a run keeps all of it.
-/
namespace Runbook.Workflow

/-- An identifier names a declared join. -/
def Definition.IsJoin (d : Definition) (id : String) : Prop :=
  ∃ s, d.state? id = some s ∧ s.kind = .join

theorem Definition.IsJoin.kind_eq {d : Definition} {s : State} (h : d.IsJoin s.id)
    (hs : d.state? s.id = some s) : s.kind = .join := by
  obtain ⟨t, ht, hkind⟩ := h
  obtain rfl : s = t := Option.some.inj (hs.symm.trans ht)
  exact hkind

namespace Run

/-- An entry of the waiting joins names an occupied join and arrivals that transitions lead from. -/
structure Awaits (d : Definition) (occupied : List String) (join : String)
    (arrived : List String) : Prop where
  occupied : join ∈ occupied
  isJoin : d.IsJoin join
  nonempty : arrived ≠ []
  leads : ∀ source ∈ arrived, d.Leads source join

/-- What holds of a run at any moment of a step. -/
structure Coherent (d : Definition) (r : Run) : Prop where
  workflow : r.workflow = d.name
  distinct : r.current.Nodup
  declared : ∀ id ∈ r.current, ∃ s, d.state? id = some s
  keys : (Keyed.keys r.pending).Nodup
  awaits : ∀ join arrived, (join, arrived) ∈ r.pending → Awaits d r.current join arrived
  failed : r.failure.isSome = true ↔ r.status = .failed
  unfinished : r.status = .failed → ∃ id ∈ r.current, Machine.isTerminal d id = false

/-- What holds of a run between two turns of a step, given the states that have not had theirs. -/
structure Midway (d : Definition) (rest : List String) (r : Run) : Prop extends Coherent d r where
  nonempty : r.current ≠ []
  going : r.status = .running ∨ r.status = .failed
  rest_occupied : ∀ id ∈ rest, id ∈ r.current
  rest_distinct : rest.Nodup

/-- What holds of a run between two calls. -/
structure AtRest (d : Definition) (r : Run) : Prop extends Coherent d r where
  nonempty : r.current ≠ []
  completed : r.status = .completed ↔ ∀ id ∈ r.current, Machine.isTerminal d id = true

theorem Coherent.has_pending {d : Definition} {r : Run} (h : Coherent d r) {join : String}
    (hjoin : Keyed.has join r.pending = true) : join ∈ r.current ∧ d.IsJoin join := by
  obtain ⟨arrived, hget⟩ := Option.isSome_iff_exists.mp hjoin
  have hawaits := h.awaits join arrived (Keyed.mem_of_get? hget)
  exact ⟨hawaits.occupied, hawaits.isJoin⟩

end Run

namespace Machine

open Run

variable {host : Host} {d : Definition} {m : Machine} {s : State}

theorem isTerminal_of_kind_ne (hs : d.state? s.id = some s) (hkind : s.kind ≠ .terminal) :
    isTerminal d s.id = false := by
  rw [isTerminal_eq hs]
  simpa using hkind

theorem isTerminal_of_isJoin {id : String} (h : d.IsJoin id) : isTerminal d id = false := by
  obtain ⟨t, ht, hkind⟩ := h
  obtain rfl : t.id = id := (Definition.mem_of_state? ht).2
  exact isTerminal_of_kind_ne ht (by rw [hkind]; nofun)

/-- A join is ready when no other occupied state that is not terminal can still reach it. -/
theorem joinReady_iff {join : String} {occupied : List String}
    (hdeclared : ∀ id ∈ occupied, ∃ s, d.state? id = some s) :
    joinReady d join occupied = true ↔
      ∀ id ∈ occupied, id ≠ join → isTerminal d id = false → ¬ d.Reaches id join := by
  unfold joinReady
  rw [List.all_eq_true]
  refine forall₂_congr fun id hid => ?_
  obtain ⟨s, hs⟩ := hdeclared id hid
  obtain rfl : s.id = id := (Definition.mem_of_state? hs).2
  rw [hs, isTerminal_eq hs, ← Definition.canReach_iff]
  by_cases hjoin : s.id = join
  · simp [hjoin]
  · by_cases hterminal : s.kind = .terminal <;> simp [hjoin, hterminal]

section Coherence

theorem coherent_alike {asked : Machine} (ha : Alike m asked) (h : Coherent d m.run) :
    Coherent d asked.run := by
  rw [ha.run]
  exact ⟨h.workflow, h.distinct, h.declared, h.keys, h.awaits, h.failed, h.unfinished⟩

theorem awaits_arriveAt {source : String} {t : State} (h : Coherent d m.run)
    (ht : d.state? t.id = some t) (hleads : d.Leads source t.id) {join : String}
    {arrived : List String} (he : (join, arrived) ∈ (m.arriveAt host source t).run.pending) :
    Awaits d (m.arriveAt host source t).run.current join arrived := by
  have hold : (join, arrived) ∈ m.run.pending →
      Awaits d (m.arriveAt host source t).run.current join arrived := by
    intro hmem
    have hbefore := h.awaits join arrived hmem
    refine ⟨?_, hbefore.isJoin, hbefore.nonempty, hbefore.leads⟩
    rw [arriveAt_current, mem_current_occupy]
    exact Or.inl hbefore.occupied
  rw [arriveAt_pending] at he
  split at he
  · rename_i hkind
    rcases Keyed.eq_or_mem_of_mem_set he with heq | hmem
    · obtain ⟨rfl, rfl⟩ := Prod.mk.inj heq
      refine ⟨?_, ⟨t, ht, hkind⟩, by simp, ?_⟩
      · rw [arriveAt_current, mem_current_occupy]
        exact Or.inr rfl
      · intro other hother
        rcases List.mem_append.mp hother with hother | hother
        · cases hget : Keyed.get? t.id m.run.pending with
          | none => simp [hget] at hother
          | some earlier =>
            rw [hget] at hother
            exact (h.awaits t.id earlier (Keyed.mem_of_get? hget)).leads other hother
        · rw [List.mem_singleton.mp hother]
          exact hleads
    · exact hold hmem
  · exact hold he

theorem coherent_arriveAt {source : String} {t : State} (h : Coherent d m.run)
    (hrunning : m.run.status = .running) (ht : d.state? t.id = some t)
    (hleads : d.Leads source t.id) : Coherent d (m.arriveAt host source t).run where
  workflow := (arriveAt_workflow ..).trans h.workflow
  distinct := by
    rw [arriveAt_current]
    exact nodup_occupy h.distinct
  declared := by
    intro id hid
    rw [arriveAt_current, mem_current_occupy] at hid
    rcases hid with hid | rfl
    · exact h.declared id hid
    · exact ⟨t, ht⟩
  keys := by
    rw [arriveAt_pending]
    split
    · exact Keyed.nodup_keys_set h.keys
    · exact h.keys
  awaits := fun join arrived he => awaits_arriveAt h ht hleads he
  failed := by
    rcases arriveAt_status host source m t with ⟨hs, hf⟩ | ⟨-, message, hs, hf⟩
    · rw [hs, hf]
      exact h.failed
    · rw [hs, hf]
      exact iff_of_true rfl rfl
  unfinished := by
    intro hfailed
    rcases arriveAt_status host source m t with ⟨hs, -⟩ | ⟨hkind, -⟩
    · rw [hs, hrunning] at hfailed
      cases hfailed
    · refine ⟨t.id, ?_, isTerminal_of_kind_ne ht hkind⟩
      rw [arriveAt_current, mem_current_occupy]
      exact Or.inr rfl

/-- A state that does not wait can be left without a waiting join losing its place. -/
theorem coherent_leave (h : Coherent d m.run) (hrunning : m.run.status = .running)
    (hs : d.state? s.id = some s) (hidle : m.awaits s = false) :
    Coherent d (m.leave host s).run where
  workflow := (leave_workflow ..).trans h.workflow
  distinct := by
    rw [leave_current]
    exact h.distinct.erase s.id
  declared := by
    intro id hid
    rw [leave_current] at hid
    exact h.declared id (List.mem_of_mem_erase hid)
  keys := by
    rw [leave_pending]
    exact h.keys
  awaits := by
    intro join arrived he
    rw [leave_pending] at he
    have hbefore := h.awaits join arrived he
    refine ⟨?_, hbefore.isJoin, hbefore.nonempty, hbefore.leads⟩
    have hne : join ≠ s.id := by
      intro heq
      obtain rfl := heq
      have hkind := hbefore.isJoin.kind_eq hs
      have hhas : Keyed.has s.id m.run.pending = true := by
        rw [Keyed.has_iff_mem_keys]
        exact List.mem_map_of_mem he
      rw [awaits_iff.mpr ⟨hkind, hhas⟩] at hidle
      cases hidle
    rw [leave_current]
    exact (List.mem_erase_of_ne hne).mpr hbefore.occupied
  failed := by
    rw [leave_status, leave_failure]
    exact h.failed
  unfinished := by
    intro hfailed
    rw [leave_status, hrunning] at hfailed
    cases hfailed

theorem coherent_fire_enter (h : Coherent d m.run) (hs : d.state? s.id = some s)
    (hwaits : m.awaits s = true) :
    Coherent d ((m.fire s.id).enter host s).run where
  workflow := (enter_workflow ..).trans h.workflow
  distinct := by
    rw [enter_current]
    exact h.distinct
  declared := by
    rw [enter_current]
    exact h.declared
  keys := by
    rw [enter_pending]
    exact Keyed.nodup_keys_erase h.keys
  awaits := by
    intro join arrived he
    rw [enter_pending] at he
    have hbefore := h.awaits join arrived ((Keyed.sublist_erase s.id m.run.pending).subset he)
    refine ⟨?_, hbefore.isJoin, hbefore.nonempty, hbefore.leads⟩
    rw [enter_current]
    exact hbefore.occupied
  failed := by
    rcases enter_status host (m.fire s.id) s with ⟨hs, hf⟩ | ⟨message, hs, hf⟩
    · rw [hs, hf]
      exact h.failed
    · rw [hs, hf]
      exact iff_of_true rfl rfl
  unfinished := by
    intro _
    refine ⟨s.id, ?_, isTerminal_of_kind_ne hs (kind_ne_terminal_of_awaits hwaits)⟩
    rw [enter_current]
    exact (h.has_pending (awaits_iff.mp hwaits).2).1

theorem coherent_fail (h : Coherent d m.run) (f : Failure)
    (hopen : ∃ id ∈ m.run.current, isTerminal d id = false) : Coherent d (m.fail f).run :=
  ⟨h.workflow, h.distinct, h.declared, h.keys, h.awaits, iff_of_true rfl rfl, fun _ => hopen⟩

end Coherence

theorem mem_current_arriveAll {source id : String} {targets : List State}
    (h : id ∈ m.run.current) : id ∈ (arriveAll host source targets m).run.current := by
  induction targets generalizing m with
  | nil => exact h
  | cons t rest ih =>
    have hnext : id ∈ (m.arriveAt host source t).run.current := by
      rw [arriveAt_current, mem_current_occupy]
      exact Or.inl h
    simp only [arriveAll]
    split
    · exact ih hnext
    · exact hnext

theorem head_mem_current_arriveAll {source : String} {t : State} {rest : List State} :
    t.id ∈ (arriveAll host source (t :: rest) m).run.current := by
  have hnext : t.id ∈ (m.arriveAt host source t).run.current := by
    rw [arriveAt_current, mem_current_occupy]
    exact Or.inr rfl
  simp only [arriveAll]
  split
  · exact mem_current_arriveAll hnext
  · exact hnext

theorem arriveAll_current_ne_nil {source : String} {targets : List State} (hne : targets ≠ []) :
    (arriveAll host source targets m).run.current ≠ [] := by
  cases targets with
  | nil => exact absurd rfl hne
  | cons t rest => exact List.ne_nil_of_mem head_mem_current_arriveAll

end Machine

end Runbook.Workflow
