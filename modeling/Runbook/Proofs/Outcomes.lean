import Mathlib.Data.List.Forall2
import Runbook.Log.Recorded
import Runbook.Proofs.Success

/-!
What work comes to that is done on many items, one after another. It goes well if the work on each
item does, and otherwise fails as the first work that fails. Where the records that were written
before make no difference to a single work, they make none to all of it.
-/
namespace Runbook

variable {ε δ α β : Type}

theorem exists_of_mem_of_forall₂ {R : α → β → Prop} {as : List α} {bs : List β}
    (h : List.Forall₂ R as bs) {b : β} (hb : b ∈ bs) : ∃ a ∈ as, R a b := by
  induction h with
  | nil => cases hb
  | @cons a b' as bs hab _ ih =>
    rcases List.mem_cons.mp hb with rfl | hb
    · exact ⟨a, List.mem_cons_self .., hab⟩
    · obtain ⟨a', ha', hR⟩ := ih hb
      exact ⟨a', List.mem_cons_of_mem _ ha', hR⟩

/-- A map over some items succeeds if it does so over each. -/
theorem mapM_eq_ok_iff {f : α → Except ε β} {items : List α} {results : List β} :
    items.mapM f = .ok results ↔ List.Forall₂ (fun a b => f a = .ok b) items results := by
  induction items generalizing results with
  | nil =>
    constructor
    · intro h
      cases h
      exact .nil
    · intro h
      cases h
      rfl
  | cons a rest ih =>
    rw [List.mapM_cons, bind_eq_ok_iff]
    constructor
    · rintro ⟨b, hfirst, h⟩
      obtain ⟨others, hrest, h⟩ := bind_eq_ok_iff.mp h
      cases h
      exact .cons hfirst (ih.mp hrest)
    · intro h
      cases h with
      | cons hfirst hrest => exact ⟨_, hfirst, bind_eq_ok_iff.mpr ⟨_, ih.mpr hrest, rfl⟩⟩

/-- A map over some items fails as it does over the first item over which it fails. -/
theorem mapM_eq_error_iff {f : α → Except ε β} {items : List α} {e : ε} :
    items.mapM f = .error e ↔ ∃ before a after, items = before ++ a :: after ∧
      (∀ b ∈ before, ∃ result, f b = .ok result) ∧ f a = .error e := by
  induction items with
  | nil =>
    refine iff_of_false nofun ?_
    rintro ⟨before, a, after, h, -⟩
    exact List.append_ne_nil_of_right_ne_nil before (List.cons_ne_nil a after) h.symm
  | cons a rest ih =>
    rw [List.mapM_cons, bind_eq_error_iff]
    constructor
    · rintro (hfirst | ⟨b, hfirst, h⟩)
      · exact ⟨[], a, rest, rfl, nofun, hfirst⟩
      · rcases bind_eq_error_iff.mp h with hrest | ⟨others, -, h⟩
        · obtain ⟨before, c, after, rfl, hbefore, hc⟩ := ih.mp hrest
          exact ⟨a :: before, c, after, rfl, List.forall_mem_cons.mpr ⟨⟨b, hfirst⟩, hbefore⟩, hc⟩
        · cases h
    · rintro ⟨before, c, after, heq, hbefore, hc⟩
      cases before with
      | nil =>
        obtain ⟨rfl, -⟩ := List.cons.inj heq
        exact Or.inl hc
      | cons b before =>
        obtain ⟨rfl, rfl⟩ := List.cons.inj heq
        obtain ⟨⟨result, hfirst⟩, hbefore⟩ := List.forall_mem_cons.mp hbefore
        have hrest := ih.mpr ⟨before, c, after, rfl, hbefore, hc⟩
        exact Or.inr ⟨result, hfirst, bind_eq_error_iff.mpr (Or.inl hrest)⟩

section Stateful

variable {σ : Type} {x : ExceptT ε (StateM σ) α}

/-- What a computation comes to, whatever state it starts in. -/
def Gives (x : ExceptT ε (StateM σ) α) (result : Except ε α) : Prop := ∀ s, (x.run.run s).1 = result

theorem Gives.exists_run {result : Except ε α} (h : Gives x result) (s : σ) :
    ∃ s', x.run.run s = (result, s') := ⟨_, Prod.ext (h s) rfl⟩

theorem gives_pure (a : α) : Gives (pure a : ExceptT ε (StateM σ) α) (.ok a) := fun _ => rfl

theorem Gives.bind {result : Except ε α} {f : α → ExceptT ε (StateM σ) β} {g : α → Except ε β}
    (h : Gives x result) (hf : ∀ a, result = .ok a → Gives (f a) (g a)) :
    Gives (x >>= f) (result >>= g) := by
  intro s
  obtain ⟨s', hrun⟩ := h.exists_run s
  cases result with
  | error e =>
    rw [run_bind_of_error hrun]
    rfl
  | ok a =>
    rw [run_bind_of_ok hrun]
    exact hf a rfl s'

theorem Gives.adapt {result : Except ε α} (h : Gives x result) (f : ε → δ) :
    Gives (x.adapt f) (result.mapError f) := fun s => by
  rw [run_adapt, h s]

theorem gives_mapM {f : α → ExceptT ε (StateM σ) β} {g : α → Except ε β}
    (h : ∀ a, Gives (f a) (g a)) (items : List α) : Gives (items.mapM f) (items.mapM g) := by
  induction items with
  | nil => exact gives_pure []
  | cons a rest ih =>
    rw [List.mapM_cons, List.mapM_cons]
    exact (h a).bind fun b _ => ih.bind fun others _ => gives_pure (b :: others)

end Stateful

namespace Log.Recorded

theorem gives_write (r : Record) : Gives (write r : Recorded ε Unit) (.ok ()) := fun _ => rfl

end Log.Recorded

end Runbook
