import Runbook.Proofs.Reloads

/-!
Work that spares the store. A toolkit may load, look runs and workflows up, and let machines go on
before it puts a run; none of this touches the store or a file, and workflows are served as they
were read. What such work gives is told with the same law.
-/
namespace Runbook

open Workflow Toolkit

variable {α β : Type} {around : Surroundings} {s₀ s s' : Session} {r r' : Run}

/-- A toolkit that serves workflows as they were read. -/
structure Toolkit.Stocked (t : Toolkit) : Prop where
  regular : t.Regular
  read : ∀ name d, Keyed.get? name t.registry = some d →
    ∃ content called, Definition.parse content called = .ok d

/-- A load serves workflows as it reads them. -/
theorem Toolkit.Stocked.loading {files : Files} {t t' : Toolkit} (h : t.Stocked)
    (hloading : t.loading files = .ok t') : t'.Stocked := by
  obtain ⟨prompts, -, hloading⟩ := bind_eq_ok_iff.mp hloading
  obtain ⟨workflows, hworkflows, hloading⟩ := bind_eq_ok_iff.mp hloading
  cases hloading
  refine ⟨⟨h.regular.prompts, h.regular.workflows, h.regular.namedPrompts,
    h.regular.namedWorkflows⟩, fun name d hd => ?_⟩
  obtain ⟨-, hitems, -⟩ := Layers.resolve_eq_ok h.regular.reads_workflows hworkflows
  have hmem : d ∈ workflows.items := by
    change Keyed.get? name (Layers.collected _ _) = some d at hd
    unfold Layers.collected at hd
    rw [Keyed.get?_foldl_set, Keyed.get?_nil, Option.or_none] at hd
    exact List.mem_reverse.mp (List.mem_of_find?_eq_some hd)
  obtain ⟨r, -, hparse⟩ := exists_of_mem_of_forall₂ hitems hmem
  exact ⟨_, _, hparse⟩

/-- The store and the files are the same, and workflows are served as they were read, if they were
before. -/
structure Session.Spares (s s' : Session) : Prop where
  store : s'.toolkit.store = s.toolkit.store
  files : s'.files = s.files
  stocked : s.toolkit.Stocked → s'.toolkit.Stocked

namespace Session.Spares

theorem refl (s : Session) : s.Spares s := ⟨rfl, rfl, id⟩

theorem trans (h : s₀.Spares s) (h' : s.Spares s') : s₀.Spares s' :=
  ⟨h'.store.trans h.store, h'.files.trans h.files, fun hstocked => h'.stocked (h.stocked hstocked)⟩

end Session.Spares

namespace Toolkit

/-- Work that spares the store, whatever comes of it, and what holds after it if it goes well. -/
def Yields (x : Work α) (s : Session) (Q : α → Session → Prop) : Prop :=
  ∃ result s', x.run.run s = (result, s') ∧ s.Spares s' ∧ ∀ a, result = .ok a → Q a s'

theorem Yields.bind {x : Work α} {f : α → Work β} {Q : α → Session → Prop}
    {R : β → Session → Prop} (hx : Yields x s Q)
    (hf : ∀ a s', s.Spares s' → Q a s' → Yields (f a) s' R) : Yields (x >>= f) s R := by
  obtain ⟨result, s', hrun, hspares, hq⟩ := hx
  cases result with
  | error fault => exact ⟨_, s', run_bind_of_error hrun f, hspares, fun _ h => by cases h⟩
  | ok a =>
    obtain ⟨result, s'', hrun', hspares', hr⟩ := hf a s' hspares (hq a rfl)
    exact ⟨result, s'', (run_bind_of_ok hrun f).trans hrun', hspares.trans hspares', hr⟩

end Toolkit

end Runbook
