import Mathlib.Data.List.Nodup
import Mathlib.Tactic.ByContra
import Runbook.Proofs.Reachability
import Runbook.Workflow.Validation

/-!
What a definition keeps to on which validation finds no error: transitions join declared states,
there is one initial state with one unguarded way out, and forks have branches. Every fact is read
off the one check that would have reported an error without it. That transitions join declared
states is also of use where nothing else is known of a definition.
-/
namespace Runbook.Workflow.Definition

variable {d : Definition}

theorem mem_of_state? {id : String} {s : State} (h : d.state? id = some s) :
    s ∈ d.states ∧ s.id = id := by
  unfold state? at h
  have hid := List.find?_some h
  exact ⟨List.mem_of_find?_eq_some h, by simpa using hid⟩

/-- Identifiers are distinct, so a declared state is found by its identifier. -/
theorem state?_of_mem {s : State} (hs : s ∈ d.states) : d.state? s.id = some s := by
  have hfound : (d.state? s.id).isSome := by
    unfold state?
    rw [List.find?_isSome]
    exact ⟨s, hs, by simp⟩
  obtain ⟨other, hother⟩ := Option.isSome_iff_exists.mp hfound
  obtain ⟨hmem, hid⟩ := mem_of_state? hother
  rw [hother, List.inj_on_of_nodup_map d.distinct hmem hs hid]

theorem declares_iff {id : String} : d.declares id = true ↔ ∃ s, d.state? id = some s := by
  unfold declares
  rw [List.any_eq_true]
  constructor
  · intro hparts
    obtain ⟨s, hs, hid⟩ := hparts
    have heq : s.id = id := by simpa using hid
    exact ⟨s, heq ▸ state?_of_mem hs⟩
  · intro hparts
    obtain ⟨s, hs⟩ := hparts
    obtain ⟨hmem, hid⟩ := mem_of_state? hs
    exact ⟨s, hmem, by simpa using hid⟩

theorem mem_ofKind {kind : StateKind} {s : State} :
    s ∈ d.ofKind kind ↔ s ∈ d.states ∧ s.kind = kind := by
  simp [ofKind]

theorem mem_of_initial? {s : State} (h : d.initial? = some s) :
    s ∈ d.states ∧ s.kind = .initial := by
  unfold initial? at h
  split at h
  · rename_i only hkinds
    obtain rfl : only = s := Option.some.inj h
    exact mem_ofKind.mp (hkinds ▸ List.mem_singleton_self only)
  · cases h

/-- Every transition joins declared states. -/
def Linked (d : Definition) : Prop :=
  ∀ t ∈ d.transitions, d.declares t.source = true ∧ d.declares t.target = true

instance (d : Definition) : Decidable d.Linked :=
  inferInstanceAs (Decidable (∀ t ∈ d.transitions, d.declares t.source = true ∧
    d.declares t.target = true))

theorem Linked.state?_of_leads (h : d.Linked) {a b : String} (hleads : d.Leads a b) :
    ∃ s, d.state? b = some s := by
  obtain ⟨t, ht, -, rfl⟩ := hleads
  exact declares_iff.mp (h t ht).2

section Valid

variable (hv : d.validate.hasErrors = false)
include hv

theorem severity_of_mem_issues {i : Issue} (hi : i ∈ d.issues) : i.severity = .warning := by
  have hnone := List.any_eq_false.mp hv (i.finding d.name) (List.mem_map_of_mem hi)
  have hne : i.severity ≠ .error := by simpa [Issue.finding] using hnone
  cases hs : i.severity with
  | error => exact absurd hs hne
  | warning => rfl

theorem no_initialIssues : d.initialIssues = [] := by
  by_contra hne
  obtain ⟨i, hi⟩ := List.exists_mem_of_ne_nil _ hne
  have hseverity : i.severity = .warning := by
    apply severity_of_mem_issues hv
    simp [issues, hi]
  unfold initialIssues at hi
  split at hi
  · simp_all [Issue.severity]
  · split at hi
    · split at hi <;> simp_all [Issue.severity]
    · simp_all [Issue.severity]
  · simp_all [Issue.severity]

theorem exists_initial :
    ∃ s t, d.initial? = some s ∧ d.outgoing s.id = [t] ∧ t.guard = none := by
  have hnone := no_initialIssues hv
  unfold initialIssues at hnone
  split at hnone
  · simp at hnone
  · rename_i s hs
    split at hnone
    · rename_i t ht
      refine ⟨s, t, by simp [initial?, hs], ht, ?_⟩
      cases hg : t.guard with
      | none => rfl
      | some g => simp [hg] at hnone
    · simp at hnone
  · simp at hnone

theorem declares_endpoint {t : Transition} (ht : t ∈ d.transitions) {id : String}
    (hid : id = t.source ∨ id = t.target) : d.declares id = true := by
  by_contra hdeclared
  have hissue : Issue.undeclared t.source t.target id ∈ d.issues := by
    have hmem : Issue.undeclared t.source t.target id ∈ d.referenceIssues := by
      unfold referenceIssues
      refine List.mem_flatMap.mpr ⟨t, ht, List.mem_map_of_mem ?_⟩
      rcases hid with rfl | rfl <;> simp [hdeclared]
    simp [issues, hmem]
  have hwarning := severity_of_mem_issues hv hissue
  simp [Issue.severity] at hwarning

theorem linked_of_valid : d.Linked :=
  fun _ ht => ⟨declares_endpoint hv ht (Or.inl rfl), declares_endpoint hv ht (Or.inr rfl)⟩

theorem two_le_length_outgoing_fork {s : State} (hs : s ∈ d.states) (hk : s.kind = .fork) :
    2 ≤ (d.outgoing s.id).length := by
  by_contra hshort
  have hissue : Issue.forkBranches s.id ∈ d.issues := by
    have hmem : Issue.forkBranches s.id ∈ d.forkIssues := by
      unfold forkIssues
      refine List.mem_flatMap.mpr ⟨s, mem_ofKind.mpr ⟨hs, hk⟩, ?_⟩
      have hlt : (d.outgoing s.id).length < 2 := by omega
      simp [forkIssuesOf, hlt]
    simp [issues, hmem]
  have hwarning := severity_of_mem_issues hv hissue
  simp [Issue.severity] at hwarning

end Valid

end Runbook.Workflow.Definition
