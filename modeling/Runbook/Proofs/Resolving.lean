import Runbook.Proofs.Fences
import Runbook.Proofs.Outcomes
import Runbook.Resource.Layers

/-!
How layers are resolved. Every resource that a scan finds has an item, or there is a reason why it
has none, and neither depends on what has been written before. To resolve layers is to scan them and
then to read the item of each resource in turn. It fails as the first resource that has none; to
hand over what was resolved never fails.
-/
namespace Runbook

open Log

variable {α : Type} {parse : String → String → Except Refusal α}

/-! The readers. -/

/-- A kind reads an item from a name and a content alone, and the item has the name. -/
structure Resource.Kind.Reads (kind : Resource.Kind α)
    (parse : String → String → Except Refusal α) : Prop where
  read : ∀ name content records, ((kind.read name content).run.run records).1 = parse name content
  named : ∀ {name content item}, name ≠ "" → parse name content = .ok item →
    kind.nameOf item = name

theorem Prompt.reads_kind : Prompt.kind.Reads Prompt.parse where
  read := fun _ _ _ => rfl
  named := fun _ h => (Prompt.kept_of_parse h).1

theorem Workflow.Definition.reads_kind : Workflow.Definition.kind.Reads fun name content =>
    Workflow.Definition.parse content (some name) where
  read := fun name content records => by
    show ((Workflow.Definition.read name content).run.run records).1 = _
    unfold Workflow.Definition.read
    cases hparse : Workflow.Definition.parse content (some name) with
    | error e => rfl
    | ok d => rfl
  named := fun {name content d} hname h => by
    unfold Workflow.Definition.parse at h
    obtain ⟨layout, -, h⟩ := bind_eq_ok_iff.mp h
    obtain ⟨header, -, h⟩ := bind_eq_ok_iff.mp h
    obtain ⟨body, -, h⟩ := bind_eq_ok_iff.mp h
    obtain ⟨draft, -, h⟩ := bind_eq_ok_iff.mp h
    cases h
    exact if_neg (mt String.isEmpty_iff.mp hname)

namespace Layers

variable {files : Files} {l : Layers α} {records records' : List Record}

/-! Items. -/

/-- The item of a resource, or why it has none. -/
def itemOf (parse : String → String → Except Refusal α) (r : Resource) : Except Refusal α :=
  (parse r.name r.content).mapError fun e => e.within r.name r.tier

theorem gives_parse (hreads : l.kind.Reads parse) (r : Resource) :
    Gives (l.parse r) ((itemOf parse r).mapError .refused) := by
  have hread : Gives (l.kind.read r.name r.content) (parse r.name r.content) :=
    hreads.read r.name r.content
  have hparse := hread.adapt fun e => LoadFault.refused (e.within r.name r.tier)
  unfold itemOf
  cases hitem : parse r.name r.content <;> rw [hitem] at hparse <;> exact hparse

theorem gives_parseOrReport (hreads : l.kind.Reads parse) (r : Resource) :
    Gives (l.parseOrReport r) ((itemOf parse r).mapError .refused) := by
  intro records
  obtain ⟨between, hparse⟩ := (gives_parse hreads r).exists_run records
  unfold parseOrReport
  cases hitem : itemOf parse r with
  | ok item =>
    rw [hitem] at hparse
    rw [run_tryCatch_of_ok hparse]
    rfl
  | error e =>
    rw [hitem] at hparse
    rw [run_tryCatch_of_error hparse]
    cases e <;> rfl

/-! Scans. -/

theorem outcome_scan : (l.scan files).outcome.1 = (l.scanned files).outcome.1.map Overlay.list := by
  unfold Recorded.outcome Layers.scan
  rcases hscan : (l.scanned files).run.run [] with ⟨_ | o, between⟩
  · rw [run_bind_of_error hscan]
    rfl
  · rw [run_bind_of_ok hscan]
    rfl

theorem exists_scanned_of_scan {rs : List Resource} (h : (l.scan files).outcome.1 = .ok rs) :
    ∃ o, (l.scanned files).outcome.1 = .ok o ∧ o.list = rs := by
  rw [outcome_scan] at h
  exact map_eq_ok_iff.mp h

theorem exists_load_of_scanned {o : Overlay} (h : (l.scanned files).outcome.1 = .ok o) :
    ∃ records, ((l.register files).load files).run.run [] = (.ok o, records) :=
  ⟨_, run_adapt_eq_ok_iff.mp (Prod.ext h rfl)⟩

/-! Resolutions. -/

/-- To resolve the layers is to scan them and to read the item of each resource. -/
theorem run_resolve (hreads : l.kind.Reads parse) (records : List Record) :
    ((l.resolve files).run.run records).1 = (do
      let o ← ((l.scanned files).run.run records).1
      let items ← o.list.mapM fun r => (itemOf parse r).mapError LoadFault.refused
      pure ⟨items, o.list.map fun r => (r.name, r.tier), o⟩) := by
  unfold resolve
  rcases hscan : (l.scanned files).run.run records with ⟨_ | o, between⟩
  · rw [run_bind_of_error hscan]
    rfl
  · rw [run_bind_of_ok hscan]
    have hitems := gives_mapM (gives_parseOrReport hreads) o.list
    exact (hitems.bind fun items _ => gives_pure _) between

theorem outcome_resolve (hreads : l.kind.Reads parse) : (l.resolve files).outcome.1 = (do
    let o ← (l.scanned files).outcome.1
    let items ← o.list.mapM fun r => (itemOf parse r).mapError LoadFault.refused
    pure ⟨items, o.list.map fun r => (r.name, r.tier), o⟩) := run_resolve hreads []

/-- Layers that are resolved are scanned, and each resource has its item. -/
theorem resolve_eq_ok (hreads : l.kind.Reads parse) {resolution : Resolution α}
    (h : ((l.resolve files).run.run records).1 = .ok resolution) :
    (∃ between, ((l.register files).load files).run.run records =
        (.ok resolution.overlay, between)) ∧
      List.Forall₂ (fun r item => parse r.name r.content = .ok item) resolution.overlay.list
        resolution.items ∧
      resolution.sources = resolution.overlay.list.map fun r => (r.name, r.tier) := by
  rw [run_resolve hreads] at h
  obtain ⟨o, hscan, h⟩ := bind_eq_ok_iff.mp h
  obtain ⟨items, hitems, h⟩ := bind_eq_ok_iff.mp h
  cases h
  refine ⟨⟨_, run_adapt_eq_ok_iff.mp (Prod.ext hscan rfl)⟩, ?_, rfl⟩
  refine (mapM_eq_ok_iff.mp hitems).imp fun r item hitem => ?_
  exact mapError_eq_ok_iff.mp (mapError_eq_ok_iff.mp hitem)

/-! Handing over. -/

/-- Items by their names. -/
def collected (kind : Resource.Kind α) (items : List α) : Collection α :=
  items.foldl (fun acc item => Keyed.set (kind.nameOf item) item acc) []

/-- Layers that have taken over what was resolved. -/
def adopting (l : Layers α) (r : Resolution α) : Layers α :=
  { l with overlay := r.overlay, sources := r.sources }

theorem gives_add (kind : Resource.Kind α) (store : Collection α) (item : α) :
    Gives (add kind store item) (.ok (Keyed.set (kind.nameOf item) item store)) := by
  intro records
  unfold add
  dsimp only
  split
  · rfl
  · rfl

theorem gives_commit (r : Resolution α) (store : Collection α) :
    Gives (l.commit files r store) (.ok (l.adopting r,
      r.items.foldl (fun acc item => Keyed.set (l.kind.nameOf item) item acc) store)) := by
  have hitems : ∀ (items : List α) (store : Collection α), Gives (items.foldlM (add l.kind) store)
      (.ok (items.foldl (fun acc item => Keyed.set (l.kind.nameOf item) item acc) store)) := by
    intro items
    induction items with
    | nil => exact gives_pure
    | cons item rest ih =>
      intro store
      rw [List.foldlM_cons, List.foldl_cons]
      exact (gives_add l.kind store item).bind fun next _ => ih next
  have hall := (hitems r.items store).bind fun store _ =>
    (Recorded.gives_write (ε := LoadFault) (.plain info logger "Resources resolved"
      [("kind", .text l.kind.name), ("count", .int r.sources.length),
        ("directories", .list ((r.overlay.directories files).map fun p => .text p.text))])).bind
      fun _ _ => gives_pure (l.adopting r, store)
  exact hall

theorem outcome_commit (r : Resolution α) :
    (l.commit files r []).outcome.1 = .ok (l.adopting r, collected l.kind r.items) :=
  gives_commit r [] []

end Layers

end Runbook
