import Runbook.Proofs.Interruptions
import Runbook.Proofs.Salvage
import Runbook.Proofs.Sparing

/-!
Calls about runs. A call that fails leaves the store as it was, and a file of runs byte for byte; a
call that goes well changes at most the run that it is about, and what it returns is what the store
has afterwards. All that a call does before it puts a run spares the store, so both are told from
the one put that may follow.
-/
namespace Runbook

open Workflow Toolkit

variable {α β : Type} {around : Surroundings} {s₀ s s' : Session} {r r' : Run}

namespace Toolkit

/-! What comes of a call. -/

/-- A call that failed has left the store as it was. If the fault is none of the store, it has
touched no file; if it is, the put may have made directories and what is beside the file of runs. -/
structure Refused (fault : ToolkitFault) (s s' : Session) : Prop where
  store : s'.toolkit.store = s.toolkit.store
  files : (∀ f, fault ≠ .store f) → s'.files = s.files
  file : ∀ path, s.toolkit.store = .file path → s.files.Steady path →
    s'.files.read path = s.files.read path

theorem Refused.of_spares (fault : ToolkitFault) (h : s.Spares s') : Refused fault s s' :=
  ⟨h.store, fun _ => h.files, fun _ _ _ => by rw [h.files]⟩

/-- A run has been put: it stands in the place of the first run of its identifier or comes last, it
is found under its identifier, and every other identifier has the run that it had. -/
structure Left (s s' : Session) (r : Run) : Prop where
  runs : ∃ kept, (s.toolkit.store.runs s.files).outcome.1 = .ok kept ∧
    (s'.toolkit.store.runs s'.files).outcome.1 = .ok (Store.replaceFirst r kept)
  own : (s'.toolkit.store.get s'.files r.id).outcome.1 = .ok (some r)
  others : ∀ id, id ≠ r.id → (s'.toolkit.store.get s'.files id).outcome.1 =
    (s.toolkit.store.get s.files id).outcome.1

/-- A session whose store gives back what is put into it: it serves workflows as they were read, and
records hold the times that the clock shows and the variables of the runs that a file has. -/
structure Shelters (around : Surroundings) (s : Session) : Prop where
  wellKept : s.toolkit.store.WellKept s.files
  stocked : s.toolkit.Stocked
  times : ∀ path, s.toolkit.store = .file path → ∀ n, (around.clock n).Recordable
  kept : ∀ path kept, s.toolkit.store = .file path →
    (Store.runs s.files (.file path)).outcome.1 = .ok kept →
      ∀ r ∈ kept, storable (.record r.bindings) = .record r.bindings

theorem Shelters.faithful (h : Shelters around s) {kept : List Run}
    (hkept : (s.toolkit.store.runs s.files).outcome.1 = .ok kept) (hr : r ∈ kept) :
    s.toolkit.store.Faithful r := by
  cases hstore : s.toolkit.store with
  | memory entries => trivial
  | file path =>
    rw [hstore] at hkept
    obtain ⟨v, hsound, hread⟩ := Store.exists_of_mem_runs hkept hr
    exact Run.recordable_of_read hsound hread (h.kept path kept hstore hkept r hr)

/-- Work of which nothing comes but what is so refused, or what holds after it if it goes well. -/
def Concludes (s₀ : Session) (x : Work α) (s : Session) (P : α → Session → Prop) : Prop :=
  ∃ result s', x.run.run s = (result, s') ∧ (∀ fault, result = .error fault → Refused fault s₀ s') ∧
    ∀ a, result = .ok a → P a s'

theorem Concludes.bind {x : Work α} {f : α → Work β} {Q : α → Session → Prop}
    {P : β → Session → Prop} (hspares : s₀.Spares s) (hx : Yields x s Q)
    (hf : ∀ a s', s₀.Spares s' → Q a s' → Concludes s₀ (f a) s' P) :
    Concludes s₀ (x >>= f) s P := by
  obtain ⟨result, s', hrun, hspares', hq⟩ := hx
  cases result with
  | error fault =>
    refine ⟨_, s', run_bind_of_error hrun f, fun fault _ => ?_, fun _ h => by cases h⟩
    exact .of_spares fault (hspares.trans hspares')
  | ok a =>
    obtain ⟨result, s'', hrun', hconcludes⟩ := hf a s' (hspares.trans hspares') (hq a rfl)
    exact ⟨result, s'', (run_bind_of_ok hrun f).trans hrun', hconcludes⟩

theorem Concludes.imp {x : Work α} {P Q : α → Session → Prop} (h : Concludes s₀ x s P)
    (hpq : ∀ a s', P a s' → Q a s') : Concludes s₀ x s Q := by
  obtain ⟨result, s', hrun, hrefused, hp⟩ := h
  exact ⟨result, s', hrun, hrefused, fun a ha => hpq a s' (hp a ha)⟩

theorem Concludes.map {x : Work α} {P : α → Session → Prop} {Q : β → Session → Prop}
    (h : Concludes s₀ x s P) (f : α → β) (hpq : ∀ a s', P a s' → Q (f a) s') :
    Concludes s₀ (f <$> x) s Q := by
  obtain ⟨result, s', hrun, hrefused, hp⟩ := h
  cases result with
  | error fault =>
    refine ⟨_, s', run_map_of_error hrun f, fun fault' heq => ?_, fun _ h => by cases h⟩
    cases heq
    exact hrefused fault rfl
  | ok a =>
    refine ⟨.ok (f a), s', run_map_of_ok hrun f, fun _ h => (by cases h), fun b hb => ?_⟩
    cases hb
    exact hpq a s' (hp a rfl)

/-- A run has been put under an identifier, if the session gives back what is put. -/
def Leaves (around : Surroundings) (s₀ : Session) (id : String) (r : Run) (s : Session) : Prop :=
  Shelters around s₀ → r.id = id ∧ Left s₀ s r

/-- A run is started under a name of its own: its workflow is served, a machine starts it with the
variables that are given, and it is put. -/
def Starts (around : Surroundings) (s₀ : Session) (name : String) (bindings : Fields) (id : String)
    (s : Session) : Prop :=
  ∃ d m, Keyed.get? name s.toolkit.registry = some d ∧
    Machine.start (s.host around) d bindings id s₀.reads 0 0 = .ok m ∧
      id = around.identifier s₀.named ∧ m.run.id = id ∧ Left s₀ s m.run

/-- What can be asked about runs. -/
inductive RunCall where
  | start (name : String) (bindings : Fields)
  | advance (id : String)
  | settle (id : String) (limit : Option Int)
  | suspend (id : String)
  | resume (id : String)
  | cancel (id : String)
  | find (id : String)
  | list

inductive Reply where
  | started (id : String)
  | run (r : Run)
  | runs (rs : List Run)

namespace RunCall

def work (around : Surroundings) : RunCall → Work Reply
  | .start name bindings => Reply.started <$> Toolkit.start around name bindings
  | .advance id => Reply.run <$> Toolkit.advance around id
  | .settle id limit => Reply.run <$> Toolkit.settle around id limit
  | .suspend id => Reply.run <$> Toolkit.suspend around id
  | .resume id => Reply.run <$> Toolkit.resume around id
  | .cancel id => Reply.run <$> Toolkit.cancel around id
  | .find id => Reply.run <$> storedRun id
  | .list => Reply.runs <$> runs

/-- What a call that went well has done: it has started a run, put one, or only looked. -/
def Settles (around : Surroundings) (s s' : Session) : RunCall → Reply → Prop
  | .start name bindings, .started id => Starts around s name bindings id s'
  | .advance id, .run r | .settle id _, .run r | .suspend id, .run r | .resume id, .run r
  | .cancel id, .run r => r.id = id ∧ Left s s' r
  | .find id, .run r => s.Spares s' ∧ (s.toolkit.store.get s.files id).outcome.1 = .ok (some r)
  | .list, .runs rs => s.Spares s' ∧ (s.toolkit.store.list s.files).outcome.1 = .ok rs
  | _, _ => False

end RunCall

/-! Calls whose run is put, or cannot be put. -/

end Toolkit

end Runbook
