import Runbook.Proofs.BoundNames
import Runbook.Proofs.Resumption
import Runbook.Proofs.StoredRuns
import Runbook.Toolkit

/-!
Taking a stored run on. A toolkit reads the run from its store, has a machine do something with it
and puts it back. Where the store suits the run and its workflow, the run can be taken on again in
the same way, from where it was left.
-/
namespace Runbook

open Workflow

variable {around : Surroundings} {s s' : Session} {id : String} {r : Run} {d : Definition}

namespace Toolkit

/-- Takes a stored run on, whatever that means, and puts it back. -/
def takeOn (around : Surroundings) (id : String)
    (f : Host → Definition → Machine → Except Machine.Refusal Machine) : Work Run := do
  let run ← storedRun id
  let d ← workflow run.workflow
  let host ← host around
  let run ← moved (f host d (← machine run))
  keep run
  pure run

theorem advance_eq : advance around id = takeOn around id fun host d m => m.advance host d := rfl

end Toolkit

/-- The host of the runs in a session. -/
def Session.host (around : Surroundings) (s : Session) : Host :=
  Host.standard around.clock
    (some fun name => (Keyed.get? name s.toolkit.library).map Prompt.template)

theorem Session.indifferent_host (around : Surroundings) (s : Session) :
    (s.host around).Indifferent := Host.indifferent_standard ..

/-- A session that has read a run and written records while it read. -/
def Session.having (s : Session) (records : List Log.Record) : Session :=
  { s with journal := s.journal ++ records.map .logged }

/-- A session that has taken over what a machine has done. -/
def Session.following (s : Session) (m : Machine) : Session :=
  { s with reads := m.reads, journal := s.journal ++ m.journal }

/-- A session that has put a run, or has tried to. -/
def Session.keeping (s : Session) (run : Run) : Session :=
  let p := s.toolkit.store.put s.files run
  { s with
    files := p.files
    toolkit := { s.toolkit with store := p.store }
    journal := s.journal ++ p.records.map .logged }

/-- Putting a run changes nothing about the host of runs. -/
theorem Session.host_keeping (s : Session) (records : List Log.Record) (m : Machine) (run : Run) :
    (((s.having records).following m).keeping run).host around = s.host around := rfl

/-- A run is put into the file in which another one was put. -/
theorem Session.put_keeping {path : Path} (hstore : s.toolkit.store = .file path)
    (records : List Log.Record) (m : Machine) (run q : Run) :
    (((s.having records).following m).keeping run).toolkit.store.put
      (((s.having records).following m).keeping run).files q =
        Store.put (Store.put s.files run (.file path)).files q (.file path) := by
  change Store.put (s.toolkit.store.put s.files run).files q
    (s.toolkit.store.put s.files run).store = _
  rw [hstore, Store.store_put_file]

namespace Toolkit

/-- Work that writes records comes to what it gives, and the records are kept. -/
theorem run_recorded {ε α : Type} (wrap : ε → ToolkitFault) (work : Log.Recorded ε α)
    (s : Session) : (recorded wrap work).run.run s =
      (work.outcome.1.mapError wrap, s.having work.outcome.2) := by
  unfold recorded
  rcases work.outcome with ⟨_ | a, records⟩ <;> rfl

theorem run_storedRun {records : List Log.Record}
    (h : (s.toolkit.store.get s.files id).outcome = (.ok (some r), records)) :
    (storedRun id).run.run s = (.ok r, s.having records) := by
  have hrecorded : (recorded ToolkitFault.store (s.toolkit.store.get s.files id)).run.run s =
      (.ok (some r), s.having records) := by
    rw [run_recorded, h]
    rfl
  exact (run_bind_of_ok (a := s) rfl _).trans (run_bind_of_ok hrecorded _)

theorem run_workflow {name : String} (hloaded : s.toolkit.loaded = true)
    (h : Keyed.get? name s.toolkit.registry = some d) :
    (workflow name).run.run s = (.ok d, s) := by
  have hensure : ensureLoaded.run.run s = (.ok (), s) := by
    unfold ensureLoaded
    refine (run_bind_of_ok (a := s) rfl _).trans ?_
    rw [hloaded]
    rfl
  refine (run_bind_of_ok hensure _).trans ((run_bind_of_ok (a := s) rfl _).trans ?_)
  rw [h]
  rfl

theorem run_keep (s : Session) (run : Run) : (keep run).run.run s =
    (match (s.toolkit.store.put s.files run).fault? with
      | some f => .error (.store f)
      | none => .ok (), s.keeping run) := by
  refine (run_bind_of_ok (a := s) rfl _).trans ?_
  refine (run_bind_of_ok (a := ()) rfl _).trans ?_
  refine (run_bind_of_ok (a := ()) rfl _).trans ?_
  cases (s.toolkit.store.put s.files run).fault? <;> rfl

/-- What comes of taking a run on. -/
theorem run_takeOn {records : List Log.Record}
    (hstored : (s.toolkit.store.get s.files id).outcome = (.ok (some r), records))
    (hloaded : s.toolkit.loaded = true)
    (hworkflow : Keyed.get? r.workflow s.toolkit.registry = some d)
    (f : Host → Definition → Machine → Except Machine.Refusal Machine) :
    (takeOn around id f).run.run s =
      match f (s.host around) d ⟨r, s.reads, 0, 0, []⟩ with
      | .ok m => (match (s.toolkit.store.put s.files m.run).fault? with
          | some f => .error (.store f)
          | none => .ok m.run, ((s.having records).following m).keeping m.run)
      | .error (.foreign run workflow d) => (.error (.foreign run workflow d), s.having records)
      | .error (.interrupted i) =>
        (.error (.interrupted i.why), (s.having records).following i.machine) := by
  unfold takeOn
  refine (run_bind_of_ok (run_storedRun hstored) _).trans ?_
  refine (run_bind_of_ok (run_workflow (s := s.having records) hloaded hworkflow) _).trans ?_
  refine (run_bind_of_ok (a := s.host around) rfl _).trans ?_
  refine (run_bind_of_ok (a := (⟨r, s.reads, 0, 0, []⟩ : Machine)) rfl _).trans ?_
  rcases f (s.host around) d ⟨r, s.reads, 0, 0, []⟩ with (_ | i) | m
  · rfl
  · rfl
  · have hmoved : (moved (.ok m)).run.run (s.having records) =
        (.ok m.run, (s.having records).following m) := rfl
    refine (run_bind_of_ok hmoved _).trans ?_
    have hkeep := run_keep ((s.having records).following m) m.run
    have hput : ((s.having records).following m).toolkit.store.put
        ((s.having records).following m).files m.run = s.toolkit.store.put s.files m.run := rfl
    rw [hput] at hkeep
    dsimp only
    cases hfault : (s.toolkit.store.put s.files m.run).fault? with
    | some f =>
      rw [hfault] at hkeep
      exact run_bind_of_error hkeep _
    | none =>
      rw [hfault] at hkeep
      exact run_bind_of_ok hkeep _

/-! A run that comes back. -/

/-- A store and a run in it that is given back as it is put, now and after any steps. In memory runs
stand under their identifiers. A file lies in a tree, records hold the times that the clock shows,
no name that an action binds has halves, and the variables of the run are values of JSON. -/
inductive Suits (clock : Nat → Timestamp) (d : Definition) (r : Run) (files : Files) : Store → Prop
  | memory {entries : List (String × Run)} (filed : ∀ e ∈ entries, e.1 = e.2.id) :
      Suits clock d r files (.memory entries)
  | file {path : Path} (rooted : files.Rooted) (times : ∀ n, (clock n).Recordable)
      (names : ∀ st ∈ d.states, ∀ a ∈ st.actions, ∀ name ∈ a.binds?, Text.hasHalves name = false)
      (bindings : storable (.record r.bindings) = .record r.bindings) :
      Suits clock d r files (.file path)

namespace Suits

variable {clock : Nat → Timestamp} {files files' : Files} {store store' : Store} {r' : Run}

/-- A workflow that was read gives its actions no names with halves. -/
theorem of_parse {path : Path} {content : String} {name : Option String}
    (hparse : Definition.parse content name = .ok d) (hrooted : files.Rooted)
    (htimes : ∀ n, (clock n).Recordable)
    (hbindings : storable (.record r.bindings) = .record r.bindings) :
    Suits clock d r files (.file path) :=
  .file hrooted htimes (Definition.hasHalves_of_parse hparse) hbindings

theorem wellKept (h : Suits clock d r files store) : store.WellKept files := by
  cases h with
  | memory filed => exact filed
  | file rooted => exact rooted

theorem faithful (h : Suits clock d r files store)
    (hfound : (store.get files id).outcome.1 = .ok (some r)) : store.Faithful r := by
  cases h with
  | memory => trivial
  | file rooted times names bindings => exact Store.recordable_of_get hfound bindings

/-- A run that can be given back can be given back later on. -/
theorem faithful_later {prompts : PromptSource} (h : Suits clock d r files store)
    (hfaithful : store.Faithful r) (hlater : Run.Later (Host.standard clock prompts) d r r') :
    store.Faithful r' := by
  cases h with
  | memory => trivial
  | file rooted times names =>
    exact hlater.recordable (Host.retains_standard times names) hfaithful

theorem put (h : Suits clock d r files store) (hfaithful : store.Faithful r')
    (hput : (store.put files r').fault? = none) :
    Suits clock d r' (store.put files r').files (store.put files r').store := by
  obtain ⟨-, hkept⟩ := Store.get_put h.wellKept hfaithful hput
  cases h with
  | @memory entries filed =>
    have hstore : ((Store.memory entries).put files r').store =
        .memory (Keyed.set r'.id r' entries) := by
      unfold Store.put
      dsimp only
      rw [if_pos (Store.put_memory_eq_none_iff.mp hput)]
    rw [hstore] at hkept ⊢
    exact .memory hkept
  | @file path rooted times names =>
    rw [Store.store_put_file] at hkept ⊢
    exact .file hkept times names hfaithful.durable

end Suits

/-- A run is stored under an identifier, its workflow is loaded, and the store suits both. -/
structure Resumable (around : Surroundings) (id : String) (r : Run) (d : Definition)
    (s : Session) : Prop where
  loaded : s.toolkit.loaded = true
  workflow : Keyed.get? r.workflow s.toolkit.registry = some d
  found : (s.toolkit.store.get s.files id).outcome.1 = .ok (some r)
  suits : Suits around.clock d r s.files s.toolkit.store

theorem Resumable.exists_records (h : Resumable around id r d s) :
    ∃ records, (s.toolkit.store.get s.files id).outcome = (.ok (some r), records) :=
  ⟨_, Prod.ext h.found rfl⟩

theorem Resumable.keeping (h : Resumable around id r d s) {records : List Log.Record} {m : Machine}
    (hlater : Run.Later (s.host around) d r m.run)
    (hput : (s.toolkit.store.put s.files m.run).fault? = none) :
    Resumable around id m.run d (((s.having records).following m).keeping m.run) := by
  have hfaithful := h.suits.faithful_later (h.suits.faithful h.found) hlater
  obtain ⟨hget, -⟩ := Store.get_put h.suits.wellKept hfaithful hput
  rw [hlater.id, Store.id_of_get h.found] at hget
  refine ⟨h.loaded, ?_, hget, h.suits.put hfaithful hput⟩
  rw [hlater.workflow]
  exact h.workflow

/-- What goes well and gives a run that can be put is taken over. -/
theorem run_takeOn_of_ok (h : Resumable around id r d s)
    {f : Host → Definition → Machine → Except Machine.Refusal Machine} {m : Machine}
    (hm : f (s.host around) d ⟨r, s.reads, 0, 0, []⟩ = .ok m)
    (hput : (s.toolkit.store.put s.files m.run).fault? = none) :
    ∃ records, (takeOn around id f).run.run s =
      (.ok m.run, ((s.having records).following m).keeping m.run) := by
  obtain ⟨records, hrecords⟩ := h.exists_records
  refine ⟨records, (run_takeOn hrecords h.loaded h.workflow f).trans ?_⟩
  rw [hm]
  simp only [hput]

/-- What breaks off is taken over too, but the run stays in the store as it was. -/
theorem run_takeOn_of_interrupted (h : Resumable around id r d s)
    {f : Host → Definition → Machine → Except Machine.Refusal Machine} {i : Interrupted}
    (hi : f (s.host around) d ⟨r, s.reads, 0, 0, []⟩ = .error (.interrupted i)) :
    ∃ records, (takeOn around id f).run.run s =
      (.error (.interrupted i.why), (s.having records).following i.machine) := by
  obtain ⟨records, hrecords⟩ := h.exists_records
  refine ⟨records, (run_takeOn hrecords h.loaded h.workflow f).trans ?_⟩
  rw [hi]

/-- A run that was taken on has been put back. -/
theorem exists_of_takeOn_eq_ok (h : Resumable around id r d s)
    {f : Host → Definition → Machine → Except Machine.Refusal Machine} {run : Run}
    (hok : (takeOn around id f).run.run s = (.ok run, s')) :
    ∃ records m, f (s.host around) d ⟨r, s.reads, 0, 0, []⟩ = .ok m ∧ run = m.run ∧
      (s.toolkit.store.put s.files m.run).fault? = none ∧
      s' = ((s.having records).following m).keeping m.run := by
  obtain ⟨records, hrecords⟩ := h.exists_records
  rw [run_takeOn hrecords h.loaded h.workflow] at hok
  rcases htaken : f (s.host around) d ⟨r, s.reads, 0, 0, []⟩ with (_ | i) | m
  · rw [htaken] at hok
    cases hok
  · rw [htaken] at hok
    cases hok
  · rw [htaken] at hok
    cases hfault : (s.toolkit.store.put s.files m.run).fault? with
    | some fault =>
      simp only [hfault] at hok
      cases hok
    | none =>
      simp only [hfault] at hok
      cases hok
      exact ⟨_, m, rfl, rfl, hfault, rfl⟩

/-- What a taking on broke off for is what the machine broke off for. -/
theorem exists_of_takeOn_eq_interrupted (h : Resumable around id r d s)
    {f : Host → Definition → Machine → Except Machine.Refusal Machine} {why : Interruption}
    (hbroken : (takeOn around id f).run.run s = (.error (.interrupted why), s')) :
    ∃ records i, f (s.host around) d ⟨r, s.reads, 0, 0, []⟩ = .error (.interrupted i) ∧
      i.why = why ∧ s' = (s.having records).following i.machine := by
  obtain ⟨records, hrecords⟩ := h.exists_records
  rw [run_takeOn hrecords h.loaded h.workflow] at hbroken
  rcases htaken : f (s.host around) d ⟨r, s.reads, 0, 0, []⟩ with (_ | i) | m
  · rw [htaken] at hbroken
    cases hbroken
  · rw [htaken] at hbroken
    cases hbroken
    exact ⟨records, i, rfl, rfl, rfl⟩
  · rw [htaken] at hbroken
    cases hfault : (s.toolkit.store.put s.files m.run).fault? with
    | some fault =>
      simp only [hfault] at hbroken
      cases hbroken
    | none =>
      simp only [hfault] at hbroken
      cases hbroken

end Toolkit

end Runbook
