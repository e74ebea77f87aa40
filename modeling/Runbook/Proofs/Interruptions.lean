import Runbook.Proofs.FilesBeside
import Runbook.Proofs.Interchange
import Runbook.Proofs.Stepping

/-!
Puts that are interrupted. A file of runs is written beside its place and moved there in one step,
so wherever a put stops, the runs that were kept before are kept still, or those that the put leaves
are. What is left beside the file does not matter to a later put, which goes as it would have gone.
-/
namespace Runbook

namespace Files

variable {f f' g g' : Files} {p : Path} {bytes : ByteArray}

/-- What there is where steps stop: before one of them, behind the last, or amid a write, when only
the first bytes of the file are there. -/
inductive Stopped : Files → List FileStep → Files → Prop
  | here (f : Files) (rest : List FileStep) : Stopped f rest f
  | amid {f g : Files} {p : Path} {bytes : ByteArray} {rest : List FileStep} (length : Nat)
      (hwrite : f.write p (bytes.extract 0 length) = .ok g) : Stopped f (.write p bytes :: rest) g
  | behind {f f' g : Files} {s : FileStep} {rest : List FileStep} (hstep : f.step s = .ok f')
      (hrest : Stopped f' rest g) : Stopped f (s :: rest) g

/-- Steps that fail have stopped. -/
theorem stopped_steps (f : Files) (steps : List FileStep) : Stopped f steps (f.steps steps).1 := by
  induction steps generalizing f with
  | nil => exact .here f []
  | cons s rest ih =>
    rw [Files.steps]
    cases hstep : f.step s with
    | ok f' => exact .behind hstep (ih f')
    | error e => exact .here f _

/-- What there is while a file is put in its place and has not been moved there yet: what there was,
with the directories on the way, and with any bytes in the file beside. -/
inductive Unmoved (f : Files) (p : Path) : Files → Prop
  | before : Unmoved f p f
  | made {f' : Files} (hmade : f.makeDirectories p.absolute p.parent.names = .ok f') :
    Unmoved f p f'
  | beside {f' g : Files} {bytes : ByteArray}
      (hmade : f.makeDirectories p.absolute p.parent.names = .ok f')
      (hwrite : f'.write (p.extend ".tmp") bytes = .ok g) : Unmoved f p g

theorem stopped_nil_iff : Stopped f [] g ↔ g = f := by
  constructor
  · rintro ⟨⟩
    rfl
  · rintro rfl
    exact .here g []

/-- Wherever the steps to a file stop, it has not been moved to its place, or all is done. -/
theorem unmoved_or_replaced (h : Stopped f (replacing p bytes) g) :
    Unmoved f p g ∨ f.steps (replacing p bytes) = (g, none) := by
  cases h with
  | here => exact Or.inl .before
  | behind hmade hrest =>
    cases hrest with
    | here => exact Or.inl (.made hmade)
    | amid length hwrite => exact Or.inl (.beside hmade hwrite)
    | behind hwrite hrest =>
      cases hrest with
      | here => exact Or.inl (.beside hmade hwrite)
      | behind hmove hrest =>
        obtain rfl := stopped_nil_iff.mp hrest
        right
        unfold replacing
        rw [steps_cons_eq_iff]
        exact ⟨_, hmade, steps_cons_eq_iff.mpr ⟨_, hwrite, steps_cons_eq_iff.mpr
          ⟨_, hmove, steps_nil_eq_iff.mpr rfl⟩⟩⟩

/-- Nothing has changed at the path. -/
theorem Unmoved.read (h : Unmoved f p g) (hsteady : f.Steady p) : g.read p = f.read p := by
  cases h with
  | before => rfl
  | made hmade => exact hsteady _ hmade
  | beside hmade hwrite =>
    obtain ⟨draft, hdraft, hother, -, rfl⟩ := write_eq_ok_iff.mp hwrite
    exact (read_set_beside hdraft hother).trans (hsteady _ hmade)

theorem Alike.set (h : Alike f g) (location : Location) (content : Content) :
    Alike (f.set location content) (g.set location content) := by
  refine ⟨h.base, fun other => ?_⟩
  by_cases hroot : other = []
  · rw [hroot]
    rfl
  · rw [at?_set hroot, at?_set hroot, h.at?]

theorem Alike.remove (h : Alike f g) (location : Location) :
    Alike (f.remove location) (g.remove location) := by
  refine ⟨h.base, fun other => ?_⟩
  by_cases hroot : other = []
  · rw [hroot]
    rfl
  · rw [at?_remove hroot, at?_remove hroot, h.at?]

/-- What is set twice is as if it were set once. -/
theorem alike_set_set (f : Files) (location : Location) (first second : Content) :
    Alike (f.set location second) ((f.set location first).set location second) := by
  refine ⟨rfl, fun other => ?_⟩
  by_cases hroot : other = []
  · rw [hroot]
    rfl
  · rw [at?_set hroot, at?_set hroot, at?_set hroot]
    split <;> rfl

/-- Two results of one kind: both are there and alike, or both are missing for one reason. -/
def Agrees (a b : Files × Option FileFault) : Prop := a.2 = b.2 ∧ (a.2 = none → Alike a.1 b.1)

theorem Alike.agrees_rename (h : Alike f g) (source target : Path) :
    Agrees (f.steps [.rename source target]) (g.steps [.rename source target]) := by
  have hcase : (∃ e, f.rename source target = .error e ∧ g.rename source target = .error e) ∨
      ∃ f' g', f.rename source target = .ok f' ∧ g.rename source target = .ok g' ∧ Alike f' g' := by
    unfold Files.rename
    rw [h.locate source, h.locate target]
    cases f.locate source with
    | error e => exact Or.inl ⟨e, rfl, rfl⟩
    | ok location =>
      cases f.locate target with
      | error e => exact Or.inl ⟨e, rfl, rfl⟩
      | ok place =>
        dsimp only [bind, Except.bind]
        rw [h.at? location, h.at? place]
        split
        · exact Or.inl ⟨_, rfl, rfl⟩
        · exact Or.inr ⟨_, _, rfl, rfl, (h.remove location).set place _⟩
        · exact Or.inl ⟨_, rfl, rfl⟩
  rw [Files.steps, Files.steps, Files.step, Files.step]
  rcases hcase with ⟨e, hf, hg⟩ | ⟨f', g', hf, hg, halike⟩
  · rw [hf, hg]
    exact ⟨rfl, fun hnone => absurd hnone (Option.some_ne_none e)⟩
  · rw [hf, hg]
    exact ⟨rfl, fun _ => halike⟩

/-- What is left of steps that have begun: the directories on the way, and nothing that is different
once the file beside is written again. -/
structure Begun (f' g : Files) (p : Path) : Prop where
  way : g.makeDirectories p.absolute p.parent.names = .ok g
  write : ∀ bytes, (∃ e, f'.write (p.extend ".tmp") bytes = .error e ∧
      g.write (p.extend ".tmp") bytes = .error e) ∨
    ∃ h h', f'.write (p.extend ".tmp") bytes = .ok h ∧ g.write (p.extend ".tmp") bytes = .ok h' ∧
      Alike h h'

theorem way_of_makeDirectories (hmade : f.makeDirectories p.absolute p.parent.names = .ok f')
    (hgrown : Grown f' g) : g.makeDirectories p.absolute p.parent.names = .ok g := by
  obtain ⟨location, hlocation, hdir⟩ := isDirectory_iff.mp (isDirectory_of_makeDirectories hmade)
  exact makeDirectories_of_isDirectory (isDirectory_iff.mpr
    ⟨location, locate_grown hgrown hlocation, hgrown.directories _ hdir⟩)

theorem Unmoved.begun (h : Unmoved f p g) : g = f ∨
    ∃ f', f.makeDirectories p.absolute p.parent.names = .ok f' ∧ Begun f' g p := by
  cases h with
  | before => exact Or.inl rfl
  | made hmade =>
    refine Or.inr ⟨g, hmade, way_of_makeDirectories hmade ⟨rfl, fun _ h => h⟩, fun bytes => ?_⟩
    cases g.write (p.extend ".tmp") bytes with
    | error e => exact Or.inl ⟨e, rfl, rfl⟩
    | ok h => exact Or.inr ⟨h, h, rfl, rfl, Alike.refl h⟩
  | @beside f' _ content hmade hwrite =>
    obtain ⟨draft, hdraft, hother, hparent, rfl⟩ := write_eq_ok_iff.mp hwrite
    have hgrown : Grown f' (f'.set draft (.file content)) :=
      grown_set fun hdir => absurd hdir hother
    refine Or.inr ⟨f', hmade, way_of_makeDirectories hmade hgrown, fun bytes => Or.inr ?_⟩
    have hfile : (f'.set draft (.file content)).at? draft ≠ some .directory := by
      have hroot : draft ≠ [] := fun hnil => hother (by rw [hnil]; rfl)
      rw [at?_set hroot, if_pos rfl]
      nofun
    exact ⟨_, _, write_eq_ok_iff.mpr ⟨draft, hdraft, hother, hparent, rfl⟩,
      write_eq_ok_iff.mpr ⟨draft, locate_grown hgrown hdraft, hfile,
        hgrown.directories _ hparent, rfl⟩, alike_set_set f' draft _ _⟩

theorem Begun.steps {f' : Files} (h : Begun f' g p)
    (hmade : f.makeDirectories p.absolute p.parent.names = .ok f') (rest : List FileStep) :
    f.steps (.makeDirectories p.parent :: rest) = f'.steps rest ∧
      g.steps (.makeDirectories p.parent :: rest) = g.steps rest := by
  have hfirst : f.step (.makeDirectories p.parent) = .ok f' := hmade
  have hagain : g.step (.makeDirectories p.parent) = .ok g := h.way
  rw [Files.steps, hfirst, Files.steps, hagain]
  exact ⟨rfl, rfl⟩

/-- The steps to a file go as if nothing had begun. -/
theorem Unmoved.agrees_steps (h : Unmoved f p g) (bytes : ByteArray) {rest : List FileStep}
    (hrest : ∀ {h h' : Files}, Alike h h' → Agrees (h.steps rest) (h'.steps rest)) :
    Agrees (f.steps (.makeDirectories p.parent :: .write (p.extend ".tmp") bytes :: rest))
      (g.steps (.makeDirectories p.parent :: .write (p.extend ".tmp") bytes :: rest)) := by
  rcases h.begun with rfl | ⟨f', hmade, hbegun⟩
  · exact ⟨rfl, fun _ => .refl _⟩
  rw [(hbegun.steps hmade _).1, (hbegun.steps hmade _).2, Files.steps, Files.steps, Files.step,
    Files.step]
  rcases hbegun.write bytes with ⟨e, hf, hg⟩ | ⟨h, h', hf, hg, halike⟩
  · rw [hf, hg]
    exact ⟨rfl, fun hnone => absurd hnone (Option.some_ne_none e)⟩
  · rw [hf, hg]
    exact hrest halike

theorem Unmoved.agrees_replacing (h : Unmoved f p g) (bytes : ByteArray) :
    Agrees (f.steps (replacing p bytes)) (g.steps (replacing p bytes)) :=
  h.agrees_steps bytes fun halike => halike.agrees_rename _ _

/-- Nothing has come into the way of the file. -/
theorem Unmoved.way (h : Unmoved f p g)
    (hway : ∃ bytes made, f.steps (replacing p bytes) = (made, none)) :
    ∃ bytes made, g.steps (replacing p bytes) = (made, none) := by
  obtain ⟨bytes, made, hmade⟩ := hway
  obtain ⟨hfault, -⟩ := h.agrees_replacing bytes
  rw [hmade] at hfault
  exact ⟨bytes, _, Prod.ext rfl hfault.symm⟩

/-- The directories on the way are not made twice. -/
theorem Unmoved.steady (h : Unmoved f p g) (hsteady : f.Steady p) : g.Steady p := by
  rcases h.begun with rfl | ⟨f', -, hbegun⟩
  · exact hsteady
  · intro g' hmade
    rw [hbegun.way] at hmade
    cases hmade
    rfl

theorem Unmoved.rooted (h : Unmoved f p g) (hrooted : f.Rooted) : g.Rooted := by
  cases h with
  | before => exact hrooted
  | made hmade => exact hrooted.makeDirectories hmade
  | beside hmade hwrite =>
    obtain ⟨draft, -, hother, hparent, rfl⟩ := write_eq_ok_iff.mp hwrite
    exact (hrooted.makeDirectories hmade).set hparent fun hdir => absurd hdir hother

end Files

namespace Workflow.Store

open Toolkit (filed rooted_filed relayed recordable_relayed whole_relayed)

variable {files g : Files} {path : Path} {runs kept : List Run} {r : Run}

/-- What is read from a file decides about its runs. -/
theorem runs_of_read_eq (h : g.read path = files.read path) :
    Store.runs g (.file path) = Store.runs files (.file path) := by
  unfold Store.runs
  dsimp only
  rw [h]

/-! Saving, step by step. -/

theorem saving_cases (path : Path) (runs : List Run) :
    (∃ f, saving path runs = ([.makeDirectories path.parent], some f)) ∨
      saving path runs = ([.makeDirectories path.parent, .write (path.extend ".tmp") .empty],
        some .halved) ∨
      ∃ bytes, saving path runs = (Files.replacing path bytes, none) := by
  unfold saving
  cases fileText runs with
  | error f => exact Or.inl ⟨f, rfl⟩
  | ok s =>
    dsimp only
    split
    · exact Or.inr (Or.inl rfl)
    · exact Or.inr (Or.inr ⟨s.toUTF8, rfl⟩)

theorem save_of_saving {steps : List FileStep} {early : Option StoreFault}
    (h : saving path runs = (steps, early)) : save files path runs =
      ((files.steps steps).1, ((files.steps steps).2.map .file).or early) := by
  unfold save
  rw [h]
  dsimp only
  rcases files.steps steps with ⟨made, _ | f⟩ <;> rfl

/-- Wherever a save stops, the file has not been moved to its place, or the runs are saved. -/
theorem unmoved_or_saved (h : Files.Stopped files (saving path runs).1 g) :
    Files.Unmoved files path g ∨ save files path runs = (g, none) := by
  rcases saving_cases path runs with ⟨f, hsaving⟩ | hsaving | ⟨bytes, hsaving⟩
  · rw [hsaving] at h
    cases h with
    | here => exact Or.inl .before
    | behind hmade hrest =>
      obtain rfl := Files.stopped_nil_iff.mp hrest
      exact Or.inl (.made hmade)
  · rw [hsaving] at h
    cases h with
    | here => exact Or.inl .before
    | behind hmade hrest =>
      cases hrest with
      | here => exact Or.inl (.made hmade)
      | amid length hwrite => exact Or.inl (.beside hmade hwrite)
      | behind hwrite hrest =>
        obtain rfl := Files.stopped_nil_iff.mp hrest
        exact Or.inl (.beside hmade hwrite)
  · rw [hsaving] at h
    refine (Files.unmoved_or_replaced h).imp_right fun hsteps => ?_
    rw [save_of_saving hsaving, hsteps]
    rfl

/-- A put that fails has not moved the file to its place. -/
theorem unmoved_of_put {f : StoreFault} (h : (put files r (.file path)).fault? = some f) :
    Files.Unmoved files path (put files r (.file path)).files := by
  rcases hruns : (Store.runs files (.file path)).outcome with ⟨_ | kept, records⟩
  · unfold put
    dsimp only
    rw [hruns]
    exact .before
  · have hstop : Files.Stopped files (saving path (replaceFirst r kept)).1
        (save files path (replaceFirst r kept)).1 := by
      rw [save_of_saving rfl]
      exact Files.stopped_steps ..
    rcases unmoved_or_saved hstop with hunmoved | hsaved
    · unfold put
      dsimp only
      rw [hruns]
      exact hunmoved
    · rw [put_file_of_save (by rw [hruns]) hsaved] at h
      cases h

/-- A file in a directory that may have to be made. -/
def inner : Path := ⟨false, ["state", "runs.json"]⟩

/-- A way to a file through a directory that may be missing. -/
def turning : Path := ⟨false, ["state", "..", "runs"]⟩

end Workflow.Store

end Runbook
