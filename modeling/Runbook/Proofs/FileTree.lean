import Mathlib.Data.List.Induction
import Runbook.Files
import Runbook.Proofs.Success

/-!
Files as a tree. Where every entry lies in a directory, nothing lies below a file, and what is
written or moved takes no directory away. A path depends on directories alone, so it leads to the
same location afterwards, and a file that was moved to a path is read there.
-/
namespace Runbook.Files

variable {f g : Files} {location other : Location} {content : Content}

theorem find?_store (entries : List (Location × Content)) :
    find? other (store location content entries) =
      if location = other then some content else find? other entries := by
  induction entries with
  | nil => rfl
  | cons e rest ih =>
    by_cases hfirst : e.1 = location
    · by_cases hother : location = other <;> simp [store, find?, hfirst, hother]
    · rw [store, if_neg hfirst, find?, find?, ih]
      by_cases hother : e.1 = other
      · rw [if_pos hother, if_pos hother, if_neg fun h => hfirst (hother.trans h.symm)]
      · rw [if_neg hother, if_neg hother]

theorem find?_filter {entries : List (Location × Content)} :
    find? other (entries.filter fun e => !location.isPrefixOf e.1) =
      if location.isPrefixOf other then none else find? other entries := by
  induction entries with
  | nil => simp [find?]
  | cons e rest ih =>
    rw [List.filter_cons]
    by_cases hfirst : e.1 = other
    · rw [hfirst, find?, if_pos hfirst]
      by_cases hbelow : location.isPrefixOf other = true
      · rw [if_pos hbelow, hbelow, if_neg (by decide), ih, if_pos hbelow]
      · rw [if_neg hbelow, Bool.eq_false_iff.mpr hbelow, Bool.not_false, if_pos rfl, find?,
          if_pos hfirst]
    · rw [find?, if_neg hfirst]
      split
      · rw [find?, if_neg hfirst, ih]
      · exact ih

@[simp] theorem at?_root (f : Files) : f.at? [] = some .directory := rfl

theorem at?_set (hroot : other ≠ []) : (f.set location content).at? other =
    if location = other then some content else f.at? other := by
  unfold at? set
  rw [List.isEmpty_eq_false_iff.mpr hroot]
  exact find?_store f.entries

theorem at?_remove (hroot : other ≠ []) : (f.remove location).at? other =
    if location.isPrefixOf other then none else f.at? other := by
  unfold at? remove
  rw [List.isEmpty_eq_false_iff.mpr hroot]
  exact find?_filter

/-- Every entry lies in a directory. -/
def Rooted (f : Files) : Prop :=
  ∀ location, (f.at? location).isSome → f.at? location.dropLast = some .directory

/-- Nothing lies below a file. -/
theorem Rooted.eq_of_prefix (h : f.Rooted) {bytes : ByteArray}
    (hfile : f.at? location = some (.file bytes)) (hbelow : location <+: other)
    (hsome : (f.at? other).isSome) : location = other := by
  obtain ⟨rest, rfl⟩ := hbelow
  induction rest using List.reverseRecOn with
  | nil => exact (List.append_nil _).symm
  | append_singleton rest name ih =>
    have hparent := h _ hsome
    rw [← List.append_assoc, List.dropLast_concat] at hparent
    rw [← ih (by rw [hparent]; rfl), hfile] at hparent
    cases hparent

/-! What takes no directory away. -/

/-- What is a directory in the first files is one in the second. -/
structure Grown (f g : Files) : Prop where
  base : g.base = f.base
  directories : ∀ location, f.at? location = some .directory → g.at? location = some .directory

theorem Grown.trans {f' : Files} (h : Grown f f') (h' : Grown f' g) : Grown f g :=
  ⟨h'.base.trans h.base, fun location hdir => h'.directories location (h.directories location hdir)⟩

theorem grown_set (h : f.at? location = some .directory → content = .directory) :
    Grown f (f.set location content) := by
  refine ⟨rfl, fun other hdir => ?_⟩
  by_cases hroot : other = []
  · rw [hroot]
    rfl
  · rw [at?_set hroot]
    split
    · rename_i hsame
      rw [h (hsame ▸ hdir)]
    · exact hdir

/-- Taking a file away takes no directory away. -/
theorem Rooted.grown_remove (h : f.Rooted) {bytes : ByteArray}
    (hfile : f.at? location = some (.file bytes)) : Grown f (f.remove location) := by
  refine ⟨rfl, fun other hdir => ?_⟩
  by_cases hroot : other = []
  · rw [hroot]
    rfl
  · rw [at?_remove hroot, if_neg, hdir]
    intro hbelow
    have hsame := h.eq_of_prefix hfile (List.isPrefixOf_iff_prefix.mp hbelow) (by rw [hdir]; rfl)
    rw [hsame, hdir] at hfile
    cases hfile

theorem Rooted.set (h : f.Rooted) (hparent : f.at? location.dropLast = some .directory)
    (hcontent : f.at? location = some .directory → content = .directory) :
    (f.set location content).Rooted := by
  intro other hsome
  refine (grown_set hcontent).directories _ ?_
  by_cases hroot : other = []
  · rw [hroot]
    rfl
  · rw [at?_set hroot] at hsome
    split at hsome
    · rename_i hsame
      rw [← hsame]
      exact hparent
    · exact h other hsome

theorem Rooted.remove (h : f.Rooted) {bytes : ByteArray}
    (hfile : f.at? location = some (.file bytes)) : (f.remove location).Rooted := by
  intro other hsome
  refine (h.grown_remove hfile).directories _ ?_
  by_cases hroot : other = []
  · rw [hroot]
    rfl
  · rw [at?_remove hroot] at hsome
    split at hsome
    · cases hsome
    · exact h other hsome

/-! Where paths lead. -/

/-- A path leads to the same location where no directory was taken away. -/
theorem follow_grown (h : Grown f g) {start : Location} {names : List String}
    (hfollow : f.follow start names = .ok location) : g.follow start names = .ok location := by
  induction names generalizing start with
  | nil => exact hfollow
  | cons name rest ih =>
    unfold follow at hfollow ⊢
    split at hfollow
    · cases hfollow
    · cases hfollow
    · rename_i hdir
      rw [h.directories _ hdir]
      dsimp only
      split at hfollow
      · cases hfollow
      · rename_i hshort
        rw [if_neg hshort]
        exact ih hfollow

theorem locate_grown (h : Grown f g) {p : Path} (hlocate : f.locate p = .ok location) :
    g.locate p = .ok location := by
  unfold locate at hlocate ⊢
  rw [h.base]
  split at hlocate
  · cases hlocate
  · rename_i hzero
    rw [if_neg hzero]
    split at hlocate
    · cases hlocate
    · rename_i hhalved
      rw [if_neg hhalved]
      exact follow_grown h hlocate

theorem follow_of_locate {p : Path} (h : f.locate p = .ok location) :
    f.follow (if p.absolute then [] else f.base) p.names = .ok location := by
  unfold locate at h
  split at h
  · cases h
  · split at h
    · cases h
    · exact h

theorem at?_of_follow_cons {start : Location} {name : String} {rest : List String}
    (h : f.follow start (name :: rest) = .ok location) : f.at? start = some .directory := by
  unfold follow at h
  split at h
  · cases h
  · cases h
  · assumption

/-- A path of some names leads into a directory. -/
theorem Rooted.at?_dropLast_of_follow (h : f.Rooted) {start : Location} {names : List String}
    (hnames : names ≠ []) (hfollow : f.follow start names = .ok location) :
    f.at? location.dropLast = some .directory := by
  induction names generalizing start with
  | nil => exact absurd rfl hnames
  | cons name rest ih =>
    unfold follow at hfollow
    split at hfollow
    · cases hfollow
    · cases hfollow
    · rename_i hdir
      split at hfollow
      · cases hfollow
      · cases rest with
        | nil =>
          cases hfollow
          split
          · exact h _ (by rw [h _ (by rw [hdir]; rfl)]; rfl)
          · rw [List.dropLast_concat]
            exact hdir
        | cons => exact ih (List.cons_ne_nil _ _) hfollow

/-! Steps. -/

theorem Rooted.makeDirectory (h : f.Rooted) {p : Path} (hmade : f.makeDirectory p = .ok g) :
    g.Rooted := by
  obtain ⟨location, -, hmade⟩ := bind_eq_ok_iff.mp hmade
  split at hmade
  · cases hmade
  · split at hmade
    · rename_i hparent
      cases hmade
      exact h.set hparent fun _ => rfl
    · cases hmade

section Keeps

variable {P : Files → Prop}

theorem ensureDirectory_keeps {p : Path} (hmake : ∀ {g}, f.makeDirectory p = .ok g → P g) (h : P f)
    (hmade : f.ensureDirectory p = .ok g) : P g := by
  unfold Files.ensureDirectory at hmade
  split at hmade
  · rename_i hfirst
    cases hmade
    exact hmake hfirst
  · split at hmade
    · cases hmade
      exact h
    · cases hmade

/-- What it keeps to make one directory or any above it, it keeps to make them all. -/
theorem makeDirectories_keeps {absolute : Bool} {names : List String}
    (hmake : ∀ {f g : Files} {above : List String}, above <+: names → P f →
      f.makeDirectory ⟨absolute, above⟩ = .ok g → P g)
    (h : P f) (hmade : f.makeDirectories absolute names = .ok g) : P g := by
  have hlast : ∀ {f g : Files}, P f → f.ensureDirectory ⟨absolute, names⟩ = .ok g → P g :=
    fun h hmade => ensureDirectory_keeps (hmake (List.prefix_refl names) h) h hmade
  induction hlength : names.length generalizing names f g with
  | zero =>
    obtain rfl := List.length_eq_zero_iff.mp hlength
    unfold Files.makeDirectories at hmade
    split at hmade
    · cases hmade
    · exact hlast h hmade
  | succ n ih =>
    unfold Files.makeDirectories at hmade
    split at hmade
    · split at hmade
      · cases hmade
      · obtain ⟨f', habove, hmade⟩ := bind_eq_ok_iff.mp hmade
        have hmake' : ∀ {f g : Files} {above : List String}, above <+: names.dropLast → P f →
            f.makeDirectory ⟨absolute, above⟩ = .ok g → P g :=
          fun hfirst => hmake (hfirst.trans (List.dropLast_prefix names))
        have habove : P f' := ih hmake' h habove
          (fun h hmade => ensureDirectory_keeps (hmake' (List.prefix_refl _) h) h hmade)
          (by rw [List.length_dropLast, hlength]; rfl)
        exact hlast habove hmade
    · exact hlast h hmade

end Keeps

theorem Rooted.makeDirectories (h : f.Rooted) {absolute : Bool} {names : List String}
    (hmade : f.makeDirectories absolute names = .ok g) : g.Rooted :=
  makeDirectories_keeps (P := Rooted) (fun _ h hmade => h.makeDirectory hmade) h hmade

theorem isDirectory_iff {p : Path} : f.isDirectory p = true ↔
    ∃ location, f.locate p = .ok location ∧ f.at? location = some .directory := by
  unfold isDirectory content?
  cases f.locate p with
  | error e => simp
  | ok location => cases hat : f.at? location with
    | none => simp [hat]
    | some c => cases c <;> simp [hat]

/-- A directory that was made, unless there was one, is there. -/
theorem isDirectory_of_ensureDirectory {p : Path} (hmade : f.ensureDirectory p = .ok g) :
    g.isDirectory p = true := by
  unfold Files.ensureDirectory at hmade
  split at hmade
  · rename_i made hfirst
    cases hmade
    obtain ⟨location, hlocation, hfirst⟩ := bind_eq_ok_iff.mp hfirst
    split at hfirst
    · cases hfirst
    · rename_i hfree
      split at hfirst
      · cases hfirst
        have hroot : location ≠ [] := fun hnil => hfree (Or.inr (by rw [hnil]; rfl))
        refine isDirectory_iff.mpr ⟨location, locate_grown (grown_set fun _ => rfl) hlocation, ?_⟩
        rw [at?_set hroot, if_pos rfl]
      · cases hfirst
  · split at hmade
    · cases hmade
      assumption
    · cases hmade

theorem isDirectory_of_makeDirectories {absolute : Bool} {names : List String}
    (hmade : f.makeDirectories absolute names = .ok g) :
    g.isDirectory ⟨absolute, names⟩ = true := by
  unfold Files.makeDirectories at hmade
  split at hmade
  · split at hmade
    · cases hmade
    · obtain ⟨f', -, hmade⟩ := bind_eq_ok_iff.mp hmade
      exact isDirectory_of_ensureDirectory hmade
  · exact isDirectory_of_ensureDirectory hmade

/-- Where there is a directory none is made. -/
theorem makeDirectories_of_isDirectory {absolute : Bool} {names : List String}
    (h : f.isDirectory ⟨absolute, names⟩ = true) : f.makeDirectories absolute names = .ok f := by
  obtain ⟨location, hlocation, hdir⟩ := isDirectory_iff.mp h
  have hthere : f.makeDirectory ⟨absolute, names⟩ = .error .exists := by
    unfold makeDirectory
    rw [hlocation]
    exact if_pos (Or.inr (by rw [hdir]; rfl))
  unfold Files.makeDirectories
  rw [hthere]
  unfold Files.ensureDirectory
  rw [hthere]
  exact if_pos h

/-- A file is written into a directory, and not over one. -/
theorem write_eq_ok_iff {p : Path} {bytes : ByteArray} : f.write p bytes = .ok g ↔
    ∃ location, f.locate p = .ok location ∧ f.at? location ≠ some .directory ∧
      f.at? location.dropLast = some .directory ∧ g = f.set location (.file bytes) := by
  unfold write
  rw [bind_eq_ok_iff]
  refine exists_congr fun location => and_congr_right fun _ => ?_
  constructor
  · intro h
    split at h
    · cases h
    · rename_i hparent hother
      cases h
      exact ⟨hother, hparent, rfl⟩
    · cases h
    · cases h
  · rintro ⟨hother, hparent, rfl⟩
    split
    · rename_i hdir
      exact absurd hdir hother
    · rfl
    · rename_i hfile _
      rw [hparent] at hfile
      cases hfile
    · rename_i hnone _
      rw [hparent] at hnone
      cases hnone

/-- A file is moved, and not over a directory. -/
theorem rename_eq_ok_iff {source target : Path} : f.rename source target = .ok g ↔
    ∃ location place bytes, f.locate source = .ok location ∧ f.locate target = .ok place ∧
      f.at? location = some (.file bytes) ∧ f.at? place ≠ some .directory ∧
      g = (f.remove location).set place (.file bytes) := by
  unfold rename
  simp only [bind_eq_ok_iff]
  constructor
  · rintro ⟨location, hlocation, place, hplace, h⟩
    split at h
    · cases h
    · rename_i bytes hbytes hother
      cases h
      exact ⟨location, place, bytes, hlocation, hplace, hbytes, hother, rfl⟩
    · cases h
  · rintro ⟨location, place, bytes, hlocation, hplace, hbytes, hother, rfl⟩
    refine ⟨location, hlocation, place, hplace, ?_⟩
    rw [hbytes]
    split
    · rename_i hdir
      exact absurd hdir hother
    · rename_i hsame _
      cases hsame
      rfl
    · rename_i hno _
      exact absurd rfl (hno bytes)

theorem steps_cons_eq_iff {s : FileStep} {rest : List FileStep} :
    f.steps (s :: rest) = (g, none) ↔ ∃ f', f.step s = .ok f' ∧ f'.steps rest = (g, none) := by
  rw [steps]
  cases f.step s with
  | ok f' => simp
  | error e => simp

theorem steps_nil_eq_iff : f.steps [] = (g, none) ↔ f = g := by
  simp [steps]

/-- Steps that put a file in its place: it is written beside it and then moved. -/
def replacing (p : Path) (bytes : ByteArray) : List FileStep :=
  [.makeDirectories p.parent, .write (p.extend ".tmp") bytes, .rename (p.extend ".tmp") p]

theorem steps_replacing_iff {p : Path} {bytes : ByteArray} :
    f.steps (replacing p bytes) = (g, none) ↔
      ∃ f', f.makeDirectories p.absolute p.parent.names = .ok f' ∧
        ∃ draft place, f'.locate (p.extend ".tmp") = .ok draft ∧
          f'.at? draft ≠ some .directory ∧ f'.at? draft.dropLast = some .directory ∧
          (f'.set draft (.file bytes)).locate p = .ok place ∧ f'.at? place ≠ some .directory ∧
          g = ((f'.set draft (.file bytes)).remove draft).set place (.file bytes) := by
  unfold replacing
  simp only [steps_cons_eq_iff, steps_nil_eq_iff, step, write_eq_ok_iff, rename_eq_ok_iff]
  refine exists_congr fun f' => and_congr_right fun _ => ?_
  have hkept : ∀ {draft place : Location}, f'.at? draft ≠ some .directory →
      ((f'.set draft (.file bytes)).at? place = some .directory ↔
        f'.at? place = some .directory) := by
    intro draft place hother
    by_cases hroot : place = []
    · rw [hroot]
      exact Iff.rfl
    · rw [at?_set hroot]
      split
      · rename_i hsame
        rw [← hsame]
        exact ⟨nofun, fun hdir => absurd hdir hother⟩
      · exact Iff.rfl
  have hfound : ∀ {draft : Location}, f'.at? draft ≠ some .directory →
      (f'.set draft (.file bytes)).at? draft = some (.file bytes) := by
    intro draft hother
    have hroot : draft ≠ [] := fun hnil => hother (by rw [hnil]; rfl)
    rw [at?_set hroot, if_pos rfl]
  constructor
  · rintro ⟨_, ⟨draft, hdraft, hother, hparent, rfl⟩, _, ⟨location, place, found, hlocation, hplace,
      hat, hfree, rfl⟩, hdone⟩
    have hgrown : Grown f' (f'.set draft (.file bytes)) :=
      grown_set fun hdir => absurd hdir hother
    rw [locate_grown hgrown hdraft] at hlocation
    cases hlocation
    rw [hfound hother] at hat
    cases hat
    cases hdone
    exact ⟨draft, place, hdraft, hother, hparent, hplace,
      fun hdir => hfree ((hkept hother).mpr hdir), rfl⟩
  · rintro ⟨draft, place, hdraft, hother, hparent, hplace, hfree, rfl⟩
    refine ⟨_, ⟨draft, hdraft, hother, hparent, rfl⟩, _, ⟨draft, place, bytes, ?_, hplace,
      hfound hother, fun hdir => hfree ((hkept hother).mp hdir), rfl⟩, rfl⟩
    exact locate_grown (grown_set fun hdir => absurd hdir hother) hdraft

/-- Whether a file can be put in its place does not depend on what it holds. -/
theorem steps_replacing_of_other {p : Path} {bytes bytes' : ByteArray}
    (h : f.steps (replacing p bytes) = (g, none)) :
    ∃ g', f.steps (replacing p bytes') = (g', none) := by
  obtain ⟨f', hmade, draft, place, hdraft, hother, hparent, hplace, hfree, -⟩ :=
    steps_replacing_iff.mp h
  have hgrown : Grown (f'.set draft (.file bytes)) (f'.set draft (.file bytes')) := by
    refine ⟨rfl, fun location hdir => ?_⟩
    by_cases hroot : location = []
    · rw [hroot]
      rfl
    · rw [at?_set hroot] at hdir ⊢
      split at hdir
      · cases hdir
      · rename_i hne
        rw [if_neg hne]
        exact hdir
  exact ⟨_, steps_replacing_iff.mpr ⟨f', hmade, draft, place, hdraft, hother, hparent,
    locate_grown hgrown hplace, hfree, rfl⟩⟩

/-- What there is when a file was put in its place: the directories that were there before or had
to be made, the file, and nothing where it was written first. -/
structure Replaced (f g : Files) (p : Path) (bytes : ByteArray) : Prop where
  rooted : g.Rooted
  made : ∃ f', f.makeDirectories p.absolute p.parent.names = .ok f' ∧ Grown f' g
  file : ∃ place, g.locate p = .ok place ∧ g.at? place = some (.file bytes)
  draft : ∃ draft, g.locate (p.extend ".tmp") = .ok draft ∧ g.at? draft ≠ some .directory ∧
    g.at? draft.dropLast = some .directory

theorem Rooted.replaced (h : f.Rooted) {p : Path} {bytes : ByteArray}
    (hsteps : f.steps (replacing p bytes) = (g, none)) : Replaced f g p bytes := by
  obtain ⟨f', hmade, draft, place, hdraft, hother, hparent, hplace, hfree, rfl⟩ :=
    steps_replacing_iff.mp hsteps
  have hrooted := h.makeDirectories hmade
  have hwritten : (f'.set draft (.file bytes)).Rooted :=
    hrooted.set hparent fun hdir => absurd hdir hother
  have hdraftRoot : draft ≠ [] := fun hnil => hother (by rw [hnil]; rfl)
  have hroot : place ≠ [] := fun hnil => hfree (by rw [hnil]; rfl)
  have hfile : (f'.set draft (.file bytes)).at? draft = some (.file bytes) := by
    rw [at?_set hdraftRoot, if_pos rfl]
  have hremoved := hwritten.grown_remove hfile
  have hopen : (f'.set draft (.file bytes)).at? place.dropLast = some .directory := by
    have hfollow := follow_of_locate hplace
    by_cases hnames : p.names = []
    · -- a path of no names leads to a directory, over which nothing is moved
      rw [hnames] at hfollow
      cases hfollow
      have hstart : f'.at? (if p.absolute then [] else f'.base) = some .directory := by
        have hfollow := follow_of_locate hdraft
        unfold Path.extend at hfollow
        rw [hnames] at hfollow
        exact at?_of_follow_cons hfollow
      exact absurd hstart hfree
    · exact hwritten.at?_dropLast_of_follow hnames hfollow
  have hfreed : ((f'.set draft (.file bytes)).remove draft).at? place ≠ some .directory := by
    rw [at?_remove hroot]
    split
    · nofun
    · rw [at?_set hroot]
      split
      · nofun
      · exact hfree
  have hmoved : Grown ((f'.set draft (.file bytes)).remove draft)
      (((f'.set draft (.file bytes)).remove draft).set place (.file bytes)) :=
    grown_set fun hdir => absurd hdir hfreed
  have hgrown := (grown_set fun hdir => absurd hdir hother).trans (hremoved.trans hmoved)
  refine ⟨(hwritten.remove hfile).set (hremoved.directories _ hopen) fun hdir => absurd hdir hfreed,
    ⟨f', hmade, hgrown⟩, ⟨place, locate_grown (hremoved.trans hmoved) hplace, ?_⟩,
    ⟨draft, locate_grown hgrown hdraft, ?_, hgrown.directories _ hparent⟩⟩
  · rw [at?_set hroot, if_pos rfl]
  · rw [at?_set hdraftRoot, at?_remove hdraftRoot,
      if_pos (List.isPrefixOf_iff_prefix.mpr (List.prefix_refl draft))]
    split <;> nofun

/-- A file that was put in its place is read there. -/
theorem Rooted.read_replacing (h : f.Rooted) {p : Path} {bytes : ByteArray}
    (hsteps : f.steps (replacing p bytes) = (g, none)) : g.Rooted ∧ g.read p = .ok bytes := by
  obtain ⟨hrooted, -, ⟨place, hplace, hfile⟩, -⟩ := h.replaced hsteps
  refine ⟨hrooted, bind_eq_ok_iff.mpr ⟨place, hplace, ?_⟩⟩
  rw [hfile]
  rfl

/-- Where a file was put in its place, another one can be put there. -/
theorem Rooted.steps_replacing_again (h : f.Rooted) {p : Path} {bytes bytes' : ByteArray}
    (hsteps : f.steps (replacing p bytes) = (g, none)) :
    ∃ g', g.steps (replacing p bytes') = (g', none) := by
  obtain ⟨-, ⟨f', hmade, hgrown⟩, ⟨place, hplace, hfile⟩, draft, hdraft, hother, hparent⟩ :=
    h.replaced hsteps
  obtain ⟨location, hlocation, hdir⟩ := isDirectory_iff.mp (isDirectory_of_makeDirectories hmade)
  have hthere : g.isDirectory ⟨p.absolute, p.parent.names⟩ = true :=
    isDirectory_iff.mpr ⟨location, locate_grown hgrown hlocation, hgrown.directories _ hdir⟩
  have hwritten : Grown g (g.set draft (.file bytes')) :=
    grown_set fun hdir => absurd hdir hother
  refine ⟨_, steps_replacing_iff.mpr ⟨g, makeDirectories_of_isDirectory hthere, draft, place,
    hdraft, hother, hparent, locate_grown hwritten hplace, ?_, rfl⟩⟩
  rw [hfile]
  nofun

end Runbook.Files
