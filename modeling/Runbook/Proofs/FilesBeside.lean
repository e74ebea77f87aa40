import Mathlib.Data.List.Basic
import Runbook.Proofs.FileTree

/-!
What stands at a path while a file is written beside it. The file beside never is the one at the
path, so it changes nothing of what is read there, and neither do the directories that are made on
the way where the path leads somewhere already. A path that turns back is the exception: a directory
that is made on the way may bring a file into view that could not be reached before.
-/
namespace Runbook

/-- A path that does not turn back, with a name at its end, and with names that are not too long. -/
structure Path.Onward (p : Path) : Prop where
  named : p.names ≠ []
  onward : ".." ∉ p.names
  short : ∀ name ∈ p.names, name.utf8ByteSize ≤ Files.nameLimit

namespace Files

variable {f f' g : Files} {p : Path} {location place draft start : Location} {bytes : ByteArray}

/-! Trees that hold the same. -/

/-- The same entries, and the same place to start from. -/
structure Alike (f g : Files) : Prop where
  base : g.base = f.base
  at? : ∀ location, g.at? location = f.at? location

theorem Alike.refl (f : Files) : Alike f f := ⟨rfl, fun _ => rfl⟩

theorem Alike.symm (h : Alike f g) : Alike g f :=
  ⟨h.base.symm, fun location => (h.at? location).symm⟩

theorem Alike.trans (h : Alike f f') (h' : Alike f' g) : Alike f g :=
  ⟨h'.base.trans h.base, fun location => (h'.at? location).trans (h.at? location)⟩

theorem Alike.follow (h : Alike f g) (start : Location) (names : List String) :
    g.follow start names = f.follow start names := by
  induction names generalizing start with
  | nil => rfl
  | cons name rest ih =>
    unfold Files.follow
    rw [h.at? start]
    split
    · rfl
    · rfl
    · split
      · rfl
      · exact ih _

theorem Alike.locate (h : Alike f g) (p : Path) : g.locate p = f.locate p := by
  unfold Files.locate
  rw [h.base, h.follow]

theorem Alike.read (h : Alike f g) (p : Path) : g.read p = f.read p := by
  unfold Files.read
  rw [h.locate]
  exact bind_congr fun location => by rw [h.at?]

/-! The file beside a path. -/

theorem follow_append (start : Location) (before after : List String) :
    f.follow start (before ++ after) = f.follow start before >>= fun l => f.follow l after := by
  induction before generalizing start with
  | nil => rfl
  | cons name rest ih =>
    rw [List.cons_append, follow.eq_2, follow.eq_2]
    split
    · rfl
    · rfl
    · split
      · rfl
      · exact ih _

theorem follow_singleton_eq_ok_iff {name : String} : f.follow start [name] = .ok location ↔
    f.at? start = some .directory ∧ name.utf8ByteSize ≤ nameLimit ∧
      location = if name = ".." then start.dropLast else start ++ [name] := by
  rw [follow.eq_2]
  split
  · rename_i hnone
    simp [hnone]
  · rename_i hfile
    simp [hfile]
  · rename_i hdir
    rw [hdir]
    by_cases hlong : nameLimit < name.utf8ByteSize
    · rw [if_pos hlong]
      exact iff_of_false (by simp) fun h => Nat.not_le.mpr hlong h.2.1
    · rw [if_neg hlong, follow.eq_1, Except.ok.injEq, eq_comm]
      exact ⟨fun h => ⟨rfl, Nat.not_lt.mp hlong, h⟩, fun h => h.2.2⟩

/-- What a name can hold. -/
def Writes (name : String) : Prop := '\x00' ∉ name.toList ∧ Text.hasHalves name = false

theorem locate_of_writes (h : ∀ name ∈ p.names, Writes name) :
    f.locate p = f.follow (if p.absolute then [] else f.base) p.names := by
  unfold locate
  rw [if_neg, if_neg]
  · simpa using fun name hname => (h name hname).2
  · simpa using fun name hname => (h name hname).1

/-- A name that no file can have is refused whatever files there are. -/
theorem locate_of_not_writes (h : ¬ ∀ name ∈ p.names, Writes name) :
    ∃ fault, ∀ f : Files, f.locate p = .error fault := by
  by_cases hzero : (p.names.any fun name => name.toList.contains '\x00') = true
  · exact ⟨.zero, fun f => if_pos hzero⟩
  · refine ⟨.halved, fun f => (if_neg hzero).trans (if_pos ?_)⟩
    by_contra hhalves
    rw [Bool.not_eq_true, List.any_eq_false] at hzero hhalves
    refine h fun name hname => ⟨fun hmem => hzero name hname (List.contains_iff_mem.mpr hmem), ?_⟩
    exact Bool.eq_false_iff.mpr (hhalves name hname)

theorem locate_eq_ok_iff : f.locate p = .ok location ↔ (∀ name ∈ p.names, Writes name) ∧
    f.follow (if p.absolute then [] else f.base) p.names = .ok location := by
  by_cases hwrites : ∀ name ∈ p.names, Writes name
  · rw [locate_of_writes hwrites, and_iff_right hwrites]
  · obtain ⟨fault, hfault⟩ := locate_of_not_writes hwrites
    rw [hfault]
    exact ⟨nofun, fun h => absurd h.1 hwrites⟩

theorem writes_append {name more : String} :
    Writes (name ++ more) ↔ Writes name ∧ Writes more := by
  unfold Writes Text.hasHalves
  rw [String.toList_append, List.mem_append, List.any_append, Bool.or_eq_false_iff]
  tauto

/-- Where a file can be written beside a path, the path leads to another place. -/
theorem exists_place_of_locate_extend (h : f.locate (p.extend ".tmp") = .ok draft) :
    ∃ place, f.locate p = .ok place ∧ place ≠ draft := by
  obtain ⟨hwrites, hfollow⟩ := locate_eq_ok_iff.mp h
  obtain ⟨absolute, names⟩ := p
  unfold Path.extend Path.name at hwrites hfollow
  dsimp only at hwrites hfollow
  rw [follow_append, bind_eq_ok_iff] at hfollow
  obtain ⟨directory, hparent, hlast⟩ := hfollow
  obtain ⟨hdir, hshort, hdraft⟩ := follow_singleton_eq_ok_iff.mp hlast
  have hname : ∀ name : String, name ++ ".tmp" ≠ ".." := by
    intro name hsame
    have hlength := congrArg String.length hsame
    rw [String.length_append] at hlength
    change name.length + 4 = 2 at hlength
    omega
  rw [if_neg (hname _)] at hdraft
  rcases List.eq_nil_or_concat' names with rfl | ⟨parent, name, rfl⟩
  · cases hparent
    refine ⟨_, locate_eq_ok_iff.mpr ⟨nofun, rfl⟩, fun hsame => ?_⟩
    rw [hdraft] at hsame
    exact absurd (congrArg List.length hsame) (by simp)
  · rw [List.dropLast_concat] at hwrites hparent
    rw [List.getLast?_concat, Option.getD_some] at hwrites hdraft hshort
    have hwritten : ∀ n ∈ parent ++ [name], Writes n := by
      intro n hn
      rcases List.mem_append.mp hn with hn | hn
      · exact hwrites n (List.mem_append_left _ hn)
      · rw [List.mem_singleton.mp hn]
        exact (writes_append.mp (hwrites _ (List.mem_append_right _ (List.mem_singleton_self _)))).1
    have hshort' : name.utf8ByteSize ≤ nameLimit := by
      rw [String.utf8ByteSize_append] at hshort
      exact Nat.le_trans (Nat.le_add_right _ _) hshort
    have hfollow : f.follow (if absolute then [] else f.base) (parent ++ [name]) =
        .ok (if name = ".." then directory.dropLast else directory ++ [name]) := by
      rw [follow_append, hparent]
      exact follow_singleton_eq_ok_iff.mpr ⟨hdir, hshort', rfl⟩
    refine ⟨_, locate_eq_ok_iff.mpr ⟨hwritten, hfollow⟩, fun hsame => ?_⟩
    rw [hdraft] at hsame
    split at hsame
    · have hlength := congrArg List.length hsame
      rw [List.length_dropLast, List.length_append, List.length_singleton] at hlength
      omega
    · have hlength := congrArg String.length
        (List.singleton_inj.mp (List.append_cancel_left hsame))
      rw [String.length_append] at hlength
      change name.length = name.length + 4 at hlength
      omega

theorem read_eq_of_at? (hf : f.locate p = .ok location) (hg : g.locate p = .ok location)
    (hat : g.at? location = f.at? location) : g.read p = f.read p := by
  unfold Files.read
  rw [hf, hg]
  dsimp only [bind, Except.bind]
  rw [hat]

/-- A file that is written beside a path changes nothing at the path. -/
theorem read_set_beside (hdraft : f.locate (p.extend ".tmp") = .ok draft)
    (hother : f.at? draft ≠ some .directory) : (f.set draft (.file bytes)).read p = f.read p := by
  obtain ⟨place, hplace, hne⟩ := exists_place_of_locate_extend hdraft
  have hgrown : Grown f (f.set draft (.file bytes)) := grown_set fun hdir => absurd hdir hother
  refine read_eq_of_at? hplace (locate_grown hgrown hplace) ?_
  by_cases hroot : place = []
  · rw [hroot]
    rfl
  · rw [at?_set hroot, if_neg (Ne.symm hne)]

/-! The directories on the way. -/

/-- The second files have all that the first ones have. -/
structure Extends (f g : Files) : Prop where
  base : g.base = f.base
  kept : ∀ location, (f.at? location).isSome → g.at? location = f.at? location

theorem Extends.refl (f : Files) : Extends f f := ⟨rfl, fun _ _ => rfl⟩

theorem Extends.grown (h : Extends f g) : Grown f g := by
  refine ⟨h.base, fun location hdir => ?_⟩
  rw [h.kept location (by rw [hdir]; rfl), hdir]

theorem extends_makeDirectory (h : Extends f f') (hmade : f'.makeDirectory p = .ok g) :
    Extends f g := by
  obtain ⟨location, -, hmade⟩ := bind_eq_ok_iff.mp hmade
  split at hmade
  · cases hmade
  · rename_i hfree
    split at hmade
    · cases hmade
      refine ⟨h.base, fun other hsome => ?_⟩
      by_cases hroot : other = []
      · rw [hroot]
        rfl
      · rw [at?_set hroot, if_neg, h.kept other hsome]
        rintro rfl
        exact hfree (Or.inr (by rw [h.kept _ hsome]; exact hsome))
    · cases hmade

/-- To make directories takes nothing away. -/
theorem extends_makeDirectories {absolute : Bool} {names : List String}
    (hmade : f.makeDirectories absolute names = .ok g) : Extends f g :=
  makeDirectories_keeps (P := Extends f) (fun _ h hmade => extends_makeDirectory h hmade)
    (Extends.refl f) hmade

theorem Extends.read (h : Extends f g) (hread : f.read p = .ok bytes) : g.read p = .ok bytes := by
  obtain ⟨location, hlocation, hfile⟩ := bind_eq_ok_iff.mp hread
  refine bind_eq_ok_iff.mpr ⟨location, locate_grown h.grown hlocation, ?_⟩
  rw [h.kept location]
  · exact hfile
  · cases hat : f.at? location with
    | none =>
      rw [hat] at hfile
      cases hfile
    | some _ => rfl

/-- The directories that are made on the way to a path bring nothing into view there. -/
def Steady (f : Files) (p : Path) : Prop :=
  ∀ f', f.makeDirectories p.absolute p.parent.names = .ok f' → f'.read p = f.read p

/-- Where a file is read already, it is read still. -/
theorem steady_of_read (h : f.read p = .ok bytes) : f.Steady p := by
  intro f' hmade
  rw [h]
  exact (extends_makeDirectories hmade).read h

/-! Paths that do not turn back. -/

/-- What can be followed where there is more is followed where there is less, unless something is
missing. -/
theorem Extends.follow (h : Extends f g) {names : List String}
    (hfollow : g.follow start names = .ok location) :
    f.follow start names = .ok location ∨ f.follow start names = .error .missing := by
  induction names generalizing start with
  | nil => exact Or.inl hfollow
  | cons name rest ih =>
    rw [follow.eq_2] at hfollow ⊢
    cases hat : f.at? start with
    | none => exact Or.inr rfl
    | some content =>
      rw [h.kept start (by rw [hat]; rfl), hat] at hfollow
      cases content with
      | file bytes => cases hfollow
      | directory =>
        dsimp only at hfollow ⊢
        split at hfollow
        · cases hfollow
        · rename_i hshort
          rw [if_neg hshort]
          exact ih hfollow

end Files

end Runbook
