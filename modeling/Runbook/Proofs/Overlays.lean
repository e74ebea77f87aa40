import Mathlib.Data.List.Forall2
import Mathlib.Data.List.Lex
import Mathlib.Data.String.Basic
import Runbook.Proofs.FileTree
import Runbook.Proofs.Values
import Runbook.Resource.Overlay

/-!
What an overlay holds when it is loaded. In a tree, several files may hold a resource of one name,
and the last of them in the order of their paths counts. Of several trees, the last one that holds
the name counts, and what was there before counts where no tree holds it.
-/
namespace Runbook

namespace Files

variable {f : Files} {location : Location} {names : List String} {bytes : ByteArray}

/-- Every location has one entry. -/
def Distinct (f : Files) : Prop := (f.entries.map (·.1)).Nodup

theorem find?_eq_some_iff_mem {entries : List (Location × Content)}
    (h : (entries.map (·.1)).Nodup) {c : Content} :
    find? location entries = some c ↔ (location, c) ∈ entries := by
  induction entries with
  | nil => exact iff_of_false nofun List.not_mem_nil
  | cons e rest ih =>
    obtain ⟨hfirst, hrest⟩ := List.nodup_cons.mp h
    rw [find?, List.mem_cons]
    split
    · rename_i hsame
      constructor
      · rintro ⟨⟩
        exact Or.inl (by rw [← hsame])
      · rintro (heq | hmem)
        · rw [← heq]
        · exact absurd (List.mem_map_of_mem (f := (·.1)) hmem) (hsame ▸ hfirst)
    · rename_i hother
      rw [ih hrest]
      exact ⟨Or.inr, fun hmem => hmem.resolve_left fun heq => hother (by rw [← heq])⟩

theorem map_fst_store (location : Location) (content : Content)
    (entries : List (Location × Content)) : (store location content entries).map (·.1) =
      if location ∈ entries.map (·.1) then entries.map (·.1)
      else entries.map (·.1) ++ [location] := by
  induction entries with
  | nil => rfl
  | cons e rest ih =>
    by_cases hfirst : e.1 = location
    · simp [store, hfirst]
    · rw [store, if_neg hfirst, List.map_cons, ih, List.map_cons]
      by_cases hrest : location ∈ rest.map (·.1)
      · rw [if_pos hrest, if_pos (List.mem_cons_of_mem _ hrest)]
      · have hnew : location ∉ e.1 :: rest.map (·.1) := fun hmem =>
          (List.mem_cons.mp hmem).elim (fun h => hfirst h.symm) hrest
        rw [if_neg hrest, if_neg hnew, List.cons_append]

theorem Distinct.set {content : Content} (h : f.Distinct) : (f.set location content).Distinct := by
  unfold Distinct Files.set
  rw [map_fst_store]
  split
  · exact h
  · rename_i hnew
    exact List.Nodup.append h (List.nodup_singleton _)
      (List.disjoint_singleton.mpr hnew)

theorem Distinct.remove (h : f.Distinct) (location : Location) : (f.remove location).Distinct :=
  (List.filter_sublist.map _).nodup h

section Changes

variable {g : Files}

theorem Distinct.makeDirectory {p : Path} (h : f.Distinct) (hmade : f.makeDirectory p = .ok g) :
    g.Distinct := by
  obtain ⟨location, -, hmade⟩ := bind_eq_ok_iff.mp hmade
  split at hmade
  · cases hmade
  · split at hmade
    · cases hmade
      exact h.set
    · cases hmade

/-- No change of files gives a location a second entry. -/
theorem Distinct.steps (h : f.Distinct) (changes : List FileStep) :
    (f.steps changes).1.Distinct := by
  induction changes generalizing f with
  | nil => exact h
  | cons change rest ih =>
    unfold Files.steps
    cases hstep : f.step change with
    | error e => exact h
    | ok f' =>
      refine ih ?_
      cases change with
      | makeDirectories p =>
        exact makeDirectories_keeps (P := Distinct) (fun _ h hmade => h.makeDirectory hmade) h hstep
      | write p bytes =>
        obtain ⟨location, -, -, -, rfl⟩ := write_eq_ok_iff.mp hstep
        exact h.set
      | rename source target =>
        obtain ⟨location, place, bytes, -, -, -, -, rfl⟩ := rename_eq_ok_iff.mp hstep
        exact (h.remove location).set

end Changes

/-- The files below a location are those that names lead to from there. -/
theorem mem_filesBelow_iff (h : f.Distinct) (hnames : names ≠ []) :
    (names, bytes) ∈ f.filesBelow location ↔ f.at? (location ++ names) = some (.file bytes) := by
  have hroot : (location ++ names).isEmpty = false := by
    rw [List.isEmpty_eq_false_iff]
    exact List.append_ne_nil_of_right_ne_nil location hnames
  unfold at? filesBelow
  rw [hroot, if_neg Bool.false_ne_true, find?_eq_some_iff_mem h, List.mem_mergeSort,
    List.mem_filterMap]
  constructor
  · rintro ⟨⟨there, content⟩, hmem, hfound⟩
    cases content with
    | directory => cases hfound
    | file held =>
      dsimp only at hfound
      split at hfound
      · rename_i hbelow
        obtain ⟨rest, rfl⟩ := List.isPrefixOf_iff_prefix.mp hbelow
        cases hfound
        rw [List.drop_left]
        exact hmem
      · cases hfound
  · intro hmem
    refine ⟨_, hmem, ?_⟩
    dsimp only
    rw [if_pos (List.isPrefixOf_iff_prefix.mpr (List.prefix_append location names)),
      List.drop_left]

theorem pairwise_filesBelow (f : Files) (location : Location) :
    (f.filesBelow location).Pairwise fun a b => ¬ b.1 < a.1 := by
  have hle : ∀ {a b : List String}, lexLe a b = true ↔ ¬ b < a := by
    intro a b
    unfold lexLe
    rw [Bool.not_eq_true', decide_eq_false_iff_not]
  refine (List.pairwise_mergeSort ?_ ?_ _).imp fun hsorted => hle.mp hsorted
  · intro a b c hab hbc
    rw [hle, not_lt] at hab hbc ⊢
    exact le_trans hab hbc
  · intro a b
    rw [Bool.or_eq_true, hle, hle, not_lt, not_lt]
    exact le_total _ _

end Files

namespace Overlay

open Log

variable {files : Files} {extensions : List String} {root : Path} {name : String}
  {names names' : List String} {bytes bytes' : ByteArray} {tier : Tier}

/-! One tree. -/

/-- Names that lead from the root of a tree to a file there that holds a resource of a name. -/
structure Holds (files : Files) (extensions : List String) (root : Path) (name : String)
    (names : List String) (bytes : ByteArray) : Prop where
  file : ∃ location, files.locate root = .ok location ∧ files.at? location = some .directory ∧
    files.at? (location ++ names) = some (.file bytes)
  named : Resource.nameOf? extensions names = some name

theorem Holds.bytes_eq {name' : String} (h : Holds files extensions root name names bytes)
    (h' : Holds files extensions root name' names bytes') : bytes = bytes' := by
  obtain ⟨location, hlocate, -, hfile⟩ := h.file
  obtain ⟨location', hlocate', -, hfile'⟩ := h'.file
  rw [hlocate] at hlocate'
  cases hlocate'
  rw [hfile] at hfile'
  cases hfile'
  rfl

/-- Of the files in a tree that hold a resource of a name, the last in the order of their paths. -/
structure Counts (files : Files) (extensions : List String) (root : Path) (name : String)
    (names : List String) (bytes : ByteArray) : Prop where
  holds : Holds files extensions root name names bytes
  last : ∀ names' bytes', Holds files extensions root name names' bytes' → ¬ names < names'

theorem Counts.unique (h : Counts files extensions root name names bytes)
    (h' : Counts files extensions root name names' bytes') : names = names' ∧ bytes = bytes' := by
  obtain rfl : names = names' :=
    le_antisymm (not_lt.mp (h'.last _ _ h.holds)) (not_lt.mp (h.last _ _ h'.holds))
  exact ⟨rfl, h.holds.bytes_eq h'.holds⟩

/-- The file of a tree that counts for a name, as it is found. -/
def counting? (files : Files) (extensions : List String) (root : Path) (name : String) :
    Option Found :=
  if files.isDirectory root then
    (candidates files extensions root).reverse.find? fun f => f.name == name
  else none

/-- What a file holds, if it holds a resource. -/
def foundIn (extensions : List String) (root : Path) (file : List String × ByteArray) :
    Option Found :=
  (Resource.nameOf? extensions file.1).map fun name => ⟨name, root ++ ⟨false, file.1⟩, file.2⟩

theorem foundIn_eq_some_iff {f : Found} : foundIn extensions root (names, bytes) = some f ↔
    Resource.nameOf? extensions names = some f.name ∧
      f = ⟨f.name, root ++ ⟨false, names⟩, bytes⟩ := by
  unfold foundIn
  rw [Option.map_eq_some_iff]
  constructor
  · rintro ⟨name, hname, rfl⟩
    exact ⟨hname, rfl⟩
  · rintro ⟨hname, hf⟩
    exact ⟨f.name, hname, hf.symm⟩

theorem candidates_eq {location : Location} (h : files.locate root = .ok location) :
    candidates files extensions root =
      (files.filesBelow location).filterMap (foundIn extensions root) := by
  unfold candidates
  rw [h]
  rfl

theorem holds_iff_mem {location : Location} (h : files.Distinct)
    (hlocate : files.locate root = .ok location)
    (hdir : files.at? location = some .directory) :
    Holds files extensions root name names bytes ↔ (names, bytes) ∈ files.filesBelow location ∧
      Resource.nameOf? extensions names = some name := by
  have hnames : Resource.nameOf? extensions names = some name → names ≠ [] := by
    rintro hnamed rfl
    cases hnamed
  constructor
  · rintro ⟨⟨location', hlocate', -, hfile⟩, hnamed⟩
    rw [hlocate] at hlocate'
    cases hlocate'
    exact ⟨(Files.mem_filesBelow_iff h (hnames hnamed)).mpr hfile, hnamed⟩
  · rintro ⟨hmem, hnamed⟩
    exact ⟨⟨location, hlocate, hdir, (Files.mem_filesBelow_iff h (hnames hnamed)).mp hmem⟩, hnamed⟩

theorem counting?_eq_some (h : files.Distinct) {f : Found}
    (hf : counting? files extensions root name = some f) :
    ∃ names, Counts files extensions root name names f.bytes ∧
      f = ⟨name, root ++ ⟨false, names⟩, f.bytes⟩ := by
  unfold counting? at hf
  split at hf
  · rename_i hroot
    obtain ⟨location, hlocate, hdir⟩ := Files.isDirectory_iff.mp hroot
    rw [candidates_eq hlocate, List.find?_eq_some_iff_append] at hf
    obtain ⟨hname, later, earlier, hsplit, hlater⟩ := hf
    have hsplit := congrArg List.reverse hsplit
    rw [List.reverse_reverse, List.reverse_append, List.reverse_cons, List.append_assoc,
      List.singleton_append, List.filterMap_eq_append_iff] at hsplit
    obtain ⟨before, rest, hfiles, -, hrest⟩ := hsplit
    rw [List.filterMap_eq_cons_iff] at hrest
    obtain ⟨between, ⟨names, bytes⟩, after, rfl, -, hfound, hafter⟩ := hrest
    obtain ⟨hnamed, hf⟩ := foundIn_eq_some_iff.mp hfound
    obtain rfl : f.name = name := beq_iff_eq.mp hname
    have hbytes : f.bytes = bytes := congrArg Found.bytes hf
    refine ⟨names, ⟨?_, fun names' bytes' hother hlt => ?_⟩, hbytes ▸ hf⟩
    · rw [holds_iff_mem h hlocate hdir, hfiles, hbytes]
      exact ⟨by simp, hnamed⟩
    · -- The other file comes after this one, where no file holds the name.
      obtain ⟨hmem, hnamed'⟩ := (holds_iff_mem h hlocate hdir).mp hother
      have hsorted := files.pairwise_filesBelow location
      rw [hfiles, ← List.append_assoc] at hsorted hmem
      obtain ⟨-, hrest, hearlier⟩ := List.pairwise_append.mp hsorted
      rcases List.mem_append.mp hmem with hmem | hmem
      · exact hearlier _ hmem _ (List.mem_cons_self ..) hlt
      rcases List.mem_cons.mp hmem with heq | hmem
      · cases heq
        exact lt_irrefl _ hlt
      · have hlast : (⟨f.name, root ++ ⟨false, names'⟩, bytes'⟩ : Found) ∈ later := by
          rw [← List.mem_reverse, ← hafter, List.mem_filterMap]
          exact ⟨_, hmem, foundIn_eq_some_iff.mpr ⟨hnamed', rfl⟩⟩
        have hdiffers := hlater _ hlast
        rw [beq_self_eq_true] at hdiffers
        cases hdiffers
  · cases hf

theorem counting?_eq_none_iff (h : files.Distinct) :
    counting? files extensions root name = none ↔
      ¬ ∃ names bytes, Holds files extensions root name names bytes := by
  unfold counting?
  split
  · rename_i hroot
    obtain ⟨location, hlocate, hdir⟩ := Files.isDirectory_iff.mp hroot
    rw [candidates_eq hlocate, List.find?_eq_none]
    constructor
    · rintro hnone ⟨names, bytes, hholds⟩
      obtain ⟨hmem, hnamed⟩ := (holds_iff_mem h hlocate hdir).mp hholds
      refine hnone ⟨name, root ++ ⟨false, names⟩, bytes⟩ ?_ (beq_self_eq_true name)
      rw [List.mem_reverse, List.mem_filterMap]
      exact ⟨_, hmem, foundIn_eq_some_iff.mpr ⟨hnamed, rfl⟩⟩
    · intro hnone f hf hname
      rw [List.mem_reverse, List.mem_filterMap] at hf
      obtain ⟨⟨names, bytes⟩, hmem, hfound⟩ := hf
      obtain ⟨hnamed, -⟩ := foundIn_eq_some_iff.mp hfound
      obtain rfl : f.name = name := beq_iff_eq.mp hname
      exact hnone ⟨names, bytes, (holds_iff_mem h hlocate hdir).mpr ⟨hmem, hnamed⟩⟩
  · rename_i hroot
    refine iff_of_true rfl ?_
    rintro ⟨names, bytes, ⟨⟨location, hlocate, hdir, -⟩, -⟩⟩
    exact hroot (Files.isDirectory_iff.mpr ⟨location, hlocate, hdir⟩)

/-! Reading a tree. -/

/-- The resource in a file, if that is a text. -/
def Found.resource? (tier : Tier) (f : Found) : Option Resource :=
  (Files.text? f.bytes).map fun content => ⟨f.name, content, tier, some f.path⟩

theorem Found.name_of_resource? {f : Found} {r : Resource} (h : f.resource? tier = some r) :
    r.name = f.name := by
  obtain ⟨content, -, rfl⟩ := Option.map_eq_some_iff.mp h
  rfl

variable {o o' : Overlay} {kind : String} {records records' : List Record}
  {found : List Found} {rs : List Resource} {merged merged' : List (String × Resource)}

/-- What reading one file more comes to. -/
theorem readAll_cons {met : List String} {f : Found} {rest : List Found}
    (h : (readAll kind tier met (f :: rest)).run.run records = (.ok rs, records')) :
    ∃ content others, Files.text? f.bytes = some content ∧
      rs = ⟨f.name, content, tier, some f.path⟩ :: others ∧
      (readAll kind tier (f.name :: met) rest).run.run
        (records ++ if met.contains f.name then [duplicateRecord kind f] else []) =
          (.ok others, records') := by
  unfold readAll at h
  cases htext : Files.text? f.bytes with
  | none =>
    rw [htext] at h
    dsimp only at h
    split at h
    · obtain ⟨_, _, -, h⟩ := exists_of_run_bind_eq_ok h
      cases h
    · cases h
  | some content =>
    rw [htext] at h
    have hread : ∀ before, (do
        let others ← readAll kind tier (f.name :: met) rest
        pure (⟨f.name, content, tier, some f.path⟩ :: others) :
          Recorded Resource.Fault (List Resource)).run.run before = (.ok rs, records') →
        ∃ others, rs = ⟨f.name, content, tier, some f.path⟩ :: others ∧
          (readAll kind tier (f.name :: met) rest).run.run before = (.ok others, records') := by
      intro before hbefore
      obtain ⟨others, _, hothers, hbefore⟩ := exists_of_run_bind_eq_ok hbefore
      cases hbefore
      exact ⟨others, rfl, hothers⟩
    dsimp only at h
    split at h
    · rename_i hmet
      obtain ⟨_, _, hwrite, h⟩ := exists_of_run_bind_eq_ok h
      cases hwrite
      rw [if_pos hmet]
      obtain ⟨others, hrs, hothers⟩ := hread _ h
      exact ⟨content, others, rfl, hrs, hothers⟩
    · rename_i hnew
      rw [if_neg hnew, List.append_nil]
      obtain ⟨others, hrs, hothers⟩ := hread _ h
      exact ⟨content, others, rfl, hrs, hothers⟩

theorem resource?_of_readAll {met : List String}
    (h : (readAll kind tier met found).run.run records = (.ok rs, records')) :
    List.Forall₂ (fun f r => f.resource? tier = some r) found rs := by
  induction found generalizing met records rs with
  | nil =>
    cases h
    exact .nil
  | cons f rest ih =>
    obtain ⟨content, others, htext, rfl, hothers⟩ := readAll_cons h
    exact .cons (congrArg (Option.map _) htext) (ih hothers)

/-- Where related items have the same name, the first ones with a name are related. -/
theorem find?_of_forall₂ {α β : Type} {R : α → β → Prop} {nameOf : α → String}
    {nameOf' : β → String} {as : List α} {bs : List β} (h : List.Forall₂ R as bs)
    (hname : ∀ a b, R a b → nameOf' b = nameOf a) (name : String) :
    Option.Rel R (as.find? fun a => nameOf a == name) (bs.find? fun b => nameOf' b == name) := by
  induction h with
  | nil => exact .none
  | cons hfirst _ ih =>
    rw [List.find?_cons, List.find?_cons, hname _ _ hfirst]
    split
    · exact .some hfirst
    · exact ih

/-- What a tree gives for a name is in the file that counts. -/
theorem find?_of_scan {root : Resource.Root}
    (h : (o.scan files root).run.run records = (.ok rs, records')) (name : String) :
    Option.Rel (fun f r => f.resource? root.tier = some r)
      (counting? files o.extensions root.path name)
      (rs.reverse.find? fun r => r.name == name) := by
  unfold counting?
  unfold scan at h
  split at h
  · rename_i hnone
    cases h
    rw [if_neg, List.reverse_nil]
    · exact .none
    · unfold Files.isDirectory
      rw [hnone]
      nofun
  · cases h
  · rename_i hdir
    have hroot : files.isDirectory root.path = true := by
      unfold Files.isDirectory
      rw [hdir]
    rw [if_pos hroot]
    exact find?_of_forall₂ (List.forall₂_reverse_iff.mpr (resource?_of_readAll h))
      (fun _ _ hr => Found.name_of_resource? hr) name

/-! Laying resources over others. -/

/-- Resources by their names, each name once. -/
structure Filed (merged : List (String × Resource)) : Prop where
  once : (Keyed.keys merged).Nodup
  named : ∀ e ∈ merged, e.1 = e.2.name

/-- What laying one resource more over others comes to. -/
theorem layOver_cons {r : Resource} {rest : List Resource}
    (h : (layOver kind merged (r :: rest)).run.run records = (.ok merged', records')) :
    ∃ written, (∀ record ∈ written, record.level = debug) ∧
      (layOver kind (Keyed.set r.name r merged) rest).run.run (records ++ written) =
        (.ok merged', records') := by
  have hnothing : (layOver kind (Keyed.set r.name r merged) rest).run.run records =
      (.ok merged', records') → ∃ written : List Record,
        (∀ record ∈ written, record.level = debug) ∧
          (layOver kind (Keyed.set r.name r merged) rest).run.run (records ++ written) =
            (.ok merged', records') := fun hrest =>
    ⟨[], fun _ hrecord => absurd hrecord List.not_mem_nil, by rwa [List.append_nil]⟩
  unfold layOver at h
  dsimp only at h
  split at h
  · rename_i older _
    split at h
    · obtain ⟨_, between, hwrite, h⟩ := exists_of_run_bind_eq_ok h
      cases hwrite
      refine ⟨[overrideRecord kind older r], fun record hrecord => ?_, h⟩
      rw [List.mem_singleton.mp hrecord]
      rfl
    · exact hnothing h
  · exact hnothing h

theorem layOver_eq_foldl
    (h : (layOver kind merged rs).run.run records = (.ok merged', records')) :
    merged' = rs.foldl (fun merged r => Keyed.set r.name r merged) merged := by
  induction rs generalizing merged records with
  | nil =>
    cases h
    rfl
  | cons r rest ih =>
    obtain ⟨written, -, hrest⟩ := layOver_cons h
    exact ih hrest

theorem Filed.set (h : Filed merged) (r : Resource) : Filed (Keyed.set r.name r merged) where
  once := Keyed.nodup_keys_set h.once
  named := fun e he => by
    rcases Keyed.eq_or_mem_of_mem_set he with rfl | he
    · rfl
    · exact h.named e he

theorem Filed.foldl_set (h : Filed merged) (rs : List Resource) :
    Filed (rs.foldl (fun merged r => Keyed.set r.name r merged) merged) := by
  induction rs generalizing merged with
  | nil => exact h
  | cons r rest ih => exact ih (h.set r)

/-- Where the resource of a name comes from when trees were laid over others: from the last tree
that has one of this name, or from where it came before if there is none. -/
theorem get?_of_layRoots {roots : List Resource.Root}
    (h : (o.layRoots files merged roots).run.run records = (.ok merged', records')) (name : String) :
    (∃ before root after f r, roots = before ++ root :: after ∧
        counting? files o.extensions root.path name = some f ∧ f.resource? root.tier = some r ∧
        (∀ other ∈ after, counting? files o.extensions other.path name = none) ∧
        Keyed.get? name merged' = some r) ∨
      (∀ root ∈ roots, counting? files o.extensions root.path name = none) ∧
        Keyed.get? name merged' = Keyed.get? name merged := by
  induction roots generalizing merged records with
  | nil =>
    cases h
    exact Or.inr ⟨nofun, rfl⟩
  | cons root rest ih =>
    unfold layRoots at h
    obtain ⟨rs, between, hscan, h⟩ := exists_of_run_bind_eq_ok h
    obtain ⟨laid, between', hlay, h⟩ := exists_of_run_bind_eq_ok h
    obtain rfl := layOver_eq_foldl hlay
    rcases ih h with ⟨before, later, after, f, r, rfl, hf, hr, hafter, hget⟩ | ⟨hnone, hget⟩
    · exact Or.inl ⟨root :: before, later, after, f, r, rfl, hf, hr, hafter, hget⟩
    · rw [Keyed.get?_foldl_set] at hget
      have hrel := find?_of_scan hscan name
      generalize rs.reverse.find? (fun r => r.name == name) = given at hrel hget
      cases hfirst : counting? files o.extensions root.path name with
      | none =>
        rw [hfirst] at hrel
        cases hrel
        exact Or.inr ⟨List.forall_mem_cons.mpr ⟨hfirst, hnone⟩, hget⟩
      | some f =>
        rw [hfirst] at hrel
        cases hrel with
        | some hr => exact Or.inl ⟨[], root, rest, f, _, rfl, hfirst, hr, hnone, hget⟩

theorem Filed.layRoots {roots : List Resource.Root} (hfiled : Filed merged)
    (h : (o.layRoots files merged roots).run.run records = (.ok merged', records')) :
    Filed merged' := by
  induction roots generalizing merged records with
  | nil =>
    cases h
    exact hfiled
  | cons root rest ih =>
    unfold Overlay.layRoots at h
    obtain ⟨rs, between, -, h⟩ := exists_of_run_bind_eq_ok h
    obtain ⟨laid, between', hlay, h⟩ := exists_of_run_bind_eq_ok h
    obtain rfl := layOver_eq_foldl hlay
    exact ih (hfiled.foldl_set rs) h

theorem layRoots_of_load (h : (o.load files).run.run records = (.ok o', records')) :
    ∃ merged' between, (o.layRoots files o.embedded o.roots).run.run records =
      (.ok merged', between) ∧ o' = { o with resources := merged' } := by
  unfold load at h
  obtain ⟨merged', between, hlay, h⟩ := exists_of_run_bind_eq_ok h
  obtain ⟨_, between', -, h⟩ := exists_of_run_bind_eq_ok h
  cases h
  exact ⟨merged', between, hlay, rfl⟩

end Overlay

end Runbook
