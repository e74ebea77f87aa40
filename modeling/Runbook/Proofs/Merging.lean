import Runbook.Proofs.Loading

/-!
What layers come to. Where every tree can be read, a scan finds one resource for each name that the
layers supply, in the order of the names.
-/
namespace Runbook.Layers

open Overlay Log

variable {α : Type} {files : Files} {l : Layers α} {o : Overlay}
  {records records' : List Record}

/-- The resources that the layers come to: one for each name that is supplied, by names. -/
structure Merges (files : Files) (l : Layers α) (rs : List Resource) : Prop where
  ordered : rs.Pairwise fun a b => a.name < b.name
  supplied : ∀ name tier content,
    (∃ r ∈ rs, r.name = name ∧ r.tier = tier ∧ r.content = content) ↔
      Supplies files l name tier content

/-- A tree that may hold resources: the user's own one, or one on the way to the place of work. -/
def IsTree (files : Files) (l : Layers α) (root : Path) : Prop :=
  root = l.userRoot ∨ ∃ n, IsLocal files l n ∧ root = spot files l n

/-- The user's tree is no file, and the files of resources in every tree are texts. -/
structure Readable (files : Files) (l : Layers α) : Prop where
  user : ∀ bytes, files.content? l.userRoot ≠ some (.file bytes)
  texts : ∀ root name names bytes, IsTree files l root →
    Holds files l.kind.extensions root name names bytes → Files.text? bytes ≠ none

/-- Where every file is a text, all trees can be read. -/
theorem readable_of_texts (hdistinct : files.Distinct)
    (huser : ∀ bytes, files.content? l.userRoot ≠ some (.file bytes))
    (h : ∀ location bytes, (location, Content.file bytes) ∈ files.entries →
      Files.text? bytes ≠ none) : Readable files l := by
  refine ⟨huser, fun root name names bytes _ hholds => ?_⟩
  obtain ⟨location, -, -, hfile⟩ := hholds.file
  unfold Files.at? at hfile
  split at hfile
  · cases hfile
  · exact h _ bytes ((Files.find?_eq_some_iff_mem hdistinct).mp hfile)

/-! Scanning. -/

theorem exists_readAll {kind : String} {tier : Tier} {met : List String} {found : List Found}
    (h : ∀ f ∈ found, Files.text? f.bytes ≠ none) (records : List Record) :
    ∃ rs records', (readAll kind tier met found).run.run records = (.ok rs, records') := by
  induction found generalizing met records with
  | nil => exact ⟨[], records, rfl⟩
  | cons f rest ih =>
    obtain ⟨hfirst, hrest⟩ := List.forall_mem_cons.mp h
    obtain ⟨content, htext⟩ := Option.ne_none_iff_exists'.mp hfirst
    have hafter : ∀ before, ∃ rs after, (do
        let others ← readAll kind tier (f.name :: met) rest
        pure (⟨f.name, content, tier, some f.path⟩ :: others) :
          Recorded Resource.Fault (List Resource)).run.run before = (.ok rs, after) := by
      intro before
      obtain ⟨others, after, hothers⟩ := ih hrest before
      exact ⟨_, after, run_bind_of_ok hothers _⟩
    unfold readAll
    rw [htext]
    dsimp only
    split
    · obtain ⟨rs, records', hrs⟩ := hafter (records ++ [_])
      exact ⟨rs, records', (run_bind_of_ok rfl _).trans hrs⟩
    · exact hafter records

/-- What is found in a tree are the files that hold a resource there. -/
theorem mem_candidates_iff {extensions : List String} {root : Path} {f : Found}
    (hdistinct : files.Distinct) (hroot : files.isDirectory root = true) :
    f ∈ candidates files extensions root ↔ ∃ names,
      Holds files extensions root f.name names f.bytes ∧
        f.path = root ++ (⟨false, names⟩ : Path) := by
  obtain ⟨location, hlocate, hdir⟩ := Files.isDirectory_iff.mp hroot
  rw [candidates_eq hlocate, List.mem_filterMap]
  constructor
  · rintro ⟨⟨names, bytes⟩, hmem, hfound⟩
    obtain ⟨hnamed, hf⟩ := foundIn_eq_some_iff.mp hfound
    obtain rfl : f.bytes = bytes := congrArg Found.bytes hf
    exact ⟨names, (holds_iff_mem hdistinct hlocate hdir).mpr ⟨hmem, hnamed⟩,
      congrArg Found.path hf⟩
  · rintro ⟨names, hholds, hpath⟩
    obtain ⟨hmem, hnamed⟩ := (holds_iff_mem hdistinct hlocate hdir).mp hholds
    refine ⟨(names, f.bytes), hmem, foundIn_eq_some_iff.mpr ⟨hnamed, ?_⟩⟩
    rw [← hpath]

theorem exists_scan (hdistinct : files.Distinct) {root : Resource.Root}
    (hfile : ∀ bytes, files.content? root.path ≠ some (.file bytes))
    (htexts : ∀ name names bytes, Holds files o.extensions root.path name names bytes →
      Files.text? bytes ≠ none) (records : List Record) :
    ∃ rs records', (o.scan files root).run.run records = (.ok rs, records') := by
  unfold Overlay.scan
  split
  · exact ⟨[], records, rfl⟩
  · rename_i bytes hcontent
    exact absurd hcontent (hfile bytes)
  · rename_i hdir
    have hroot : files.isDirectory root.path = true := by
      unfold Files.isDirectory
      rw [hdir]
    refine exists_readAll (fun f hf => ?_) records
    obtain ⟨names, hholds, -⟩ := (mem_candidates_iff hdistinct hroot).mp hf
    exact htexts _ _ _ hholds

theorem exists_layOver (kind : String) (merged : List (String × Resource)) (rs : List Resource)
    (records : List Record) :
    ∃ merged' records', (layOver kind merged rs).run.run records = (.ok merged', records') := by
  induction rs generalizing merged records with
  | nil => exact ⟨merged, records, rfl⟩
  | cons r rest ih =>
    unfold layOver
    dsimp only
    split
    · split
      · obtain ⟨merged', records', h⟩ := ih (Keyed.set r.name r merged) (records ++ [_])
        exact ⟨merged', records', (run_bind_of_ok rfl _).trans h⟩
      · exact ih _ records
    · exact ih _ records

theorem exists_layRoots {roots : List Resource.Root}
    (h : ∀ root ∈ roots, ∀ records, ∃ rs records',
      (o.scan files root).run.run records = (.ok rs, records'))
    (merged : List (String × Resource)) (records : List Record) :
    ∃ merged' records', (o.layRoots files merged roots).run.run records =
      (.ok merged', records') := by
  induction roots generalizing merged records with
  | nil => exact ⟨merged, records, rfl⟩
  | cons root rest ih =>
    obtain ⟨hfirst, hrest⟩ := List.forall_mem_cons.mp h
    obtain ⟨rs, between, hscan⟩ := hfirst records
    obtain ⟨laid, between', hlay⟩ := exists_layOver o.kind merged rs between
    obtain ⟨merged', records', hall⟩ := ih hrest laid between'
    unfold layRoots
    exact ⟨merged', records', (run_bind_of_ok hscan _).trans ((run_bind_of_ok hlay _).trans hall)⟩

/-- Layers whose trees can be read are scanned. -/
theorem exists_scanned (hdistinct : files.Distinct) (h : Readable files l) :
    ∃ o, (l.scanned files).outcome.1 = .ok o := by
  have hscan : ∀ root ∈ (l.register files).roots, ∀ records, ∃ rs records',
      ((l.register files).scan files root).run.run records = (.ok rs, records') := by
    rw [register_eq]
    intro root hroot
    rcases List.mem_cons.mp hroot with rfl | hlocal
    · exact exists_scan hdistinct h.user fun name names bytes =>
        h.texts _ name names bytes (Or.inl rfl)
    · obtain ⟨n, hn, rfl⟩ := List.mem_map.mp hlocal
      obtain ⟨hlocal, hdir⟩ := mem_localDepths.mp hn
      refine exists_scan hdistinct (fun bytes hfile => ?_) fun name names bytes =>
        h.texts _ name names bytes (Or.inr ⟨n, hlocal, rfl⟩)
      unfold Files.isDirectory at hdir
      rw [hfile] at hdir
      cases hdir
  obtain ⟨merged, between, hlay⟩ := exists_layRoots hscan (l.register files).embedded []
  have hload : ((l.register files).load files).run.run [] =
      (.ok { l.register files with resources := merged }, between ++ [_]) :=
    run_bind_of_ok hlay _
  exact ⟨_, congrArg Prod.fst (run_adapt_eq_ok_iff.mpr hload)⟩

theorem pairwise_names_list (h : Filed o.resources) :
    o.list.Pairwise fun a b => a.name < b.name := by
  have hsorted : (Keyed.sorted o.resources).Pairwise fun a b => a.1 ≤ b.1 := by
    refine (List.pairwise_mergeSort ?_ ?_ _).imp of_decide_eq_true
    · intro a b c hab hbc
      rw [decide_eq_true_eq] at *
      exact le_trans hab hbc
    · intro a b
      rw [Bool.or_eq_true, decide_eq_true_eq, decide_eq_true_eq]
      exact le_total _ _
  have hle : o.list.Pairwise fun a b => a.name ≤ b.name := by
    refine List.pairwise_map.mpr (hsorted.imp_of_mem fun {a b} ha hb hab => ?_)
    rwa [← h.named a (List.mem_mergeSort.mp ha), ← h.named b (List.mem_mergeSort.mp hb)]
  have hne : o.list.Pairwise fun a b => a.name ≠ b.name := List.pairwise_map.mp (nodup_names_list h)
  exact (hle.and hne).imp fun hab => lt_of_le_of_ne hab.1 hab.2

/-- What is loaded is what the layers come to. -/
theorem merges_list (hdistinct : files.Distinct)
    (h : ((l.register files).load files).run.run records = (.ok o, records')) :
    Merges files l o.list := by
  refine ⟨pairwise_names_list (filed_of_load h), fun name tier content => ?_⟩
  rw [← get?_eq_some_iff_supplies hdistinct h, Option.map_eq_some_iff]
  constructor
  · rintro ⟨r, hr, rfl, rfl, rfl⟩
    exact ⟨r, (mem_list_iff (filed_of_load h)).mp ⟨hr, rfl⟩, rfl⟩
  · rintro ⟨r, hr, hparts⟩
    obtain ⟨hmem, rfl⟩ := (mem_list_iff (filed_of_load h)).mpr hr
    obtain ⟨rfl, rfl⟩ := Prod.mk.inj hparts
    exact ⟨r, hmem, rfl, rfl, rfl⟩

theorem Merges.name_ne_empty {rs : List Resource} (h : Merges files l rs)
    (hembedded : ∀ e ∈ l.embedded, e.1 ≠ "") {r : Resource} (hr : r ∈ rs) : r.name ≠ "" :=
  ((h.supplied r.name r.tier r.content).mp ⟨r, hr, rfl, rfl, rfl⟩).name_ne_empty hembedded

/-- A scan that goes well gives what the layers come to. -/
theorem merges_of_scan (hdistinct : files.Distinct) {rs : List Resource}
    (h : (l.scan files).outcome.1 = .ok rs) : Merges files l rs := by
  obtain ⟨o, hscanned, rfl⟩ := exists_scanned_of_scan h
  obtain ⟨records, hload⟩ := exists_load_of_scanned hscanned
  exact merges_list hdistinct hload

/-- Layers whose trees can be read come to some resources, and a scan gives them. -/
theorem exists_merges (hdistinct : files.Distinct) (h : Readable files l) :
    ∃ rs, (l.scan files).outcome.1 = .ok rs ∧ Merges files l rs := by
  obtain ⟨o, hscanned⟩ := exists_scanned hdistinct h
  have hscan : (l.scan files).outcome.1 = .ok o.list := by
    rw [outcome_scan, hscanned]
    rfl
  exact ⟨o.list, hscan, merges_of_scan hdistinct hscan⟩

end Runbook.Layers
