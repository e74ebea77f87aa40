import Runbook.Proofs.Overlays
import Runbook.Resource.Layers

/-!
Which layer supplies a name. The directories from the root down to the place of work are looked
through for trees of resources, and the deepest one whose tree holds the name supplies it. Where
none does, the user's own tree is asked, which is never one of these, and what is built in comes
last. A load that goes well records just these sources and hands over just these items.
-/
namespace Runbook.Layers

open Overlay Log

variable {α : Type} {files : Files} {l l' : Layers α} {name : String} {tier tier' : Tier}
  {content content' : String}

/-- How deep the place of work lies. -/
def depth (files : Files) (l : Layers α) : Nat := (l.start.resolve files.base).length

/-- Where the directory at a depth, on the way to the place of work, may hold resources. -/
def spot (files : Files) (l : Layers α) (n : Nat) : Path :=
  place (Path.ofNames ((l.start.resolve files.base).take n)) l.dirName l.kind.name

/-- The directory at a depth is the place of work or lies above it, and its tree is not the user's.
-/
def IsLocal (files : Files) (l : Layers α) (n : Nat) : Prop :=
  n ≤ depth files l ∧ (spot files l n).resolve files.base ≠ l.userRoot.resolve files.base

/-- A file in a tree holds a resource with a name. -/
def Has (files : Files) (l : Layers α) (root : Path) (name : String) : Prop :=
  ∃ names bytes, Holds files l.kind.extensions root name names bytes

/-- What is to be loaded for a name, and from which tier. -/
inductive Supplies (files : Files) (l : Layers α) (name : String) : Tier → String → Prop
  | project {n : Nat} {names : List String} {bytes : ByteArray} {content : String}
      (hlocal : IsLocal files l n)
      (hdeepest : ∀ m, n < m → IsLocal files l m → ¬ Has files l (spot files l m) name)
      (hcounts : Counts files l.kind.extensions (spot files l n) name names bytes)
      (htext : Files.text? bytes = some content) : Supplies files l name .project content
  | user {names : List String} {bytes : ByteArray} {content : String}
      (hlocal : ∀ n, IsLocal files l n → ¬ Has files l (spot files l n) name)
      (hcounts : Counts files l.kind.extensions l.userRoot name names bytes)
      (htext : Files.text? bytes = some content) : Supplies files l name .user content
  | embedded {content : String}
      (hlocal : ∀ n, IsLocal files l n → ¬ Has files l (spot files l n) name)
      (huser : ¬ Has files l l.userRoot name)
      (hbuiltIn : Keyed.get? name (Keyed.ofList l.embedded) = some content) :
      Supplies files l name .embedded content

/-- A name has one supply. -/
theorem Supplies.unique (h : Supplies files l name tier content)
    (h' : Supplies files l name tier' content') : tier = tier' ∧ content = content' := by
  have hsame : ∀ {root : Path} {names names' : List String} {bytes bytes' : ByteArray},
      Counts files l.kind.extensions root name names bytes →
      Counts files l.kind.extensions root name names' bytes' →
      Files.text? bytes = some content → Files.text? bytes' = some content' →
      content = content' := by
    intro root names names' bytes bytes' hcounts hcounts' htext htext'
    obtain ⟨-, rfl⟩ := hcounts.unique hcounts'
    rw [htext, Option.some.injEq] at htext'
    exact htext'
  cases h with
  | project hlocal hdeepest hcounts htext =>
    rename_i n names bytes
    cases h' with
    | project hlocal' hdeepest' hcounts' htext' =>
      rename_i n' names' bytes'
      rcases Nat.lt_trichotomy n n' with hlt | rfl | hgt
      · exact absurd ⟨_, _, hcounts'.holds⟩ (hdeepest n' hlt hlocal')
      · exact ⟨rfl, hsame hcounts hcounts' htext htext'⟩
      · exact absurd ⟨_, _, hcounts.holds⟩ (hdeepest' n hgt hlocal)
    | user hnone _ _ => exact absurd ⟨_, _, hcounts.holds⟩ (hnone n hlocal)
    | embedded hnone _ _ => exact absurd ⟨_, _, hcounts.holds⟩ (hnone n hlocal)
  | user hnone hcounts htext =>
    cases h' with
    | project hlocal' _ hcounts' _ =>
      exact absurd ⟨_, _, hcounts'.holds⟩ (hnone _ hlocal')
    | user _ hcounts' htext' => exact ⟨rfl, hsame hcounts hcounts' htext htext'⟩
    | embedded _ huser _ => exact absurd ⟨_, _, hcounts.holds⟩ huser
  | embedded hnone huser hbuiltIn =>
    cases h' with
    | project hlocal' _ hcounts' _ =>
      exact absurd ⟨_, _, hcounts'.holds⟩ (hnone _ hlocal')
    | user _ hcounts' _ => exact absurd ⟨_, _, hcounts'.holds⟩ huser
    | embedded _ _ hbuiltIn' =>
      rw [hbuiltIn, Option.some.injEq] at hbuiltIn'
      exact ⟨rfl, hbuiltIn'⟩

/-! The trees of all layers. -/

/-- Which depths have a tree of their own. -/
def localDepths (files : Files) (l : Layers α) : List Nat :=
  (List.range (depth files l + 1)).filter fun n =>
    files.isDirectory (spot files l n) &&
      !([l.userRoot.resolve files.base].contains ((spot files l n).resolve files.base))

theorem mem_localDepths {n : Nat} : n ∈ localDepths files l ↔
    IsLocal files l n ∧ files.isDirectory (spot files l n) = true := by
  unfold localDepths IsLocal
  rw [List.mem_filter, List.mem_range, Nat.lt_succ_iff, Bool.and_eq_true, Bool.not_eq_true',
    Bool.eq_false_iff, ne_eq, List.contains_iff_mem, List.mem_singleton]
  tauto

/-- A resource that is built in. -/
def builtIn (e : String × String) : Resource := ⟨e.1, e.2, .embedded, none⟩

/-- The resources that are built in, by their names. -/
def builtIns (entries : List (String × String)) : List (String × Resource) :=
  (entries.map builtIn).foldl (fun merged r => Keyed.set r.name r merged) []

theorem filed_builtIns (entries : List (String × String)) : Filed (builtIns entries) := by
  have hnone : Filed ([] : List (String × Resource)) :=
    ⟨List.nodup_nil, fun e he => absurd he List.not_mem_nil⟩
  exact hnone.foldl_set _

theorem builtIns_concat (entries : List (String × String)) (e : String × String) :
    builtIns (entries ++ [e]) = Keyed.set e.1 (builtIn e) (builtIns entries) := by
  unfold builtIns
  rw [List.map_append, List.map_singleton, List.foldl_concat]
  rfl

theorem get?_builtIns (entries : List (String × String)) (name : String) :
    Keyed.get? name (builtIns entries) =
      (Keyed.get? name (Keyed.ofList entries)).map fun content => builtIn (name, content) := by
  induction entries using List.reverseRecOn with
  | nil => rfl
  | append_singleton entries e ih =>
    have hset : Keyed.ofList (entries ++ [e]) = Keyed.set e.1 e.2 (Keyed.ofList entries) :=
      List.foldl_concat ..
    rw [hset, builtIns_concat]
    by_cases hname : name = e.1
    · rw [hname, Keyed.get?_set_self, Keyed.get?_set_self]
      rfl
    · rw [Keyed.get?_set_ne hname, Keyed.get?_set_ne hname, ih]

theorem foldl_addEmbedded (entries : List (String × String)) (o : Overlay) :
    entries.foldl (fun o e => o.addEmbedded e.1 e.2) o =
      { o with
        embedded := (entries.map builtIn).foldl (fun merged r => Keyed.set r.name r merged)
          o.embedded } := by
  induction entries generalizing o with
  | nil => rfl
  | cons e rest ih => exact ih (o.addEmbedded e.1 e.2)

theorem foldl_addRoot (paths : List Path) (o : Overlay) (tier : Tier) :
    paths.foldl (fun o p => o.addRoot p tier) o =
      { o with roots := o.roots ++ paths.map fun p => ⟨p, tier⟩ } := by
  induction paths generalizing o with
  | nil => rw [List.map_nil, List.append_nil, List.foldl_nil]
  | cons p rest ih =>
    rw [List.foldl_cons, ih, List.map_cons]
    simp [addRoot]

theorem localRoots_eq : localRoots files l.start l.dirName l.kind.name [l.userRoot] =
    (localDepths files l).map (spot files l) := by
  unfold localRoots ancestors localDepths
  rw [List.map_map, List.filter_map]
  rfl

/-- The user's own tree comes before those on the way to the place of work. -/
theorem register_eq (files : Files) (l : Layers α) : l.register files =
    ⟨l.kind.name, l.kind.extensions, builtIns l.embedded,
      ⟨l.userRoot, .user⟩ :: (localDepths files l).map fun n => ⟨spot files l n, .project⟩,
      []⟩ := by
  unfold register
  dsimp only
  rw [foldl_addRoot, foldl_addEmbedded, localRoots_eq, List.map_map]
  rfl

/-! What is loaded. -/

theorem has_iff {root : Path} (h : files.Distinct) :
    Has files l root name ↔ counting? files l.kind.extensions root name ≠ none := by
  rw [ne_eq, counting?_eq_none_iff h, not_not]
  rfl

/-- A directory on the way whose tree does not count has none, or has no file that holds the name.
-/
theorem not_has_of_localDepths (h : files.Distinct) {n : Nat} (hlocal : IsLocal files l n)
    (hnone : n ∈ localDepths files l →
      counting? files l.kind.extensions (spot files l n) name = none) :
    ¬ Has files l (spot files l n) name := by
  rw [has_iff h, not_not]
  by_cases hdir : files.isDirectory (spot files l n) = true
  · exact hnone (mem_localDepths.mpr ⟨hlocal, hdir⟩)
  · exact if_neg hdir

theorem never_has_of_localDepths (h : files.Distinct)
    (hnone : ∀ n ∈ localDepths files l,
      counting? files l.kind.extensions (spot files l n) name = none) :
    ∀ n, IsLocal files l n → ¬ Has files l (spot files l n) name :=
  fun n hlocal => not_has_of_localDepths h hlocal (hnone n)

/-- The last tree that has a name supplies it. -/
theorem supplies_of_last (hdistinct : files.Distinct) {before after : List Resource.Root}
    {root : Resource.Root} {f : Found}
    (hroots : (⟨l.userRoot, .user⟩ ::
      (localDepths files l).map fun n => ⟨spot files l n, .project⟩) = before ++ root :: after)
    (hf : counting? files l.kind.extensions root.path name = some f)
    (hafter : ∀ other ∈ after, counting? files l.kind.extensions other.path name = none)
    (htext : Files.text? f.bytes = some content) : Supplies files l name root.tier content := by
  obtain ⟨names, hcounts, -⟩ := counting?_eq_some hdistinct hf
  cases before with
  | nil =>
    obtain ⟨rfl, rfl⟩ := List.cons.inj hroots
    refine .user (never_has_of_localDepths hdistinct fun n hn => ?_) hcounts htext
    exact hafter _ (List.mem_map_of_mem hn)
  | cons first before =>
    obtain ⟨-, hlocals⟩ := List.cons.inj hroots
    obtain ⟨above, rest, hdepths, -, hrest⟩ := List.map_eq_append_iff.mp hlocals
    obtain ⟨n, below, rfl, rfl, rfl⟩ := List.map_eq_cons_iff.mp hrest
    have hn : n ∈ localDepths files l := by
      rw [hdepths]
      exact List.mem_append_right _ (List.mem_cons_self ..)
    refine .project (mem_localDepths.mp hn).1 (fun m hm hlocal => ?_) hcounts htext
    refine not_has_of_localDepths hdistinct hlocal fun hdepth =>
      hafter ⟨spot files l m, .project⟩ ?_
    refine List.mem_map_of_mem (f := fun n => (⟨spot files l n, .project⟩ : Resource.Root)) ?_
    -- A greater depth comes later.
    have hsorted : (localDepths files l).Pairwise (· < ·) := List.pairwise_lt_range.filter _
    rw [hdepths] at hsorted hdepth
    obtain ⟨-, -, hbefore⟩ := List.pairwise_append.mp hsorted
    rcases List.mem_append.mp hdepth with habove | hbelow
    · exact absurd (hbefore m habove n (List.mem_cons_self ..)) (Nat.not_lt.mpr (Nat.le_of_lt hm))
    · rcases List.mem_cons.mp hbelow with rfl | hbelow
      · exact absurd hm (Nat.lt_irrefl _)
      · exact hbelow

variable {o' : Overlay} {records records' : List Record}

/-- What an overlay of all layers holds for a name is what is to be loaded. -/
theorem supplies_of_load (hdistinct : files.Distinct)
    (h : ((l.register files).load files).run.run records = (.ok o', records')) (name : String) :
    (∃ r, Keyed.get? name o'.resources = some r ∧ Supplies files l name r.tier r.content) ∨
      Keyed.get? name o'.resources = none ∧
        ∀ tier content, ¬ Supplies files l name tier content := by
  obtain ⟨merged, between, hlay, rfl⟩ := layRoots_of_load h
  rw [register_eq] at hlay
  rcases get?_of_layRoots hlay name with
    ⟨before, root, after, f, r, hroots, hf, hr, hafter, hget⟩ | ⟨hnone, hget⟩
  · obtain ⟨content, htext, rfl⟩ := Option.map_eq_some_iff.mp hr
    exact Or.inl ⟨_, hget, supplies_of_last hdistinct hroots hf hafter htext⟩
  · obtain ⟨huser, hlocals⟩ := List.forall_mem_cons.mp hnone
    have hnever := never_has_of_localDepths hdistinct fun n hn =>
      hlocals _ (List.mem_map_of_mem hn)
    have huser : ¬ Has files l l.userRoot name := by
      rw [has_iff hdistinct, not_not]
      exact huser
    rw [get?_builtIns] at hget
    cases hbuiltIn : Keyed.get? name (Keyed.ofList l.embedded) with
    | some content =>
      rw [hbuiltIn] at hget
      exact Or.inl ⟨_, hget, .embedded hnever huser hbuiltIn⟩
    | none =>
      rw [hbuiltIn] at hget
      refine Or.inr ⟨hget, fun tier content hsupplies => ?_⟩
      cases hsupplies with
      | project hlocal _ hcounts _ => exact hnever _ hlocal ⟨_, _, hcounts.holds⟩
      | user _ hcounts _ => exact huser ⟨_, _, hcounts.holds⟩
      | embedded _ _ hfound =>
        rw [hbuiltIn] at hfound
        cases hfound

end Runbook.Layers
