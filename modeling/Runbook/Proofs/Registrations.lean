import Runbook.Proofs.Merging

/-!
An overlay at work. Built-in resources and trees are registered in any order, the overlay is loaded
again and again while files change, and listings are handed out. A load goes well exactly if all
trees that were registered can be read, and then every name has the resource that the registrations
and the files come to, whatever was loaded before. A load that fails leaves what was served as it
was.
-/
namespace Runbook.Overlay

open Log

/-! Calls. -/

/-- What can be asked of an overlay. -/
inductive Call where
  | builtIn (name content : String)
  | root (path : Path) (tier : Tier)
  | load (files : Files)
  | list

/-- The tree that a call registers. -/
def Call.root? : Call → Option Resource.Root
  | .root path tier => some ⟨path, tier⟩
  | _ => none

/-- The built-in resource that a call registers, a name and a content. -/
def Call.builtIn? : Call → Option (String × String)
  | .builtIn name content => some (name, content)
  | _ => none

/-- An overlay, and the listings that it has handed out. -/
structure Session where
  overlay : Overlay
  listings : List (List Resource)

namespace Session

def opened (kind : String) (extensions : List String) : Session :=
  ⟨Overlay.empty kind extensions, []⟩

/-- What a call leaves. A load that fails gives no overlay, so that the old one stays. -/
def call (s : Session) : Call → Session
  | .builtIn name content => { s with overlay := s.overlay.addEmbedded name content }
  | .root path tier => { s with overlay := s.overlay.addRoot path tier }
  | .load files =>
    match (s.overlay.load files).outcome.1 with
    | .ok loaded => { s with overlay := loaded }
    | .error _ => s
  | .list => { s with listings := s.listings ++ [s.overlay.list] }

def after (s : Session) (calls : List Call) : Session := calls.foldl call s

theorem after_concat (s : Session) (calls : List Call) (c : Call) :
    s.after (calls ++ [c]) = (s.after calls).call c := List.foldl_concat ..

end Session

section Registering

variable {kind : String} {extensions : List String} {roots : List Resource.Root}
  {builtIns : List (String × String)} {o o' : Overlay} {s : Session} {files : Files}
  {records : List Record}

/-- What was registered with an overlay. -/
structure Registered (kind : String) (extensions : List String) (roots : List Resource.Root)
    (builtIns : List (String × String)) (o : Overlay) : Prop where
  kind : o.kind = kind
  extensions : o.extensions = extensions
  roots : o.roots = roots
  embedded : o.embedded = Layers.builtIns builtIns

theorem Registered.load (h : Registered kind extensions roots builtIns o)
    (hload : (o.load files).outcome = (.ok o', records)) :
    Registered kind extensions roots builtIns o' := by
  obtain ⟨merged, between, -, rfl⟩ := layRoots_of_load hload
  exact ⟨h.kind, h.extensions, h.roots, h.embedded⟩

/-- A call registers what it is given, and a load or a listing registers nothing. -/
theorem Registered.call (h : Registered kind extensions roots builtIns s.overlay) (c : Call) :
    Registered kind extensions (roots ++ [c].filterMap Call.root?)
      (builtIns ++ [c].filterMap Call.builtIn?) (s.call c).overlay := by
  cases c with
  | builtIn name content =>
    refine ⟨h.kind, h.extensions, h.roots.trans (List.append_nil roots).symm, ?_⟩
    exact (congrArg (Keyed.set name _) h.embedded).trans
      (Layers.builtIns_concat builtIns (name, content)).symm
  | root path tier =>
    refine ⟨h.kind, h.extensions, ?_, h.embedded.trans ?_⟩
    · exact congrArg (· ++ [(⟨path, tier⟩ : Resource.Root)]) h.roots
    · exact congrArg Layers.builtIns (List.append_nil builtIns).symm
  | load files =>
    have hnothing : Registered kind extensions (roots ++ []) (builtIns ++ []) s.overlay := by
      rwa [List.append_nil, List.append_nil]
    unfold Session.call
    dsimp only
    split
    · rename_i loaded hok
      exact hnothing.load (Prod.ext hok rfl)
    · exact hnothing
  | list =>
    have hnothing : Registered kind extensions (roots ++ []) (builtIns ++ []) s.overlay := by
      rwa [List.append_nil, List.append_nil]
    exact hnothing

/-- After any calls an overlay has what was registered, in this order. -/
theorem registered_after (kind : String) (extensions : List String) (calls : List Call) :
    Registered kind extensions (calls.filterMap Call.root?) (calls.filterMap Call.builtIn?)
      ((Session.opened kind extensions).after calls).overlay := by
  induction calls using List.reverseRecOn with
  | nil => exact ⟨rfl, rfl, rfl, rfl⟩
  | append_singleton calls c ih =>
    rw [Session.after_concat, List.filterMap_append, List.filterMap_append]
    exact ih.call c

/-- A listing is never changed or taken back. -/
theorem listings_prefix_call (s : Session) (c : Call) : s.listings <+: (s.call c).listings := by
  cases c with
  | builtIn | root => exact List.prefix_rfl
  | load files =>
    unfold Session.call
    dsimp only
    split <;> exact List.prefix_rfl
  | list => exact List.prefix_append ..

end Registering

/-! What registrations and files come to. -/

section Providing

variable {files : Files} {extensions : List String} {roots : List Resource.Root}
  {builtIns : List (String × String)} {name : String} {r r' : Resource}

/-- A file in a tree holds a resource with a name. -/
def Has (files : Files) (extensions : List String) (root : Path) (name : String) : Prop :=
  ∃ names bytes, Holds files extensions root name names bytes

/-- The resource of a name: of the last tree that has a file for it, where the last file counts; or
else the one that was built in under the name last. -/
inductive Provides (files : Files) (extensions : List String) (roots : List Resource.Root)
    (builtIns : List (String × String)) (name : String) : Resource → Prop
  | file {before after : List Resource.Root} {root : Resource.Root} {names : List String}
      {bytes : ByteArray} {content : String} (hroots : roots = before ++ root :: after)
      (hcounts : Counts files extensions root.path name names bytes)
      (hlater : ∀ other ∈ after, ¬ Has files extensions other.path name)
      (htext : Files.text? bytes = some content) :
      Provides files extensions roots builtIns name
        ⟨name, content, root.tier, some (root.path ++ ⟨false, names⟩)⟩
  | builtIn {before after : List (String × String)} {content : String}
      (hroots : ∀ root ∈ roots, ¬ Has files extensions root.path name)
      (hbuiltIns : builtIns = before ++ (name, content) :: after)
      (hlater : ∀ e ∈ after, e.1 ≠ name) :
      Provides files extensions roots builtIns name ⟨name, content, .embedded, none⟩

/-- The last item of a list with a property is one item only. -/
theorem last_unique {α : Type} {P : α → Prop} {before after before' after' : List α} {x y : α}
    (h : before ++ x :: after = before' ++ y :: after') (hx : P x) (hy : P y)
    (hafter : ∀ z ∈ after, ¬ P z) (hafter' : ∀ z ∈ after', ¬ P z) : x = y := by
  rcases List.append_eq_append_iff.mp h with ⟨between, -, hrest⟩ | ⟨between, -, hrest⟩
  · cases between with
    | nil => exact (List.cons.inj hrest).1
    | cons first between =>
      obtain ⟨-, rfl⟩ := List.cons.inj hrest
      exact absurd hy (hafter y (List.mem_append_right _ (List.mem_cons_self ..)))
  · cases between with
    | nil => exact (List.cons.inj hrest).1.symm
    | cons first between =>
      obtain ⟨-, rfl⟩ := List.cons.inj hrest
      exact absurd hx (hafter' x (List.mem_append_right _ (List.mem_cons_self ..)))

theorem Provides.unique (h : Provides files extensions roots builtIns name r)
    (h' : Provides files extensions roots builtIns name r') : r = r' := by
  cases h with
  | file hroots hcounts hlater htext =>
    cases h' with
    | file hroots' hcounts' hlater' htext' =>
      obtain rfl := last_unique (P := fun root => Has files extensions root.path name)
        (hroots.symm.trans hroots') ⟨_, _, hcounts.holds⟩ ⟨_, _, hcounts'.holds⟩ hlater hlater'
      obtain ⟨rfl, rfl⟩ := hcounts.unique hcounts'
      rw [htext, Option.some.injEq] at htext'
      rw [htext']
    | builtIn hnone _ _ =>
      exact absurd ⟨_, _, hcounts.holds⟩ (hnone _ (hroots ▸ List.mem_append_cons_self))
  | builtIn hnone hbuiltIns hlater =>
    cases h' with
    | file hroots hcounts _ _ =>
      exact absurd ⟨_, _, hcounts.holds⟩ (hnone _ (hroots ▸ List.mem_append_cons_self))
    | builtIn _ hbuiltIns' hlater' =>
      have hsame := last_unique (P := fun e : String × String => e.1 = name)
        (hbuiltIns.symm.trans hbuiltIns') rfl rfl hlater hlater'
      rw [(Prod.mk.inj hsame).2]

end Providing

/-! Loading. -/

section Loading

variable {files : Files} {extensions : List String} {roots : List Resource.Root}
  {builtIns : List (String × String)} {kind name : String} {root : Path} {o o' : Overlay}
  {records records' : List Record}

/-- A tree can be read: it is no file, and its files of resources are texts. -/
structure Legible (files : Files) (extensions : List String) (root : Path) : Prop where
  directory : ∀ bytes, files.content? root ≠ some (.file bytes)
  texts : ∀ name names bytes, Holds files extensions root name names bytes →
    Files.text? bytes ≠ none

theorem texts_of_readAll {tier : Tier} {met : List String} {found : List Found}
    {rs : List Resource}
    (h : (readAll kind tier met found).run.run records = (.ok rs, records')) :
    ∀ f ∈ found, Files.text? f.bytes ≠ none := by
  have htexts : List.Forall₂ (fun f r => Files.text? f.bytes ≠ none ∧ f.resource? tier = some r)
      found rs := by
    refine (resource?_of_readAll h).imp fun f r hr => ⟨fun hnone => ?_, hr⟩
    unfold Found.resource? at hr
    rw [hnone] at hr
    cases hr
  exact ((List.forall₂_and_left _ _).mp htexts).1

theorem legible_of_scan (hdistinct : files.Distinct) {root : Resource.Root} {rs : List Resource}
    (h : (o.scan files root).run.run records = (.ok rs, records')) :
    Legible files o.extensions root.path := by
  unfold scan at h
  split at h
  · rename_i hmissing
    refine ⟨fun bytes hfile => ?_, fun name names bytes hholds => ?_⟩
    · rw [hmissing] at hfile
      cases hfile
    · obtain ⟨location, hlocate, hdir, -⟩ := hholds.file
      unfold Files.content? at hmissing
      rw [hlocate] at hmissing
      dsimp only at hmissing
      rw [hdir] at hmissing
      cases hmissing
  · cases h
  · rename_i hdir
    have hroot : files.isDirectory root.path = true := by
      unfold Files.isDirectory
      rw [hdir]
    refine ⟨fun bytes hfile => ?_, fun name names bytes hholds hnone => ?_⟩
    · rw [hdir] at hfile
      cases hfile
    · have hmem : (⟨name, root.path ++ (⟨false, names⟩ : Path), bytes⟩ : Found) ∈
          candidates files o.extensions root.path :=
        (Layers.mem_candidates_iff hdistinct hroot).mpr ⟨names, hholds, rfl⟩
      exact texts_of_readAll h _ hmem hnone

theorem legible_of_layRoots (hdistinct : files.Distinct) {merged merged' : List (String × Resource)}
    (h : (o.layRoots files merged roots).run.run records = (.ok merged', records')) :
    ∀ root ∈ roots, Legible files o.extensions root.path := by
  induction roots generalizing merged records with
  | nil => exact fun root hroot => absurd hroot List.not_mem_nil
  | cons root rest ih =>
    unfold layRoots at h
    obtain ⟨rs, between, hscan, h⟩ := exists_of_run_bind_eq_ok h
    obtain ⟨laid, between', -, h⟩ := exists_of_run_bind_eq_ok h
    exact List.forall_mem_cons.mpr ⟨legible_of_scan hdistinct hscan, ih h⟩

/-- A load goes well exactly if all trees can be read. -/
theorem exists_load_iff (hdistinct : files.Distinct) :
    (∃ o', (o.load files).outcome.1 = .ok o') ↔
      ∀ root ∈ o.roots, Legible files o.extensions root.path := by
  constructor
  · rintro ⟨o', hok⟩
    obtain ⟨merged, between, hlay, -⟩ := layRoots_of_load (Prod.ext hok rfl)
    exact legible_of_layRoots hdistinct hlay
  · intro h
    obtain ⟨merged, between, hlay⟩ := Layers.exists_layRoots
      (fun root hroot => Layers.exists_scan hdistinct (h root hroot).directory (h root hroot).texts)
      o.embedded []
    have hload : (o.load files).run.run [] = (.ok { o with resources := merged }, between ++ [_]) :=
      run_bind_of_ok hlay _
    exact ⟨_, congrArg Prod.fst hload⟩

/-- A name is built in as it was registered last, or it never was. -/
theorem get?_builtIns (builtIns : List (String × String)) (name : String) :
    (∃ before content after, builtIns = before ++ (name, content) :: after ∧
        (∀ e ∈ after, e.1 ≠ name) ∧
        Keyed.get? name (Layers.builtIns builtIns) = some ⟨name, content, .embedded, none⟩) ∨
      (∀ e ∈ builtIns, e.1 ≠ name) ∧ Keyed.get? name (Layers.builtIns builtIns) = none := by
  induction builtIns using List.reverseRecOn with
  | nil => exact Or.inr ⟨fun e he => absurd he List.not_mem_nil, rfl⟩
  | append_singleton entries e ih =>
    rw [Layers.builtIns_concat]
    by_cases hname : e.1 = name
    · subst hname
      exact Or.inl ⟨entries, e.2, [], rfl, fun e he => absurd he List.not_mem_nil,
        Keyed.get?_set_self ..⟩
    · rw [Keyed.get?_set_ne (Ne.symm hname)]
      rcases ih with ⟨before, content, after, rfl, hlater, hget⟩ | ⟨hnone, hget⟩
      · refine Or.inl ⟨before, content, after ++ [e], List.append_assoc .., ?_, hget⟩
        exact List.forall_mem_append.mpr ⟨hlater, List.forall_mem_singleton.mpr hname⟩
      · exact Or.inr ⟨List.forall_mem_append.mpr ⟨hnone, List.forall_mem_singleton.mpr hname⟩, hget⟩

/-- What a load comes to is what the registrations and the files provide. -/
theorem provides_of_load (hdistinct : files.Distinct)
    (hregistered : Registered kind extensions roots builtIns o)
    (h : (o.load files).run.run records = (.ok o', records')) (name : String) :
    (∃ r, o'.get? name = some r ∧ Provides files extensions roots builtIns name r) ∨
      o'.get? name = none ∧ ∀ r, ¬ Provides files extensions roots builtIns name r := by
  obtain ⟨merged, between, hlay, rfl⟩ := layRoots_of_load h
  rw [hregistered.roots, hregistered.embedded] at hlay
  rcases get?_of_layRoots hlay name with
    ⟨before, root, after, f, r, hroots, hf, hr, hafter, hget⟩ | ⟨hnone, hget⟩
  · rw [hregistered.extensions] at hf hafter
    obtain ⟨content, htext, rfl⟩ := Option.map_eq_some_iff.mp hr
    obtain ⟨names, hcounts, hpath⟩ := counting?_eq_some hdistinct hf
    refine Or.inl ⟨_, hget, ?_⟩
    rw [hpath]
    exact .file hroots hcounts
      (fun other hother => (counting?_eq_none_iff hdistinct).mp (hafter other hother)) htext
  · rw [hregistered.extensions] at hnone
    have hnever : ∀ root ∈ roots, ¬ Has files extensions root.path name := fun root hroot =>
      (counting?_eq_none_iff hdistinct).mp (hnone root hroot)
    rcases get?_builtIns builtIns name with
      ⟨before, content, after, hbuiltIns, hlater, hfound⟩ | ⟨hnothing, hfound⟩
    · exact Or.inl ⟨_, hget.trans hfound, .builtIn hnever hbuiltIns hlater⟩
    · refine Or.inr ⟨hget.trans hfound, fun r hprovides => ?_⟩
      cases hprovides with
      | file hroots hcounts _ _ =>
        exact hnever _ (hroots ▸ List.mem_append_cons_self) ⟨_, _, hcounts.holds⟩
      | builtIn _ hbuiltIns _ =>
        exact absurd rfl (hnothing (name, _) (hbuiltIns ▸ List.mem_append_cons_self))

/-- What an overlay serves: for every name what is provided, and as a list the same, each name once,
by names. -/
structure Serves (files : Files) (extensions : List String) (roots : List Resource.Root)
    (builtIns : List (String × String)) (o : Overlay) : Prop where
  provided : ∀ name r, o.get? name = some r ↔ Provides files extensions roots builtIns name r
  listed : ∀ r, r ∈ o.list ↔ o.get? r.name = some r
  ordered : o.list.Pairwise fun a b => a.name < b.name
  contained : ∀ name, o.contains name = true ↔ ∃ r ∈ o.list, r.name = name
  counted : o.list.length = o.resources.length

theorem serves_of_load (hdistinct : files.Distinct)
    (hregistered : Registered kind extensions roots builtIns o)
    (h : (o.load files).run.run records = (.ok o', records')) :
    Serves files extensions roots builtIns o' := by
  have hfiled : Filed o'.resources := by
    obtain ⟨merged, between, hlay, rfl⟩ := layRoots_of_load h
    rw [hregistered.embedded] at hlay
    exact (Layers.filed_builtIns builtIns).layRoots hlay
  have hlisted : ∀ name r, r ∈ o'.list ∧ r.name = name ↔ o'.get? name = some r :=
    fun name r => mem_list_iff hfiled
  refine ⟨fun name r => ?_, fun r => ?_, Layers.pairwise_names_list hfiled, fun name => ?_, ?_⟩
  · rcases provides_of_load hdistinct hregistered h name with ⟨r', hget, hprovides⟩ | ⟨hget, hnone⟩
    · rw [hget, Option.some.injEq]
      exact ⟨fun hr => hr ▸ hprovides, fun hr => hprovides.unique hr⟩
    · rw [hget]
      exact iff_of_false nofun (hnone r)
  · rw [← hlisted, and_iff_left rfl]
  · unfold contains Keyed.has
    rw [Option.isSome_iff_exists]
    exact exists_congr fun r => (hlisted name r).symm
  · unfold list
    rw [List.length_map]
    exact List.length_mergeSort _

end Loading

/-! Names that are given twice. -/

section Repeating

variable {files : Files} {extensions : List String} {kind : String} {tier : Tier} {root : Path}
  {met : List String} {found : List Found} {f : Found} {o o' : Overlay}
  {records records' : List Record}

/-- A file of a tree gives a name that an earlier file of the tree has given. -/
def Repeats (files : Files) (extensions : List String) (root : Path) (f : Found) : Prop :=
  ∃ names earlier bytes, Holds files extensions root f.name names f.bytes ∧
    f.path = root ++ (⟨false, names⟩ : Path) ∧
    Holds files extensions root f.name earlier bytes ∧ earlier < names

/-- The files of a tree that repeat names, each once, in the order of their paths. -/
structure Repeated (files : Files) (extensions : List String) (root : Path) (found : List Found) :
    Prop where
  ordered : found.Pairwise fun f g => f.path.names < g.path.names
  repeats : ∀ f, f ∈ found ↔ Repeats files extensions root f

/-- Of files in order, those whose names were met before. -/
def metBefore : List String → List Found → List Found
  | _, [] => []
  | met, f :: rest =>
    if met.contains f.name then f :: metBefore (f.name :: met) rest
    else metBefore (f.name :: met) rest

theorem sublist_metBefore (met : List String) (found : List Found) :
    (metBefore met found).Sublist found := by
  induction found generalizing met with
  | nil => exact List.Sublist.slnil
  | cons f rest ih =>
    unfold metBefore
    split
    · exact (ih _).cons_cons f
    · exact (ih _).cons f

theorem mem_metBefore_iff (hordered : found.Pairwise fun f g => f.path.names < g.path.names) :
    f ∈ metBefore met found ↔ f ∈ found ∧
      (f.name ∈ met ∨ ∃ g ∈ found, g.name = f.name ∧ g.path.names < f.path.names) := by
  induction found generalizing met with
  | nil => exact iff_of_false List.not_mem_nil fun h => List.not_mem_nil h.1
  | cons first rest ih =>
    obtain ⟨hfirst, hrest⟩ := List.pairwise_cons.mp hordered
    -- Nothing comes before the first file, and it comes before all others.
    have hnone : ¬ ∃ g ∈ first :: rest, g.name = first.name ∧ g.path.names < first.path.names := by
      rintro ⟨g, hg, -, hlt⟩
      rcases List.mem_cons.mp hg with rfl | hg
      · exact lt_irrefl _ hlt
      · exact lt_asymm hlt (hfirst g hg)
    have hlater : f ∈ metBefore (first.name :: met) rest ↔ f ∈ rest ∧
        (f.name ∈ met ∨ ∃ g ∈ first :: rest, g.name = f.name ∧ g.path.names < f.path.names) := by
      rw [ih hrest]
      refine and_congr_right fun hmem => ?_
      rw [List.mem_cons, List.exists_mem_cons_iff, and_iff_left (hfirst f hmem),
        eq_comm (a := f.name), or_assoc, or_left_comm]
    have hsame : f ∈ first :: rest ∧
        (f.name ∈ met ∨ ∃ g ∈ first :: rest, g.name = f.name ∧ g.path.names < f.path.names) ↔
        f = first ∧ first.name ∈ met ∨ f ∈ metBefore (first.name :: met) rest := by
      rw [hlater, List.mem_cons, or_and_right]
      refine or_congr_left (and_congr_right ?_)
      rintro rfl
      exact or_iff_left hnone
    rw [hsame, metBefore]
    split
    · rename_i hmet
      rw [List.mem_cons, and_iff_left (List.contains_iff_mem.mp hmet)]
    · rename_i hnew
      rw [List.contains_iff_mem] at hnew
      exact (or_iff_right fun h => hnew h.2).symm

theorem append_lt_append_iff (before : List String) {a b : List String} :
    before ++ a < before ++ b ↔ a < b := by
  induction before with
  | nil => exact Iff.rfl
  | cons first rest ih =>
    rw [List.cons_append, List.cons_append, List.cons_lt_cons_iff, ih]
    exact ⟨fun h => (h.resolve_left (lt_irrefl _)).2, fun h => Or.inr ⟨rfl, h⟩⟩

/-- What a file holds and the names that lead to it, if it lies below a location. -/
def below? (location : Location) (e : Location × Content) : Option (List String × ByteArray) :=
  match e.2 with
  | .file bytes =>
    if location.isPrefixOf e.1 then some (e.1.drop location.length, bytes) else none
  | .directory => none

theorem eq_of_below? {location : Location} {e : Location × Content}
    {file : List String × ByteArray} (h : below? location e = some file) :
    e = (location ++ file.1, .file file.2) := by
  obtain ⟨there, content⟩ := e
  cases content with
  | directory => cases h
  | file bytes =>
    unfold below? at h
    dsimp only at h
    split at h
    · rename_i hbelow
      obtain ⟨rest, rfl⟩ := List.isPrefixOf_iff_prefix.mp hbelow
      cases h
      rw [List.drop_left]
    · cases h

theorem nodup_filesBelow (hdistinct : files.Distinct) (location : Location) :
    (files.filesBelow location).Nodup := by
  have hfound : (files.entries.filterMap (below? location)).Nodup :=
    (List.Nodup.of_map _ hdistinct).filterMap fun a b file ha hb =>
      (eq_of_below? ha).trans (eq_of_below? hb).symm
  exact (List.mergeSort_perm _ _).nodup_iff.mpr hfound

/-- The files of a tree are found in the order of their paths. -/
theorem pairwise_candidates (hdistinct : files.Distinct) (hroot : files.isDirectory root = true) :
    (candidates files extensions root).Pairwise fun f g => f.path.names < g.path.names := by
  obtain ⟨location, hlocate, hdir⟩ := Files.isDirectory_iff.mp hroot
  rw [candidates_eq hlocate, List.pairwise_filterMap]
  refine ((files.pairwise_filesBelow location).and (nodup_filesBelow hdistinct location)).imp_of_mem
    fun {a b} ha hb hab f hf g hg => ?_
  obtain ⟨hnamed, hf⟩ := foundIn_eq_some_iff.mp hf
  obtain ⟨hnamed', hg⟩ := foundIn_eq_some_iff.mp hg
  have hholds := (holds_iff_mem hdistinct hlocate hdir).mpr ⟨ha, hnamed⟩
  have hholds' := (holds_iff_mem hdistinct hlocate hdir).mpr ⟨hb, hnamed'⟩
  have hne : a.1 ≠ b.1 := fun hsame =>
    hab.2 (Prod.ext hsame (hholds.bytes_eq (hsame ▸ hholds')))
  rw [hf, hg]
  exact (append_lt_append_iff root.names).mpr (lt_of_le_of_ne (not_lt.mp hab.1) hne)

/-- The files of a tree that a reader warns of. -/
def repeatedIn (files : Files) (extensions : List String) (root : Path) : List Found :=
  if files.isDirectory root then metBefore [] (candidates files extensions root) else []

theorem repeated_repeatedIn (hdistinct : files.Distinct) :
    Repeated files extensions root (repeatedIn files extensions root) := by
  unfold repeatedIn
  split
  · rename_i hroot
    have hordered : (candidates files extensions root).Pairwise
        fun f g => f.path.names < g.path.names := pairwise_candidates hdistinct hroot
    refine ⟨hordered.sublist (sublist_metBefore ..), fun f => ?_⟩
    rw [mem_metBefore_iff hordered, or_iff_right List.not_mem_nil,
      Layers.mem_candidates_iff hdistinct hroot]
    constructor
    · rintro ⟨⟨names, hholds, hpath⟩, g, hg, hname, hlt⟩
      obtain ⟨earlier, hearlier, hpath'⟩ := (Layers.mem_candidates_iff hdistinct hroot).mp hg
      rw [hpath, hpath'] at hlt
      exact ⟨names, earlier, g.bytes, hholds, hpath, hname ▸ hearlier,
        (append_lt_append_iff root.names).mp hlt⟩
    · rintro ⟨names, earlier, bytes, hholds, hpath, hearlier, hlt⟩
      refine ⟨⟨names, hholds, hpath⟩, ⟨f.name, root ++ (⟨false, earlier⟩ : Path), bytes⟩,
        (Layers.mem_candidates_iff hdistinct hroot).mpr ⟨earlier, hearlier, rfl⟩, rfl, ?_⟩
      rw [hpath]
      exact (append_lt_append_iff root.names).mpr hlt
  · rename_i hroot
    refine ⟨List.Pairwise.nil, fun f => iff_of_false List.not_mem_nil ?_⟩
    rintro ⟨names, -, -, ⟨⟨location, hlocate, hdir, -⟩, -⟩, -⟩
    exact hroot (Files.isDirectory_iff.mpr ⟨location, hlocate, hdir⟩)

/-! What is warned of. -/

/-- The records that warn. -/
def warnings (records : List Record) : List Record := records.filter fun r => r.level == warning

theorem warnings_append_of_debug {written : List Record}
    (h : ∀ record ∈ written, record.level = debug) :
    warnings (records ++ written) = warnings records := by
  have hnone : warnings written = [] := List.filter_eq_nil_iff.mpr fun record hrecord => by
    rw [h record hrecord]
    decide
  exact (List.filter_append ..).trans ((congrArg _ hnone).trans (List.append_nil _))

theorem warnings_readAll {rs : List Resource}
    (h : (readAll kind tier met found).run.run records = (.ok rs, records')) :
    warnings records' = warnings records ++ (metBefore met found).map (duplicateRecord kind) := by
  induction found generalizing met records rs with
  | nil =>
    cases h
    exact (List.append_nil _).symm
  | cons f rest ih =>
    obtain ⟨content, others, -, -, hothers⟩ := readAll_cons h
    rw [ih hothers, metBefore]
    split
    · have hone : warnings [duplicateRecord kind f] = [duplicateRecord kind f] := rfl
      unfold warnings at hone ⊢
      rw [List.filter_append, hone, List.append_assoc, List.singleton_append, List.map_cons]
    · rw [List.append_nil]

theorem warnings_scan {root : Resource.Root} {rs : List Resource}
    (h : (o.scan files root).run.run records = (.ok rs, records')) :
    warnings records' = warnings records ++
      (repeatedIn files o.extensions root.path).map (duplicateRecord o.kind) := by
  unfold repeatedIn Files.isDirectory
  unfold scan at h
  split at h
  · rename_i hmissing
    cases h
    rw [hmissing]
    exact (List.append_nil _).symm
  · cases h
  · rename_i hdir
    rw [hdir]
    exact warnings_readAll h

theorem warnings_layOver {merged merged' : List (String × Resource)} {rs : List Resource}
    (h : (layOver kind merged rs).run.run records = (.ok merged', records')) :
    warnings records' = warnings records := by
  induction rs generalizing merged records with
  | nil =>
    cases h
    rfl
  | cons r rest ih =>
    obtain ⟨written, hwritten, hrest⟩ := layOver_cons h
    rw [ih hrest, warnings_append_of_debug hwritten]

theorem warnings_layRoots {roots : List Resource.Root} {merged merged' : List (String × Resource)}
    (h : (o.layRoots files merged roots).run.run records = (.ok merged', records')) :
    warnings records' = warnings records ++ (roots.flatMap fun root =>
      repeatedIn files o.extensions root.path).map (duplicateRecord o.kind) := by
  induction roots generalizing merged records with
  | nil =>
    cases h
    exact (List.append_nil _).symm
  | cons root rest ih =>
    unfold layRoots at h
    obtain ⟨rs, between, hscan, h⟩ := exists_of_run_bind_eq_ok h
    obtain ⟨laid, between', hlay, h⟩ := exists_of_run_bind_eq_ok h
    rw [ih h, warnings_layOver hlay, warnings_scan hscan, List.append_assoc, List.flatMap_cons,
      List.map_append]

/-- A load warns of the files that repeat names, tree by tree, and of nothing else. -/
theorem warnings_load (h : (o.load files).outcome = (.ok o', records)) :
    warnings records = (o.roots.flatMap fun root =>
      repeatedIn files o.extensions root.path).map (duplicateRecord o.kind) := by
  unfold load at h
  obtain ⟨merged, between, hlay, h⟩ := exists_of_run_bind_eq_ok h
  obtain ⟨_, between', hwrite, h⟩ := exists_of_run_bind_eq_ok h
  cases hwrite
  cases h
  rw [warnings_append_of_debug (List.forall_mem_singleton.mpr rfl), warnings_layRoots hlay]
  rfl

end Repeating

/-! Loads among other calls. -/

theorem listings_prefix_after (s : Session) (calls : List Call) :
    s.listings <+: (s.after calls).listings := by
  induction calls using List.reverseRecOn with
  | nil => exact List.prefix_rfl
  | append_singleton calls c ih =>
    rw [Session.after_concat]
    exact ih.trans (listings_prefix_call _ c)

/-- After any calls, earlier loads among them, a load goes well exactly if all trees that were
registered can be read. Then the overlay serves what the registrations and the files provide, and
the load has warned of each file that repeats a name in its tree. A load that fails changes nothing,
and listings stay as they were handed out. -/
theorem load_after (kind : String) (extensions : List String) (calls : List Call) {files : Files}
    (hdistinct : files.Distinct) :
    let s := (Session.opened kind extensions).after calls
    let roots := calls.filterMap Call.root?
    ((∃ loaded, (s.overlay.load files).outcome.1 = .ok loaded) ↔
      ∀ root ∈ roots, Legible files extensions root.path) ∧
    (∀ loaded records, (s.overlay.load files).outcome = (.ok loaded, records) →
      s.call (.load files) = { s with overlay := loaded } ∧
      Serves files extensions roots (calls.filterMap Call.builtIn?) loaded ∧
      ∃ repeated, List.Forall₂ (fun root => Repeated files extensions root.path) roots repeated ∧
        warnings records = repeated.flatten.map (duplicateRecord kind)) ∧
    (∀ fault, (s.overlay.load files).outcome.1 = .error fault → s.call (.load files) = s) ∧
    ∀ later, s.listings <+: (s.after later).listings := by
  intro s roots
  have hregistered : Registered kind extensions roots (calls.filterMap Call.builtIn?) s.overlay :=
    registered_after kind extensions calls
  refine ⟨?_, fun loaded records hload => ⟨?_, serves_of_load hdistinct hregistered hload,
    roots.map fun root => repeatedIn files extensions root.path, ?_, ?_⟩, fun fault hfault => ?_,
    listings_prefix_after s⟩
  · rw [exists_load_iff hdistinct, hregistered.roots, hregistered.extensions]
  · unfold Session.call
    dsimp only
    rw [hload]
  · exact List.forall₂_map_right_iff.mpr
      (List.forall₂_same.mpr fun root _ => repeated_repeatedIn hdistinct)
  · rw [warnings_load hload, hregistered.roots, hregistered.extensions, hregistered.kind,
      List.flatMap_def]
  · unfold Session.call
    dsimp only
    rw [hfault]

/-- Two trees with a file for the same name, and a file beside them. -/
def twoTrees : Files where
  entries :=
    [(["near"], .directory), (["near", "hello.md"], .file "near".toUTF8),
      (["far"], .directory), (["far", "hello.markdown"], .file "far".toUTF8),
      (["note"], .file "note".toUTF8)]
  base := []

/-- Registrations, with a load before the nearer tree is registered. -/
def firstCalls : List Call :=
  [.builtIn "hello" "old", .builtIn "hello" "new", .builtIn "bye" "built in",
    .root (.ofNames ["far"]) .user, .load twoTrees, .list, .root (.ofNames ["near"]) .project]

/-- The tree that was registered last comes first. Once a file is registered as a tree, loads change
nothing any more. -/
theorem load_after_first_calls :
    let s := (Session.opened "prompt" [".md", ".markdown"]).after firstCalls
    let s' := (Session.opened "prompt" [".md", ".markdown"]).after
      (firstCalls ++ [.load twoTrees, .list, .root (.ofNames ["note"]) .project])
    (∃ loaded, s.call (.load twoTrees) = { s with overlay := loaded } ∧
      Provides twoTrees [".md", ".markdown"] (firstCalls.filterMap Call.root?)
        (firstCalls.filterMap Call.builtIn?) "hello"
        ⟨"hello", "near", .project, some (.ofNames ["near", "hello.md"])⟩) ∧
      s'.call (.load twoTrees) = s' := by
  intro s s'
  have hdistinct : twoTrees.Distinct := by
    unfold Files.Distinct
    decide
  have hload : succeedsWith (fun loaded => loaded.get? "hello" ==
      some ⟨"hello", "near", .project, some (.ofNames ["near", "hello.md"])⟩)
      (s.overlay.load twoTrees).outcome.1 = true := by
    decide +kernel
  have hfail : (s'.overlay.load twoTrees).outcome.1.isOk = false := by
    decide +kernel
  obtain ⟨loaded, hok, hget⟩ := succeedsWith_iff.mp hload
  obtain ⟨-, hgood, -, -⟩ := load_after "prompt" [".md", ".markdown"] firstCalls hdistinct
  obtain ⟨hcall, hserves, -⟩ := hgood loaded _ (Prod.ext hok rfl)
  obtain ⟨-, -, hbad, -⟩ := load_after "prompt" [".md", ".markdown"]
    (firstCalls ++ [.load twoTrees, .list, .root (.ofNames ["note"]) .project]) hdistinct
  refine ⟨⟨loaded, hcall, (hserves.provided "hello" _).mp (beq_iff_eq.mp hget)⟩, ?_⟩
  cases hload' : (s'.overlay.load twoTrees).outcome.1 with
  | ok loaded' =>
    rw [hload'] at hfail
    cases hfail
  | error fault => exact hbad fault hload'

end Runbook.Overlay
