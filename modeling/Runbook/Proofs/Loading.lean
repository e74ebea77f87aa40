import Runbook.Proofs.Precedence
import Runbook.Proofs.Resolving

/-!
What a load hands over. A load that goes well reads the item of every resource in the overlay,
writes down the tier of each, and puts each item where its name finds it. Since the overlay has for
each name what its layers supply, so have the tiers and the items.
-/
namespace Runbook

open Log

/-! Names of resources. -/

theorem Path.text_ne_empty (p : Path) : p.text ≠ "" := by
  unfold Path.text
  dsimp only
  split
  · intro h
    have := congrArg String.length h
    simp at this
  · split
    · decide
    · rename_i hsome
      rwa [String.isEmpty_iff] at hsome

theorem Resource.name_ne_empty {extensions names : List String} {name : String}
    (h : nameOf? extensions names = some name) : name ≠ "" := by
  unfold nameOf? at h
  obtain ⟨file, -, h⟩ := Option.bind_eq_some_iff.mp h
  obtain ⟨stem, -, rfl⟩ := Option.map_eq_some_iff.mp h
  exact Path.text_ne_empty _

variable {α : Type} {parse : String → String → Except Refusal α}

/-! The overlay as a list. -/

namespace Overlay

variable {o : Overlay} {r : Resource} {name : String}

theorem mem_list_iff (h : Filed o.resources) :
    r ∈ o.list ∧ r.name = name ↔ o.get? name = some r := by
  unfold list get?
  rw [List.mem_map, Keyed.get?_eq_some_iff h.once]
  constructor
  · rintro ⟨⟨e, he, rfl⟩, rfl⟩
    rw [Keyed.sorted, List.mem_mergeSort] at he
    rw [← h.named e he]
    exact he
  · exact fun hmem => ⟨⟨_, List.mem_mergeSort.mpr hmem, rfl⟩, (h.named _ hmem).symm⟩

theorem nodup_names_list (h : Filed o.resources) : (o.list.map Resource.name).Nodup := by
  unfold list
  rw [List.map_map]
  have hkeys : (Keyed.sorted o.resources).map (Resource.name ∘ (·.2)) =
      Keyed.keys (Keyed.sorted o.resources) :=
    List.map_congr_left fun e he => (h.named e (List.mem_mergeSort.mp he)).symm
  have hperm : (Keyed.keys (Keyed.sorted o.resources)).Perm (Keyed.keys o.resources) :=
    (List.mergeSort_perm o.resources _).map _
  rw [hkeys, hperm.nodup_iff]
  exact h.once

/-- Tiers are found as their resources are. -/
theorem get?_tiers (h : Filed o.resources) (name : String) :
    Keyed.get? name (o.list.map fun r => (r.name, r.tier)) = (o.get? name).map Resource.tier := by
  have honce : (Keyed.keys (o.list.map fun r => (r.name, r.tier))).Nodup := by
    unfold Keyed.keys
    rw [List.map_map]
    exact nodup_names_list h
  refine Option.ext fun tier => ?_
  rw [Keyed.get?_eq_some_iff honce, List.mem_map, Option.map_eq_some_iff]
  refine exists_congr fun r => ?_
  rw [← mem_list_iff h, Prod.mk.injEq, and_assoc]

/-- Items that were read from the list of an overlay are found as their resources are. -/
theorem get?_items {R : Resource → α → Prop} {nameOf : α → String} {items : List α}
    (h : Filed o.resources) (hitems : List.Forall₂ R o.list items)
    (hname : ∀ r item, R r item → nameOf item = r.name) (name : String) :
    Option.Rel R (o.get? name) (Keyed.get? name
      (items.foldl (fun acc item => Keyed.set (nameOf item) item acc) [])) := by
  have honce : (o.list.reverse.map Resource.name).Nodup := by
    rw [List.map_reverse, List.nodup_reverse]
    exact nodup_names_list h
  have hfind : o.list.reverse.find? (fun r => r.name == name) = o.get? name :=
    Option.ext fun r => by rw [Keyed.find?_eq_some_iff honce, List.mem_reverse, mem_list_iff h]
  rw [Keyed.get?_foldl_set, Keyed.get?_nil, Option.or_none, ← hfind]
  exact find?_of_forall₂ (List.forall₂_reverse_iff.mpr hitems) hname name

end Overlay

namespace Layers

open Overlay

variable {files : Files} {l l' : Layers α} {name : String} {tier : Tier} {content : String}
  {records records' : List Record} {store store' : Collection α} {items : List α}

theorem Supplies.name_ne_empty (hembedded : ∀ e ∈ l.embedded, e.1 ≠ "")
    (h : Supplies files l name tier content) : name ≠ "" := by
  cases h with
  | project _ _ hcounts _ => exact Resource.name_ne_empty hcounts.holds.named
  | user _ hcounts _ => exact Resource.name_ne_empty hcounts.holds.named
  | embedded _ _ hbuiltIn =>
    exact hembedded _ ((Keyed.ofList_spec l.embedded).2 _ (Keyed.mem_of_get? hbuiltIn))

/-- A load that goes well reads the layers and the item of every resource, and keeps them all. -/
theorem load_eq_ok (hreads : l.kind.Reads parse)
    (h : (l.load files store).run.run records = (.ok (l', store'), records')) :
    ∃ o between items, ((l.register files).load files).run.run records = (.ok o, between) ∧
      List.Forall₂ (fun r item => parse r.name r.content = .ok item) o.list items ∧
      l' = { l with overlay := o, sources := o.list.map fun r => (r.name, r.tier) } ∧
      store' = items.foldl (fun acc item => Keyed.set (l.kind.nameOf item) item acc) store := by
  unfold load at h
  obtain ⟨resolution, read, hresolve, h⟩ := exists_of_run_bind_eq_ok h
  obtain ⟨⟨between, hscan⟩, hitems, hsources⟩ := resolve_eq_ok hreads (congrArg Prod.fst hresolve)
  have hcommit : Gives (l.commit files resolution store) _ := gives_commit resolution store
  have hgiven := hcommit read
  rw [h] at hgiven
  cases hgiven
  exact ⟨resolution.overlay, between, resolution.items, hscan, hitems, by rw [← hsources]; rfl, rfl⟩

theorem filed_of_load {o : Overlay}
    (h : ((l.register files).load files).run.run records = (.ok o, records')) :
    Filed o.resources := by
  obtain ⟨merged, between, hlay, rfl⟩ := layRoots_of_load h
  rw [register_eq] at hlay
  exact (filed_builtIns l.embedded).layRoots hlay

/-- The overlay of a load that goes well has for each name what supplies it. -/
theorem get?_eq_some_iff_supplies {o : Overlay} (hdistinct : files.Distinct)
    (h : ((l.register files).load files).run.run records = (.ok o, records')) :
    (o.get? name).map (fun r => (r.tier, r.content)) = some (tier, content) ↔
      Supplies files l name tier content := by
  unfold get?
  rcases supplies_of_load hdistinct h name with ⟨r, hr, hsupplies⟩ | ⟨hnone, hnever⟩
  · rw [hr, Option.map_some, Option.some.injEq, Prod.mk.injEq]
    constructor
    · rintro ⟨rfl, rfl⟩
      exact hsupplies
    · exact hsupplies.unique
  · rw [hnone]
    exact iff_of_false nofun (hnever tier content)

variable {o : Overlay}

theorem tier_iff_supplies (hdistinct : files.Distinct)
    (h : ((l.register files).load files).run.run records = (.ok o, records')) :
    Keyed.get? name (o.list.map fun r => (r.name, r.tier)) = some tier ↔
      ∃ content, Supplies files l name tier content := by
  rw [get?_tiers (filed_of_load h), Option.map_eq_some_iff]
  constructor
  · rintro ⟨r, hr, rfl⟩
    exact ⟨r.content, (get?_eq_some_iff_supplies hdistinct h).mp (by rw [hr]; rfl)⟩
  · rintro ⟨content, hcontent⟩
    obtain ⟨r, hr, hparts⟩ :=
      Option.map_eq_some_iff.mp ((get?_eq_some_iff_supplies hdistinct h).mpr hcontent)
    exact ⟨r, hr, (Prod.mk.inj hparts).1⟩

theorem name_ne_empty_of_mem_list (hdistinct : files.Distinct)
    (hembedded : ∀ e ∈ l.embedded, e.1 ≠ "")
    (h : ((l.register files).load files).run.run records = (.ok o, records')) {r : Resource}
    (hr : r ∈ o.list) : r.name ≠ "" := by
  have hget : o.get? r.name = some r := (mem_list_iff (filed_of_load h)).mp ⟨hr, rfl⟩
  have hsupplies : Supplies files l r.name r.tier r.content :=
    (get?_eq_some_iff_supplies hdistinct h).mp (by rw [hget]; rfl)
  exact hsupplies.name_ne_empty hembedded

theorem item_iff_supplies (hreads : l.kind.Reads parse) (hdistinct : files.Distinct)
    (hembedded : ∀ e ∈ l.embedded, e.1 ≠ "")
    (h : ((l.register files).load files).run.run records = (.ok o, records'))
    (hitems : List.Forall₂ (fun r item => parse r.name r.content = .ok item) o.list items)
    {item : α} :
    Keyed.get? name (items.foldl (fun acc item => Keyed.set (l.kind.nameOf item) item acc) []) =
        some item ↔
      ∃ tier content, Supplies files l name tier content ∧ parse name content = .ok item := by
  have hsupplies : ∀ {tier content}, (o.get? name).map (fun r => (r.tier, r.content)) =
      some (tier, content) ↔ Supplies files l name tier content :=
    get?_eq_some_iff_supplies hdistinct h
  have hnamed : ∀ r ∈ o.list, r.name ≠ "" := fun r hr =>
    name_ne_empty_of_mem_list hdistinct hembedded h hr
  have hrel := get?_items (filed_of_load h) ((List.forall₂_and_left _ _).mpr ⟨hnamed, hitems⟩)
    (fun r item hr => hreads.named hr.1 hr.2) name
  generalize Keyed.get? name (items.foldl _ []) = kept at hrel ⊢
  cases hget : o.get? name with
  | none =>
    rw [hget] at hrel hsupplies
    cases hrel
    refine iff_of_false nofun ?_
    rintro ⟨tier, content, hcontent, -⟩
    cases hsupplies.mpr hcontent
  | some r =>
    obtain ⟨-, rfl⟩ := (mem_list_iff (filed_of_load h)).mpr hget
    rw [hget] at hrel hsupplies
    cases hrel with
    | some hread =>
      constructor
      · rintro ⟨⟩
        exact ⟨r.tier, r.content, hsupplies.mp rfl, hread.2⟩
      · rintro ⟨tier, content, hcontent, hparse⟩
        cases hsupplies.mpr hcontent
        rw [← Except.ok.inj (hread.2.symm.trans hparse)]

/-- No tree of a project is the user's. -/
theorem ne_userRoot_of_mem_roots {root : Resource.Root} (hroot : root ∈ (l.register files).roots)
    (htier : root.tier = .project) :
    root.path.resolve files.base ≠ l.userRoot.resolve files.base := by
  rw [register_eq] at hroot
  rcases List.mem_cons.mp hroot with rfl | hlocal
  · cases htier
  · obtain ⟨n, hn, rfl⟩ := List.mem_map.mp hlocal
    exact (mem_localDepths.mp hn).1.2

/-- After a load that went well into an empty store, no tree of a project is the user's, every name
has the tier, the content and the item of what supplies it, and a name that nothing supplies has
none. -/
theorem load_supplies (hreads : l.kind.Reads parse) (hdistinct : files.Distinct)
    (hembedded : ∀ e ∈ l.embedded, e.1 ≠ "")
    (hload : (l.load files []).outcome.1 = .ok (l', store)) :
    (∀ root ∈ l'.overlay.roots, root.tier = .project →
      root.path.resolve files.base ≠ l.userRoot.resolve files.base) ∧
    ∀ name,
      (∀ tier content, (l'.overlay.get? name).map (fun r => (r.tier, r.content)) =
        some (tier, content) ↔ Supplies files l name tier content) ∧
      (∀ tier, Keyed.get? name l'.sources = some tier ↔
        ∃ content, Supplies files l name tier content) ∧
      (∀ item, Keyed.get? name store = some item ↔
        ∃ tier content, Supplies files l name tier content ∧ parse name content = .ok item) := by
  have hrun : (l.load files []).run.run [] = (.ok (l', store), (l.load files []).outcome.2) :=
    Prod.ext hload rfl
  obtain ⟨o, between, items, hscan, hitems, rfl, rfl⟩ := load_eq_ok hreads hrun
  have hroots : o.roots = (l.register files).roots := by
    obtain ⟨_, _, -, rfl⟩ := layRoots_of_load hscan
    rfl
  exact ⟨fun root hroot => ne_userRoot_of_mem_roots (hroots ▸ hroot), fun name =>
    ⟨fun _ _ => get?_eq_some_iff_supplies hdistinct hscan,
      fun _ => tier_iff_supplies hdistinct hscan,
      fun _ => item_iff_supplies hreads hdistinct hembedded hscan hitems⟩⟩

/-- A user's tree, and below it a project's with a file of the same name. -/
def nestedFiles : Files where
  entries :=
    [(["home"], .directory), (["home", "tools"], .directory),
      (["home", "tools", "prompts"], .directory),
      (["home", "tools", "prompts", "hello.md"], .file "far".toUTF8),
      (["home", "work"], .directory), (["home", "work", "tools"], .directory),
      (["home", "work", "tools", "prompts"], .directory),
      (["home", "work", "tools", "prompts", "hello.md"], .file "near".toUTF8)]
  base := []

def nestedLayers : Layers Prompt :=
  new Prompt.kind [("hello", "built in")] (.ofNames ["home"]) (.ofNames ["home", "work"]) "tools"

/-- The project's file comes before the user's, which lies above it, and before what is built in. -/
theorem supplies_nearest : ∃ loaded store,
    (nestedLayers.load nestedFiles []).outcome.1 = .ok (loaded, store) ∧
      Supplies nestedFiles nestedLayers "hello" .project "near" ∧
      ∀ tier content, Supplies nestedFiles nestedLayers "hello" tier content → tier = .project := by
  have hload : succeedsWith (fun after : Layers Prompt × Collection Prompt =>
      (after.1.overlay.get? "hello").map (fun r => (r.tier, r.content)) == some (.project, "near"))
      (nestedLayers.load nestedFiles []).outcome.1 = true := by
    decide +kernel
  obtain ⟨⟨loaded, store⟩, hok, hget⟩ := succeedsWith_iff.mp hload
  have hdistinct : nestedFiles.Distinct := by
    unfold Files.Distinct
    decide
  obtain ⟨-, hnames⟩ := load_supplies Prompt.reads_kind hdistinct (by decide) hok
  have hsupplies := ((hnames "hello").1 .project "near").mp (beq_iff_eq.mp hget)
  exact ⟨loaded, store, hok, hsupplies, fun tier content hother => (hother.unique hsupplies).1⟩

end Layers

end Runbook
