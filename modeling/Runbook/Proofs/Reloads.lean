import Runbook.Proofs.Sessions

/-!
Tiers and items in step. While files change and a toolkit is called, the names that have a tier are
those that have an item, and each item is read from what its tier supplied when everything was last
loaded. A load that fails changes neither tiers nor items, and nothing but a load changes them.
-/
namespace Runbook

open Workflow Layers

namespace Layers

variable {α : Type} {files : Files} {l l' : Layers α} {parse : String → String → Except Refusal α}
  {name content : String} {tier : Tier}

/-- Layers that differ at most in what was read through them. -/
def Alike (l l' : Layers α) : Prop :=
  ∃ overlay sources, l' = { l with overlay := overlay, sources := sources }

theorem Alike.refl (l : Layers α) : Alike l l := ⟨l.overlay, l.sources, rfl⟩

theorem Alike.trans {l'' : Layers α} (h : Alike l l') (h' : Alike l' l'') : Alike l l'' := by
  obtain ⟨_, _, rfl⟩ := h
  obtain ⟨overlay, sources, rfl⟩ := h'
  exact ⟨overlay, sources, rfl⟩

theorem Alike.supplies (h : Alike l l') (hsupplies : Supplies files l' name tier content) :
    Supplies files l name tier content := by
  obtain ⟨overlay, sources, rfl⟩ := h
  cases hsupplies with
  | project hlocal hdeepest hcounts htext => exact .project hlocal hdeepest hcounts htext
  | user hlocal hcounts htext => exact .user hlocal hcounts htext
  | embedded hlocal huser hbuiltIn => exact .embedded hlocal huser hbuiltIn

/-- Names have a tier where they have an item, and every item is read from what the tier supplied in
the files that were read last. -/
structure InStep (l : Layers α) (parse : String → String → Except Refusal α)
    (read : Option Files) (sources : List (String × Tier)) (store : Collection α) : Prop where
  names : ∀ name, name ∈ Keyed.keys sources ↔ name ∈ Keyed.keys store
  supplied : ∀ name item, Keyed.get? name store = some item → ∃ files tier content,
    read = some files ∧ Keyed.get? name sources = some tier ∧
      Supplies files l name tier content ∧ parse name content = .ok item

theorem inStep_nil (l : Layers α) (parse : String → String → Except Refusal α)
    (read : Option Files) : InStep l parse read [] [] :=
  ⟨fun _ => Iff.rfl, nofun⟩

theorem InStep.alike {read : Option Files} {sources : List (String × Tier)}
    {store : Collection α} (h : Alike l l') (hstep : InStep l' parse read sources store) :
    InStep l parse read sources store := by
  refine ⟨hstep.names, fun name item hitem => ?_⟩
  obtain ⟨files, tier, content, hread, htier, hsupplies, hparse⟩ := hstep.supplied name item hitem
  exact ⟨files, tier, content, hread, htier, h.supplies hsupplies, hparse⟩

/-- What resolving the layers gives is in step. -/
theorem inStep_of_resolve (hreads : l.kind.Reads parse) (hdistinct : files.Distinct)
    (hembedded : ∀ e ∈ l.embedded, e.1 ≠ "") {resolution : Resolution α}
    (h : (l.resolve files).outcome.1 = .ok resolution) :
    InStep l parse (some files) resolution.sources (collected l.kind resolution.items) := by
  obtain ⟨⟨records, hload⟩, hitems, hsources⟩ := resolve_eq_ok hreads h
  have htier : ∀ {name tier}, Keyed.get? name resolution.sources = some tier ↔
      ∃ content, Supplies files l name tier content := by
    rw [hsources]
    exact tier_iff_supplies hdistinct hload
  have hitem : ∀ {name item}, Keyed.get? name (collected l.kind resolution.items) = some item ↔
      ∃ tier content, Supplies files l name tier content ∧ parse name content = .ok item :=
    item_iff_supplies hreads hdistinct hembedded hload hitems
  refine ⟨fun name => ?_, fun name item hget => ?_⟩
  · rw [← Keyed.has_iff_mem_keys, ← Keyed.has_iff_mem_keys, Keyed.has, Keyed.has,
      Option.isSome_iff_exists, Option.isSome_iff_exists]
    constructor
    · rintro ⟨tier, hget⟩
      obtain ⟨content, hsupplies⟩ := htier.mp hget
      obtain ⟨r, hr, rfl, rfl, rfl⟩ :=
        ((merges_list hdistinct hload).supplied name tier content).mpr hsupplies
      obtain ⟨item, -, hparse⟩ := exists_of_mem_of_forall₂ hitems.flip hr
      exact ⟨item, hitem.mpr ⟨_, _, hsupplies, hparse⟩⟩
    · rintro ⟨item, hget⟩
      obtain ⟨tier, content, hsupplies, -⟩ := hitem.mp hget
      exact ⟨tier, htier.mpr ⟨content, hsupplies⟩⟩
  · obtain ⟨tier, content, hsupplies, hparse⟩ := hitem.mp hget
    exact ⟨files, tier, content, rfl, htier.mpr ⟨content, hsupplies⟩, hsupplies, hparse⟩

end Layers

namespace Toolkit

variable {t t' t'' : Toolkit} {s s' : Session}

/-- A toolkit that has loaded nothing yet. -/
structure Fresh (t : Toolkit) : Prop where
  regular : t.Regular
  prompts : t.prompts.sources = []
  workflows : t.workflows.sources = []
  library : t.library = []
  registry : t.registry = []

theorem fresh_new (home start : Path) (dirName : String) (maxSteps : Int) (store : Store) :
    (new home start dirName maxSteps store).Fresh :=
  ⟨regular_new .., rfl, rfl, rfl, rfl⟩

/-- Both stores and the tiers of both kinds are the same. -/
structure Keeps (t t' : Toolkit) : Prop where
  library : t'.library = t.library
  registry : t'.registry = t.registry
  prompts : t'.prompts.sources = t.prompts.sources
  workflows : t'.workflows.sources = t.workflows.sources

/-! Calls. -/

inductive Call where
  | load
  | validate (kind : String)
  | list (kind : String)
  | prompt (name : String)
  | workflow (name : String)
  | directories (kind : String)

namespace Call

/-- What there is after a call, whether it goes well or not. -/
def after (s : Session) : Call → Session
  | .load => (Toolkit.load.run.run s).2
  | .validate name => ((kind name >>= Toolkit.validate).run.run s).2
  | .list name => ((kind name >>= Toolkit.list).run.run s).2
  | .prompt name => ((prompt? name).run.run s).2
  | .workflow name => ((Toolkit.workflow name).run.run s).2
  | .directories name => ((kind name >>= Toolkit.directories).run.run s).2

/-- Whether a call loads: as such, or since it looks for something and nothing was loaded yet. -/
def loads (s : Session) : Call → Bool
  | .load => true
  | .list name => (Kind.all.any fun k => k.name == name) && !s.toolkit.loaded
  | .prompt _ | .workflow _ => !s.toolkit.loaded
  | .validate _ | .directories _ => false

/-- Whether a call loads and the load goes well. -/
def reloads (s : Session) (c : Call) : Bool :=
  c.loads s && succeedsWith (fun _ => true) (Toolkit.load.run.run s).1

end Call

/-- What a call can do: take over what was loaded, or at most look for trees. -/
inductive Course (s : Session) : Bool → Session → Prop
  | reload {t : Toolkit} {journal : Journal} (h : s.toolkit.loading s.files = .ok t) :
      Course s true (s.turning t journal)
  | stay {prompts workflows : Overlay} {journal : Journal} :
      Course s false (s.turning { s.toolkit with
        prompts := { s.toolkit.prompts with overlay := prompts }
        workflows := { s.toolkit.workflows with overlay := workflows } } journal)

theorem course_self (s : Session) : Course s false s := .stay

theorem course_noting (s : Session) (journal : Journal) : Course s false (s.noting journal) := .stay

theorem course_load (s : Session) :
    Course s (succeedsWith (fun _ => true) (load.run.run s).1) (load.run.run s).2 := by
  cases hloading : s.toolkit.loading s.files with
  | ok t =>
    obtain ⟨journal, hrun⟩ := run_load_of_ok hloading
    rw [hrun]
    exact .reload hloading
  | error f =>
    obtain ⟨journal, hrun⟩ := run_load_of_error hloading
    rw [hrun]
    exact course_noting s journal

theorem course_ensureLoaded (s : Session) :
    Course s (!s.toolkit.loaded && succeedsWith (fun _ => true) (load.run.run s).1)
      (ensureLoaded.run.run s).2 := by
  have hget : (get : Work Session).run.run s = (.ok s, s) := rfl
  unfold ensureLoaded
  rw [run_bind_of_ok hget]
  cases s.toolkit.loaded with
  | true => exact course_self s
  | false => exact course_load s

/-- Work that only looks leaves the session as the work before it does. -/
theorem state_bind {α β : Type} {x : Work α} {f : α → Work β}
    (h : ∀ a s, ((f a).run.run s).2 = s) (s : Session) :
    ((x >>= f).run.run s).2 = (x.run.run s).2 := by
  rcases hx : x.run.run s with ⟨_ | a, s'⟩
  · rw [run_bind_of_error hx]
  · rw [run_bind_of_ok hx, h]

theorem run_kind (name : String) (s : Session) : (kind name).run.run s =
    (match Kind.all.find? fun k => k.name == name with
      | some k => .ok k
      | none => .error (.unknownKind name), s) := by
  unfold kind
  cases Kind.all.find? fun k => k.name == name <;> rfl

/-- A name of no kind is refused before anything is done. -/
theorem course_of_kind {α : Type} (name : String) {f : Kind → Work α} {loads : Bool}
    (h : ∀ k, Course s loads ((f k).run.run s).2) :
    Course s ((Kind.all.any fun k => k.name == name) && loads) ((kind name >>= f).run.run s).2 := by
  have hkind := run_kind name s
  rw [← List.isSome_find?]
  cases hfind : Kind.all.find? fun k => k.name == name with
  | none =>
    rw [hfind] at hkind
    rw [run_bind_of_error hkind]
    exact course_self s
  | some k =>
    rw [hfind] at hkind
    rw [run_bind_of_ok hkind]
    exact h k

theorem course_directories (k : Kind) (s : Session) :
    Course s false ((Toolkit.directories k).run.run s).2 := by
  have hget : (get : Work Session).run.run s = (.ok s, s) := rfl
  unfold Toolkit.directories
  rw [run_bind_of_ok hget]
  have hlayers : ∀ {α : Type} (l : Layers α), ∃ overlay,
      (l.directories s.files).2 = { l with overlay := overlay } := by
    intro α l
    unfold Layers.directories
    dsimp only
    split
    · exact ⟨_, rfl⟩
    · exact ⟨l.overlay, rfl⟩
  cases k with
  | prompts =>
    obtain ⟨overlay, hdirectories⟩ := hlayers s.toolkit.prompts
    have hcourse : Course s false (s.turning { s.toolkit with
      prompts := (s.toolkit.prompts.directories s.files).2 } s.journal) := by
      rw [hdirectories]
      exact .stay
    exact hcourse
  | workflows =>
    obtain ⟨overlay, hdirectories⟩ := hlayers s.toolkit.workflows
    have hcourse : Course s false (s.turning { s.toolkit with
      workflows := (s.toolkit.workflows.directories s.files).2 } s.journal) := by
      rw [hdirectories]
      exact .stay
    exact hcourse

theorem course_validate (hregular : s.toolkit.Regular) (k : Kind) :
    Course s false ((validate k).run.run s).2 := by
  obtain ⟨journal, hrun⟩ := run_validate k hregular
  rw [hrun]
  exact course_noting s journal

theorem course_list (k : Kind) (s : Session) :
    Course s (!s.toolkit.loaded && succeedsWith (fun _ => true) (load.run.run s).1)
      ((Toolkit.list k).run.run s).2 := by
  unfold Toolkit.list
  rw [state_bind fun _ _ => rfl]
  exact course_ensureLoaded s

theorem course_prompt (name : String) (s : Session) :
    Course s (!s.toolkit.loaded && succeedsWith (fun _ => true) (load.run.run s).1)
      ((prompt? name).run.run s).2 := by
  unfold prompt?
  rw [state_bind fun _ _ => rfl]
  exact course_ensureLoaded s

theorem course_workflow (name : String) (s : Session) :
    Course s (!s.toolkit.loaded && succeedsWith (fun _ => true) (load.run.run s).1)
      ((Toolkit.workflow name).run.run s).2 := by
  unfold Toolkit.workflow
  rw [state_bind]
  · exact course_ensureLoaded s
  · intro _ s
    have hget : (get : Work Session).run.run s = (.ok s, s) := rfl
    rw [run_bind_of_ok hget]
    cases Keyed.get? name s.toolkit.registry <;> rfl

/-- What a call does depends on whether it loads everything anew. -/
theorem Call.course (hregular : s.toolkit.Regular) (c : Call) :
    Course s (c.reloads s) (c.after s) := by
  unfold reloads
  cases c with
  | load => exact course_load s
  | validate name =>
    have h := course_of_kind name fun k => course_validate hregular k
    rwa [Bool.and_false] at h
  | list name =>
    have h := course_of_kind name fun k => course_list k s
    rwa [← Bool.and_assoc] at h
  | prompt name => exact course_prompt name s
  | workflow name => exact course_workflow name s
  | directories name =>
    have h := course_of_kind name fun k => course_directories k s
    rwa [Bool.and_false] at h

/-! Histories. -/

/-- What happens to files and to a toolkit. -/
inductive Event where
  | change (steps : List FileStep)
  | delete (location : Location)
  | call (c : Call)

/-- A session, and the files as they were when everything was last loaded. -/
structure History where
  session : Session
  read : Option Files

namespace History

def withFiles (h : History) (files : Files) : History :=
  { h with session := { h.session with files := files } }

def step (h : History) : Event → History
  | .change steps => h.withFiles (h.session.files.steps steps).1
  | .delete location => h.withFiles (h.session.files.remove location)
  | .call c => ⟨c.after h.session, if c.reloads h.session then some h.session.files else h.read⟩

def after (h : History) (events : List Event) : History := events.foldl step h

/-- A toolkit over the layers of another one, with tiers and items in step for both kinds. -/
structure InStep (t : Toolkit) (h : History) : Prop where
  distinct : h.session.files.Distinct
  promptLayers : t.prompts.Alike h.session.toolkit.prompts
  workflowLayers : t.workflows.Alike h.session.toolkit.workflows
  prompts : Layers.InStep t.prompts Prompt.parse h.read h.session.toolkit.prompts.sources
    h.session.toolkit.library
  workflows : Layers.InStep t.workflows Definition.parseAs h.read
    h.session.toolkit.workflows.sources h.session.toolkit.registry

theorem InStep.withFiles {h : History} (hstep : InStep t h) {files : Files}
    (hdistinct : files.Distinct) : InStep t (h.withFiles files) :=
  ⟨hdistinct, hstep.promptLayers, hstep.workflowLayers, hstep.prompts, hstep.workflows⟩

end History

theorem Regular.alike (h : t.Regular) (hprompts : t.prompts.Alike t'.prompts)
    (hworkflows : t.workflows.Alike t'.workflows) : t'.Regular := by
  obtain ⟨_, _, hprompts⟩ := hprompts
  obtain ⟨_, _, hworkflows⟩ := hworkflows
  constructor
  · rw [hprompts]
    exact h.prompts
  · rw [hworkflows]
    exact h.workflows
  · rw [hprompts]
    exact h.namedPrompts
  · rw [hworkflows]
    exact h.namedWorkflows

namespace History

variable {h : History}

theorem InStep.regular (hstep : InStep t h) (hregular : t.Regular) :
    h.session.toolkit.Regular := hregular.alike hstep.promptLayers hstep.workflowLayers

/-- What was loaded anew is in step, and what was only looked at stays so. -/
theorem InStep.course (hregular : t.Regular) (hstep : InStep t h) {reloads : Bool}
    (hcourse : Course h.session reloads s') :
    InStep t ⟨s', if reloads then some h.session.files else h.read⟩ := by
  have hregular' := hstep.regular hregular
  cases hcourse with
  | @reload t' journal hloading =>
    obtain ⟨prompts, hprompts, hloading⟩ := bind_eq_ok_iff.mp hloading
    obtain ⟨workflows, hworkflows, hloading⟩ := bind_eq_ok_iff.mp hloading
    cases hloading
    refine ⟨hstep.distinct, hstep.promptLayers.trans ⟨_, _, rfl⟩,
      hstep.workflowLayers.trans ⟨_, _, rfl⟩, ?_, ?_⟩
    · exact (inStep_of_resolve hregular'.reads_prompts hstep.distinct hregular'.namedPrompts
        hprompts).alike hstep.promptLayers
    · exact (inStep_of_resolve hregular'.reads_workflows hstep.distinct hregular'.namedWorkflows
        hworkflows).alike hstep.workflowLayers
  | stay =>
    exact ⟨hstep.distinct, hstep.promptLayers.trans ⟨_, _, rfl⟩,
      hstep.workflowLayers.trans ⟨_, _, rfl⟩, hstep.prompts, hstep.workflows⟩

theorem InStep.step (hregular : t.Regular) (hstep : InStep t h) (e : Event) :
    InStep t (h.step e) := by
  cases e with
  | change steps => exact hstep.withFiles (hstep.distinct.steps steps)
  | delete location => exact hstep.withFiles (hstep.distinct.remove location)
  | call c => exact hstep.course hregular (c.course (hstep.regular hregular))

/-- Nothing that happens takes tiers and items out of step. -/
theorem InStep.after (hregular : t.Regular) (hstep : InStep t h) (events : List Event) :
    InStep t (h.after events) := by
  induction events generalizing h with
  | nil => exact hstep
  | cons e rest ih => exact ih (hstep.step hregular e)

end History

theorem Course.keeps (h : Course s false s') : s.toolkit.Keeps s'.toolkit := by
  cases h
  exact ⟨rfl, rfl, rfl, rfl⟩

/-- Whatever has happened since a toolkit was made, the names with a tier are those with an item,
and every item was read from what its tier supplied at the last load that went well. A call changes
tiers and items only by a load that goes well. -/
theorem in_step_after (hfresh : s.toolkit.Fresh) (hdistinct : s.files.Distinct)
    (events : List Event) :
    let h := History.after ⟨s, none⟩ events
    let t := h.session.toolkit
    Layers.InStep s.toolkit.prompts Prompt.parse h.read t.prompts.sources t.library ∧
    Layers.InStep s.toolkit.workflows Definition.parseAs h.read t.workflows.sources t.registry ∧
    ∀ c : Call, c.reloads h.session = false → t.Keeps (c.after h.session).toolkit := by
  have hbefore : History.InStep s.toolkit ⟨s, none⟩ := by
    refine ⟨hdistinct, .refl _, .refl _, ?_, ?_⟩
    · rw [hfresh.prompts, hfresh.library]
      exact inStep_nil ..
    · rw [hfresh.workflows, hfresh.registry]
      exact inStep_nil ..
  have hafter := hbefore.after hfresh.regular events
  refine ⟨hafter.prompts, hafter.workflows, fun c hc => ?_⟩
  have hcourse := c.course (hafter.regular hfresh.regular)
  rw [hc] at hcourse
  exact hcourse.keeps

/-- A place of work with a prompt. -/
def greetingFiles : Files := bareFiles "prompts" "greet.md" "Good morning"

/-- The prompt is loaded and damaged, so that it cannot be loaded again. -/
def damagingEvents : List Event :=
  [.call .load,
    .change [.write (.ofNames ["work", "tools", "prompts", "greet.md"]) "---\n".toUTF8],
    .call .load]

/-- The prompt is still there as it was before. -/
theorem greeting_after_damage :
    let h := History.after ⟨bareSession greetingFiles, none⟩ damagingEvents
    ∃ p files tier content, Keyed.get? "greet" h.session.toolkit.library = some p ∧
      p.template = "Good morning" ∧ h.read = some files ∧
      Supplies files (bareSession greetingFiles).toolkit.prompts "greet" tier content ∧
      Prompt.parse "greet" content = .ok p := by
  have hfresh : (bareSession greetingFiles).toolkit.Fresh :=
    ⟨regular_bareSession _, rfl, rfl, rfl, rfl⟩
  have hdistinct : greetingFiles.Distinct := distinct_bareFiles ..
  have hkept : ((Keyed.get? "greet" (History.after ⟨bareSession greetingFiles, none⟩
      damagingEvents).session.toolkit.library).map Prompt.template) = some "Good morning" := by
    decide +kernel
  obtain ⟨p, hget, htemplate⟩ := Option.map_eq_some_iff.mp hkept
  obtain ⟨hprompts, -, -⟩ := in_step_after hfresh hdistinct damagingEvents
  obtain ⟨files, tier, content, hread, -, hsupplies, hparse⟩ := hprompts.supplied "greet" p hget
  exact ⟨p, files, tier, content, hget, htemplate, hread, hsupplies, hparse⟩

end Toolkit

end Runbook
