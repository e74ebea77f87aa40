import Runbook.Proofs.Merging
import Runbook.Proofs.StoredSteps

/-!
Loads and checks of a toolkit, told without its journal. A load reads both kinds before it hands
anything over: it comes to another toolkit or to a fault, and a fault leaves the toolkit as it was.
A check scans one kind and reports on each resource in turn, and the toolkit stays as it is.
-/
namespace Runbook

open Workflow Layers

/-- The same session with another journal. -/
def Session.noting (s : Session) (journal : Journal) : Session := { s with journal := journal }

/-- The same session with another toolkit and another journal. -/
def Session.turning (s : Session) (t : Toolkit) (journal : Journal) : Session :=
  { s with toolkit := t, journal := journal }

namespace Workflow

/-- Reads the workflow that a resource with a name holds. -/
def Definition.parseAs (name content : String) : Except Refusal Definition :=
  Definition.parse content (some name)

end Workflow

namespace Toolkit

/-- A toolkit that reads prompts and workflows, whose built-in resources have names. -/
structure Regular (t : Toolkit) : Prop where
  prompts : t.prompts.kind = Prompt.kind
  workflows : t.workflows.kind = Definition.kind
  namedPrompts : ∀ e ∈ t.prompts.embedded, e.1 ≠ ""
  namedWorkflows : ∀ e ∈ t.workflows.embedded, e.1 ≠ ""

theorem regular_new (home start : Path) (dirName : String) (maxSteps : Int) (store : Store) :
    (new home start dirName maxSteps store).Regular := by
  refine ⟨rfl, rfl, ?_, ?_⟩
  · show ∀ e ∈ Shipped.prompts, e.1 ≠ ""
    decide
  · show ∀ e ∈ Shipped.workflows, e.1 ≠ ""
    decide

/-- A session in a place of work, with nothing built in. -/
def bareSession (files : Files) : Session where
  toolkit :=
    { new (.ofNames ["home"]) (.ofNames ["work"]) "tools" 1000 (.memory []) with
      prompts := Layers.new Prompt.kind [] (.ofNames ["home"]) (.ofNames ["work"]) "tools"
      workflows := Layers.new Definition.kind [] (.ofNames ["home"]) (.ofNames ["work"]) "tools" }
  files := files
  reads := 0
  named := 0
  journal := []

theorem regular_bareSession (files : Files) : (bareSession files).toolkit.Regular :=
  ⟨rfl, rfl, nofun, nofun⟩

/-- A place of work with one resource in a directory for its kind. -/
def bareFiles (kind file text : String) : Files where
  entries :=
    [(["work"], .directory), (["work", "tools"], .directory), (["work", "tools", kind], .directory),
      (["work", "tools", kind, file], .file text.toUTF8)]
  base := []

theorem distinct_bareFiles (kind file text : String) : (bareFiles kind file text).Distinct := by
  simp [Files.Distinct, bareFiles]

theorem Regular.reads_prompts {t : Toolkit} (h : t.Regular) :
    t.prompts.kind.Reads Prompt.parse := h.prompts ▸ Prompt.reads_kind

theorem Regular.reads_workflows {t : Toolkit} (h : t.Regular) :
    t.workflows.kind.Reads Definition.parseAs := h.workflows ▸ Definition.reads_kind

/-! Loading. -/

/-- What a toolkit becomes by a load, or why it stays as it is. -/
def loading (files : Files) (t : Toolkit) : Except LoadFault Toolkit := do
  let prompts ← (t.prompts.resolve files).outcome.1
  let workflows ← (t.workflows.resolve files).outcome.1
  pure { t with
    prompts := t.prompts.adopting prompts
    workflows := t.workflows.adopting workflows
    library := collected t.prompts.kind prompts.items
    registry := collected t.workflows.kind workflows.items
    loaded := true }

theorem run_load (s : Session) : ∃ journal, load.run.run s =
    match s.toolkit.loading s.files with
    | .ok t => (.ok (), s.turning t journal)
    | .error f => (.error (.load f), s.noting journal) := by
  have hget : (get : Work Session).run.run s = (.ok s, s) := rfl
  have hprompts := run_recorded .load (s.toolkit.prompts.resolve s.files) s
  unfold load loading
  rw [run_bind_of_ok hget]
  cases hfirst : (s.toolkit.prompts.resolve s.files).outcome.1 with
  | error f =>
    rw [hfirst] at hprompts
    exact ⟨_, run_bind_of_error hprompts _⟩
  | ok prompts =>
    rw [hfirst] at hprompts
    rw [run_bind_of_ok hprompts]
    generalize (s.toolkit.prompts.resolve s.files).outcome.2 = read
    have hworkflows := run_recorded .load (s.toolkit.workflows.resolve s.files) (s.having read)
    cases hsecond : (s.toolkit.workflows.resolve s.files).outcome.1 with
    | error f =>
      rw [hsecond] at hworkflows
      exact ⟨_, run_bind_of_error hworkflows _⟩
    | ok workflows =>
      rw [hsecond] at hworkflows
      rw [run_bind_of_ok hworkflows]
      generalize (s.toolkit.workflows.resolve s.files).outcome.2 = read'
      have hlibrary := run_recorded .load (s.toolkit.prompts.commit s.files prompts [])
        ((s.having read).having read')
      rw [outcome_commit] at hlibrary
      rw [run_bind_of_ok hlibrary]
      generalize (s.toolkit.prompts.commit s.files prompts []).outcome.2 = added
      have hregistry := run_recorded .load (s.toolkit.workflows.commit s.files workflows [])
        (((s.having read).having read').having added)
      rw [outcome_commit] at hregistry
      exact ⟨_, run_bind_of_ok hregistry _⟩

theorem run_load_of_ok {s : Session} {t : Toolkit} (h : s.toolkit.loading s.files = .ok t) :
    ∃ journal, load.run.run s = (.ok (), s.turning t journal) := by
  obtain ⟨journal, hrun⟩ := run_load s
  rw [h] at hrun
  exact ⟨journal, hrun⟩

theorem run_load_of_error {s : Session} {f : LoadFault}
    (h : s.toolkit.loading s.files = .error f) :
    ∃ journal, load.run.run s = (.error (.load f), s.noting journal) := by
  obtain ⟨journal, hrun⟩ := run_load s
  rw [h] at hrun
  exact ⟨journal, hrun⟩

/-! Checking. -/

section Checks

variable {α : Type} {layers : Layers α} {parse : String → String → Except Refusal α}

/-- What is reported on a resource, unless it is refused without a fault. -/
def reportOn (parse : String → String → Except Refusal α) (check : α → Report) (r : Resource) :
    Except LoadFault Report :=
  match itemOf parse r with
  | .ok item => .ok (check item)
  | .error (.fault f) => .ok (malformed r f)
  | .error e => .error (.refused e)

theorem reportOn_eq (parse : String → String → Except Refusal α) (check : α → Report)
    (r : Resource) : reportOn parse check r =
      match parse r.name r.content with
      | .ok item => .ok (check item)
      | .error (.fault f) => .ok (malformed r (f.within r.name r.tier))
      | .error e => .error (.refused e) := by
  unfold reportOn itemOf
  rcases parse r.name r.content with (f | f | _) | item <;> rfl

/-- A check of some resources reports on each of them and puts the reports together. -/
theorem run_checkAll (hreads : layers.kind.Reads parse) (check : α → Report) (report : Report)
    (rs : List Resource) (s : Session) : ∃ journal,
    (checkAll layers check report rs).run.run s =
      (((rs.mapM (reportOn parse check)).map (List.foldl Report.merge report)).mapError .load,
        s.noting journal) := by
  induction rs generalizing report s with
  | nil => exact ⟨s.journal, rfl⟩
  | cons r rest ih =>
    have hitem : (layers.parse r).outcome.1 = (itemOf parse r).mapError .refused :=
      gives_parse hreads r []
    have hnote (records : List Log.Record) :
        (note (records.map .logged)).run.run s = (.ok (), s.having records) := rfl
    unfold checkAll
    generalize (layers.parse r).outcome = outcome at hitem ⊢
    obtain ⟨result, records⟩ := outcome
    obtain rfl : result = _ := hitem
    dsimp only
    rw [run_bind_of_ok (hnote records)]
    have hnext (first : Report) (hfirst : reportOn parse check r = .ok first) : ∃ journal,
        (checkAll layers check (report.merge first) rest).run.run (s.having records) =
          ((((r :: rest).mapM (reportOn parse check)).map (List.foldl Report.merge report)).mapError
            .load, s.noting journal) := by
      obtain ⟨journal, hrest⟩ := ih (report.merge first) (s.having records)
      refine ⟨journal, hrest.trans ?_⟩
      rw [List.mapM_cons, hfirst]
      cases rest.mapM (reportOn parse check) <;> rfl
    have hlast (f : LoadFault) (hfirst : reportOn parse check r = .error f) : ∃ journal,
        (throw (.load f) : Work Report).run.run (s.having records) =
          ((((r :: rest).mapM (reportOn parse check)).map (List.foldl Report.merge report)).mapError
            .load, s.noting journal) := by
      rw [List.mapM_cons, hfirst]
      exact ⟨_, rfl⟩
    rcases hitem : itemOf parse r with (f | f | _) | item
    · exact hnext (malformed r f) (by rw [reportOn, hitem])
    · exact hlast (.refused (.scalar f)) (by rw [reportOn, hitem])
    · exact hlast (.refused .tooDeep) (by rw [reportOn, hitem])
    · exact hnext (check item) (by rw [reportOn, hitem])

/-- What is reported on all resources of some layers, unless they cannot be scanned or one of them
is refused without a fault. -/
def reportAll (parse : String → String → Except Refusal α) (check : α → Report) (files : Files)
    (layers : Layers α) : Except LoadFault Report := do
  let rs ← (layers.scan files).outcome.1
  (rs.mapM (reportOn parse check)).map (List.foldl Report.merge Report.empty)

theorem run_checkLayers (hreads : layers.kind.Reads parse) (check : α → Report) (s : Session) :
    ∃ journal, (checkLayers layers check).run.run s =
      ((reportAll parse check s.files layers).mapError .load, s.noting journal) := by
  have hget : (get : Work Session).run.run s = (.ok s, s) := rfl
  have hscan := run_recorded .load (layers.scan s.files) s
  unfold checkLayers reportAll
  rw [run_bind_of_ok hget]
  cases hresources : (layers.scan s.files).outcome.1 with
  | error f =>
    rw [hresources] at hscan
    exact ⟨_, run_bind_of_error hscan _⟩
  | ok rs =>
    rw [hresources] at hscan
    rw [run_bind_of_ok hscan]
    obtain ⟨journal, hchecked⟩ := run_checkAll hreads check Report.empty rs _
    exact ⟨journal, hchecked⟩

end Checks

/-- What is reported on the resources of a kind. -/
def checking (k : Kind) (files : Files) (t : Toolkit) : Except LoadFault Report :=
  match k with
  | .prompts => reportAll Prompt.parse (fun _ => ⟨[], 1⟩) files t.prompts
  | .workflows => reportAll Definition.parseAs Definition.validate files t.workflows

theorem run_validate (k : Kind) {s : Session} (h : s.toolkit.Regular) : ∃ journal,
    (validate k).run.run s = ((s.toolkit.checking k s.files).mapError .load, s.noting journal) := by
  have hget : (get : Work Session).run.run s = (.ok s, s) := rfl
  have hlog : ∀ {check : Work Report} {journal : Journal},
      check.run.run s = ((s.toolkit.checking k s.files).mapError .load, s.noting journal) →
      ∃ journal, (do
        let report ← check
        log "Validation finished"
          [("kind", .text k.name), ("files_checked", .int report.filesChecked),
            ("errors", .int report.errors.length), ("warnings", .int report.warnings.length)]
        pure report : Work Report).run.run s =
          ((s.toolkit.checking k s.files).mapError .load, s.noting journal) := by
    intro check journal hcheck
    cases hreport : s.toolkit.checking k s.files with
    | error f =>
      rw [hreport] at hcheck
      exact ⟨_, run_bind_of_error hcheck _⟩
    | ok report =>
      rw [hreport] at hcheck
      exact ⟨_, run_bind_of_ok hcheck _⟩
  unfold validate
  rw [run_bind_of_ok hget]
  cases k with
  | prompts =>
    obtain ⟨journal, hcheck⟩ := run_checkLayers h.reads_prompts (fun _ => ⟨[], 1⟩) s
    exact hlog hcheck
  | workflows =>
    obtain ⟨journal, hcheck⟩ := run_checkLayers h.reads_workflows Definition.validate s
    exact hlog hcheck

theorem run_validate_of_ok {k : Kind} {s : Session} {report : Report} (h : s.toolkit.Regular)
    (hreport : s.toolkit.checking k s.files = .ok report) :
    ∃ journal, (validate k).run.run s = (.ok report, s.noting journal) := by
  obtain ⟨journal, hrun⟩ := run_validate k h
  rw [hreport] at hrun
  exact ⟨journal, hrun⟩

/-- A check that returns has written into the journal and done nothing else. -/
theorem checking_of_validate {k : Kind} {s s' : Session} {report : Report}
    (h : s.toolkit.Regular) (hrun : (validate k).run.run s = (.ok report, s')) :
    s.toolkit.checking k s.files = .ok report ∧ ∃ journal, s' = s.noting journal := by
  obtain ⟨journal, hrun'⟩ := run_validate k h
  obtain ⟨hreport, hsession⟩ := Prod.mk.inj (hrun.symm.trans hrun')
  exact ⟨mapError_eq_ok_iff.mp hreport.symm, journal, hsession⟩

end Toolkit

end Runbook
