import Runbook.Proofs.Sessions

/-!
Checks of all resources of a kind. Where the trees can be read, a check tells something of each
resource, in the order of the names: what validation finds in a workflow, nothing of a prompt, and
one error of a resource that is malformed. The check goes on after a malformed resource, but it ends
at one that is refused without a fault, and then tells nothing of the others.
-/
namespace Runbook.Toolkit

open Workflow Layers

/-- The resources of a kind that the layers of a toolkit come to. -/
def Kind.Merges (k : Kind) (files : Files) (t : Toolkit) (rs : List Resource) : Prop :=
  match k with
  | .prompts => Layers.Merges files t.prompts rs
  | .workflows => Layers.Merges files t.workflows rs

/-- The trees of a kind can be read. -/
def Kind.Readable (k : Kind) (files : Files) (t : Toolkit) : Prop :=
  match k with
  | .prompts => Layers.Readable files t.prompts
  | .workflows => Layers.Readable files t.workflows

/-- What is found in the content of a resource with a name, or why nothing can be. -/
def Kind.examine (k : Kind) (name content : String) : Except Refusal (List Finding) :=
  match k with
  | .prompts => (Prompt.parse name content).map fun _ => []
  | .workflows => (Definition.parseAs name content).map fun d => d.validate.findings

/-- The error on a malformed resource. -/
def malformedFinding (r : Resource) (f : DocumentFault) : Finding :=
  ⟨.error, "parse_error", (f.within r.name r.tier).message, some r.name, none⟩

/-- What a check tells of a resource: what is found in it, or that it is malformed. -/
inductive Tells (k : Kind) (r : Resource) : List Finding → Prop
  | examined {findings : List Finding} (h : k.examine r.name r.content = .ok findings) :
      Tells k r findings
  | malformed {f : DocumentFault} (h : k.examine r.name r.content = .error (.fault f)) :
      Tells k r [malformedFinding r f]

/-- What a kind reports on a resource. -/
def Kind.reportOn : Kind → Resource → Except LoadFault Report
  | .prompts => Toolkit.reportOn Prompt.parse fun _ => ⟨[], 1⟩
  | .workflows => Toolkit.reportOn Definition.parseAs Definition.validate

variable {k : Kind} {r : Resource} {files : Files} {t : Toolkit}

theorem Kind.reportOn_eq (k : Kind) (r : Resource) : k.reportOn r =
    match k.examine r.name r.content with
    | .ok findings => .ok ⟨findings, 1⟩
    | .error (.fault f) => .ok (Toolkit.malformed r (f.within r.name r.tier))
    | .error e => .error (.refused e) := by
  cases k with
  | prompts =>
    refine (Toolkit.reportOn_eq Prompt.parse (fun _ => ⟨[], 1⟩) r).trans ?_
    unfold examine
    rcases Prompt.parse r.name r.content with (f | f | _) | p <;> rfl
  | workflows =>
    refine (Toolkit.reportOn_eq Definition.parseAs Definition.validate r).trans ?_
    unfold examine
    rcases Definition.parseAs r.name r.content with (f | f | _) | d <;> rfl

theorem tells_of_reportOn {report : Report} (h : k.reportOn r = .ok report) :
    Tells k r report.findings ∧ report.filesChecked = 1 := by
  rw [Kind.reportOn_eq] at h
  split at h
  · rename_i findings hfound
    cases h
    exact ⟨.examined hfound, rfl⟩
  · rename_i f hfault
    cases h
    exact ⟨.malformed hfault, rfl⟩
  · cases h

theorem Tells.reportOn_eq {findings : List Finding} (h : Tells k r findings) :
    k.reportOn r = .ok ⟨findings, 1⟩ := by
  rw [Kind.reportOn_eq]
  cases h with
  | examined h => rw [h]
  | malformed h =>
    rw [h]
    rfl

/-- Reports put together have the findings of all, one after another. -/
theorem foldl_merge (reports : List Report) (report : Report) :
    reports.foldl Report.merge report =
      ⟨report.findings ++ (reports.map Report.findings).flatten,
        report.filesChecked + (reports.map Report.filesChecked).sum⟩ := by
  induction reports generalizing report with
  | nil => simp
  | cons first rest ih =>
    rw [List.foldl_cons, ih]
    simp [Report.merge, Nat.add_assoc]

/-- A resource that is refused without a fault, so that nothing can be told of it. -/
structure Abrupt (k : Kind) (r : Resource) (e : Refusal) : Prop where
  refused : k.examine r.name r.content = .error e
  faultless : ∀ f, e ≠ .fault f

theorem Abrupt.reportOn_eq {e : Refusal} (h : Abrupt k r e) :
    k.reportOn r = .error (.refused e) := by
  rw [Kind.reportOn_eq, h.refused]
  cases e with
  | fault f => exact absurd rfl (h.faultless f)
  | scalar f => rfl
  | tooDeep => rfl

theorem tells_or_abrupt (k : Kind) (r : Resource) :
    (∃ findings, Tells k r findings) ∨ ∃ e, Abrupt k r e := by
  rcases hexamine : k.examine r.name r.content with (f | f | _) | findings
  · exact Or.inl ⟨_, .malformed hexamine⟩
  · exact Or.inr ⟨_, hexamine, fun f h => by cases h⟩
  · exact Or.inr ⟨_, hexamine, fun f h => by cases h⟩
  · exact Or.inl ⟨_, .examined hexamine⟩

/-! Checks of some resources. -/

/-- What a check tells of some resources, or why it ends early. -/
def Kind.reportEach (k : Kind) (rs : List Resource) : Except LoadFault Report :=
  (rs.mapM k.reportOn).map (List.foldl Report.merge Report.empty)

theorem Kind.reportEach_of_tells {rs : List Resource} {parts : List (List Finding)}
    (h : List.Forall₂ (Tells k) rs parts) :
    k.reportEach rs = .ok ⟨parts.flatten, rs.length⟩ := by
  have hreports : rs.mapM k.reportOn = .ok (parts.map fun findings => ⟨findings, 1⟩) := by
    rw [mapM_eq_ok_iff, List.forall₂_map_right_iff]
    exact h.imp fun r findings htells => htells.reportOn_eq
  rw [reportEach, hreports, Except.map, foldl_merge]
  simp [Report.empty, List.map_map, Function.comp_def, h.length_eq]

/-- A check that goes well tells something of every resource. -/
theorem Kind.tells_of_reportEach {rs : List Resource} {report : Report}
    (h : k.reportEach rs = .ok report) : ∃ parts, List.Forall₂ (Tells k) rs parts ∧
      report = ⟨parts.flatten, rs.length⟩ := by
  have htold := h
  unfold reportEach at h
  cases hreports : rs.mapM k.reportOn with
  | error f =>
    rw [hreports] at h
    cases h
  | ok reports =>
    have hparts : List.Forall₂ (Tells k) rs (reports.map Report.findings) := by
      rw [List.forall₂_map_right_iff]
      exact (mapM_eq_ok_iff.mp hreports).imp fun r report htold => (tells_of_reportOn htold).1
    refine ⟨_, hparts, ?_⟩
    rw [reportEach_of_tells hparts] at htold
    exact (Except.ok.inj htold).symm

theorem exists_tells {rs : List Resource} (h : ∀ r ∈ rs, ∀ e, ¬ Abrupt k r e) :
    ∃ parts, List.Forall₂ (Tells k) rs parts := by
  induction rs with
  | nil => exact ⟨[], .nil⟩
  | cons r rest ih =>
    obtain ⟨hfirst, hrest⟩ := List.forall_mem_cons.mp h
    obtain ⟨parts, hparts⟩ := ih hrest
    rcases tells_or_abrupt k r with ⟨findings, htells⟩ | ⟨e, habrupt⟩
    · exact ⟨findings :: parts, .cons htells hparts⟩
    · exact absurd habrupt (hfirst e)

theorem Kind.reportEach_of_abrupt {before after : List Resource} {e : Refusal}
    (hbefore : ∀ b ∈ before, ∀ e, ¬ Abrupt k b e) (h : Abrupt k r e) :
    k.reportEach (before ++ r :: after) = .error (.refused e) := by
  have hfails : (before ++ r :: after).mapM k.reportOn = .error (.refused e) := by
    refine mapM_eq_error_iff.mpr ⟨before, r, after, rfl, fun b hb => ?_, h.reportOn_eq⟩
    rcases tells_or_abrupt k b with ⟨findings, htells⟩ | ⟨e, habrupt⟩
    · exact ⟨_, htells.reportOn_eq⟩
    · exact absurd habrupt (hbefore b hb e)
  rw [reportEach, hfails]
  rfl

/-! Checks of all resources. -/

def Kind.scan (k : Kind) (files : Files) (t : Toolkit) : Except LoadFault (List Resource) :=
  match k with
  | .prompts => (t.prompts.scan files).outcome.1
  | .workflows => (t.workflows.scan files).outcome.1

theorem checking_eq (k : Kind) (files : Files) (t : Toolkit) :
    t.checking k files = k.scan files t >>= k.reportEach := by
  cases k <;> rfl

theorem Kind.merges_of_scan (hdistinct : files.Distinct) {rs : List Resource}
    (h : k.scan files t = .ok rs) : k.Merges files t rs := by
  cases k with
  | prompts => exact Layers.merges_of_scan hdistinct h
  | workflows => exact Layers.merges_of_scan hdistinct h

theorem Kind.exists_merges (hdistinct : files.Distinct) (h : k.Readable files t) :
    ∃ rs, k.scan files t = .ok rs ∧ k.Merges files t rs := by
  cases k with
  | prompts => exact Layers.exists_merges hdistinct h
  | workflows => exact Layers.exists_merges hdistinct h

/-- Where the trees of a kind can be read, a check goes through the resources that the layers come
to. If none of them is refused without a fault, it tells something of each, in the order of the
names. Otherwise it ends at the first such resource and only tells why that one is refused. -/
theorem validate_tells {s : Session} (hregular : s.toolkit.Regular)
    (hdistinct : s.files.Distinct) (hreadable : k.Readable s.files s.toolkit) :
    ∃ rs, k.Merges s.files s.toolkit rs ∧
      ((∀ r ∈ rs, ∀ e, ¬ Abrupt k r e) → ∃ parts journal,
        List.Forall₂ (Tells k) rs parts ∧
        (validate k).run.run s = (.ok ⟨parts.flatten, rs.length⟩, s.noting journal)) ∧
      ∀ before r after e, rs = before ++ r :: after →
        (∀ b ∈ before, ∀ e, ¬ Abrupt k b e) → Abrupt k r e → ∃ journal,
          (validate k).run.run s = (.error (.load (.refused e)), s.noting journal) := by
  obtain ⟨rs, hscan, hmerges⟩ := Kind.exists_merges hdistinct hreadable
  obtain ⟨journal, hrun⟩ := run_validate k hregular
  rw [checking_eq, hscan] at hrun
  change _ = ((k.reportEach rs).mapError ToolkitFault.load, _) at hrun
  refine ⟨rs, hmerges, fun hnone => ?_, fun before r after e hrs hbefore habrupt => ?_⟩
  · obtain ⟨parts, hparts⟩ := exists_tells hnone
    rw [Kind.reportEach_of_tells hparts] at hrun
    exact ⟨parts, journal, hparts, hrun⟩
  · rw [hrs, Kind.reportEach_of_abrupt hbefore habrupt] at hrun
    exact ⟨journal, hrun⟩

/-- A place of work with a workflow whose version is a date that does not exist. -/
def datelessFiles : Files :=
  bareFiles "workflows" "late.md" "name: late\nversion: 2024-02-31\n\n[*] --> A\n"

/-- One of the workflows there is refused without a fault, and so the check of all of them fails. -/
theorem exists_abrupt_of_dateless : ∃ rs, Kind.workflows.Merges datelessFiles
    (bareSession datelessFiles).toolkit rs ∧ (∃ r ∈ rs, ∃ e, Abrupt .workflows r e) ∧
      ∃ f journal, (validate .workflows).run.run (bareSession datelessFiles) =
        (.error f, (bareSession datelessFiles).noting journal) := by
  have hregular : (bareSession datelessFiles).toolkit.Regular := regular_bareSession _
  have hdistinct : datelessFiles.Distinct := distinct_bareFiles ..
  have hreadable : Kind.workflows.Readable datelessFiles (bareSession datelessFiles).toolkit := by
    refine readable_of_texts hdistinct (fun bytes hfile => ?_) fun location bytes hmem => ?_
    · cases hfile
    · simp only [datelessFiles, bareFiles, List.mem_cons, Prod.mk.injEq, reduceCtorEq, and_false, false_or,
        Content.file.injEq, List.not_mem_nil, or_false] at hmem
      rw [hmem.2]
      decide +kernel
  have hfails : succeedsWith (fun _ => true) ((bareSession datelessFiles).toolkit.checking
      .workflows (bareSession datelessFiles).files) = false := by
    decide +kernel
  obtain ⟨journal, hrun⟩ := run_validate .workflows hregular
  obtain ⟨f, herror⟩ : ∃ f, (validate .workflows).run.run (bareSession datelessFiles) =
      (.error f, (bareSession datelessFiles).noting journal) := by
    rw [hrun]
    generalize Toolkit.checking .workflows _ _ = checked at hfails
    cases checked with
    | error f => exact ⟨.load f, rfl⟩
    | ok report => cases hfails
  obtain ⟨rs, hmerges, hwhole, -⟩ := validate_tells hregular hdistinct hreadable
  refine ⟨rs, hmerges, ?_, _, _, herror⟩
  by_contra hnone
  push Not at hnone
  obtain ⟨parts, journal', -, hreturns⟩ := hwhole hnone
  rw [herror] at hreturns
  cases hreturns

end Runbook.Toolkit
