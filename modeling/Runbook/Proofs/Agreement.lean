import Runbook.Proofs.Examinations
import Runbook.Proofs.Validity

/-!
Checks, loads and starts agree. A check tells of a malformed resource exactly where a load fails,
and a load fails with the first of these faults, prompts before workflows and names in order. Of a
workflow that was loaded a check tells the errors for which it cannot be started, and no others.
-/
namespace Runbook.Toolkit

open Workflow Layers

variable {k : Kind} {r : Resource} {rs : List Resource} {parts : List (List Finding)}
  {findings : List Finding} {files : Files} {t : Toolkit} {s s₁ s₂ : Session}

/-! What a check tells. -/

/-- Among findings, the error on a malformed resource that is the first of these by name. -/
structure FirstMalformed (findings : List Finding) (name : String) (f : Finding) : Prop where
  mem : f ∈ findings
  code : f.code = "parse_error"
  named : f.workflow = some name
  first : ∀ g ∈ findings, g.code = "parse_error" →
    g = f ∨ ∃ other, g.workflow = some other ∧ name < other

theorem code_ne_of_mem_validate {d : Definition} {f : Finding} (h : f ∈ d.validate.findings) :
    f.code ≠ "parse_error" := by
  obtain ⟨i, -, rfl⟩ := List.mem_map.mp h
  change i.code ≠ "parse_error"
  unfold Issue.code
  split <;> decide

theorem workflow_of_mem_validate {d : Definition} {f : Finding} (h : f ∈ d.validate.findings) :
    f.workflow = some d.name := by
  obtain ⟨i, -, rfl⟩ := List.mem_map.mp h
  rfl

/-- What is found in a resource that can be examined is no parse error. -/
theorem code_ne_of_examine (h : k.examine r.name r.content = .ok findings) {f : Finding}
    (hf : f ∈ findings) : f.code ≠ "parse_error" := by
  cases k with
  | prompts =>
    obtain ⟨p, -, rfl⟩ := map_eq_ok_iff.mp h
    cases hf
  | workflows =>
    obtain ⟨d, -, rfl⟩ := map_eq_ok_iff.mp h
    exact code_ne_of_mem_validate hf

/-! Items of resources. -/

section Items

variable {α : Type} {parse : String → String → Except Refusal α} {part : List Finding}

/-- A resource of which a check tells something has an item, or it is malformed and has none. -/
theorem Tells.item
    (hparse : ∀ name content e, k.examine name content = .error e ↔ parse name content = .error e)
    (h : Tells k r part) :
    (∃ item, itemOf parse r = .ok item ∧ ∀ f ∈ part, f.code ≠ "parse_error") ∨
      ∃ f, itemOf parse r = .error (.fault (f.within r.name r.tier)) ∧
        part = [malformedFinding r f] := by
  cases h with
  | examined h =>
    refine Or.inl ?_
    cases hitem : parse r.name r.content with
    | error e =>
      rw [← hparse, h] at hitem
      cases hitem
    | ok item =>
      refine ⟨item, ?_, fun f hf => code_ne_of_examine h hf⟩
      rw [itemOf, hitem]
      rfl
  | malformed h =>
    refine Or.inr ⟨_, ?_, rfl⟩
    rw [itemOf, (hparse ..).mp h]
    rfl

theorem Tells.workflow_of_malformed (h : Tells k r part) {f : Finding} (hf : f ∈ part)
    (hcode : f.code = "parse_error") : f.workflow = some r.name := by
  cases h with
  | examined h => exact absurd hcode (code_ne_of_examine h hf)
  | malformed h =>
    rw [List.mem_singleton.mp hf]
    rfl

theorem Tells.eq_of_examine (h : Tells k r part)
    (hexamine : k.examine r.name r.content = .ok findings) : part = findings := by
  cases h with
  | examined h => exact Except.ok.inj (h.symm.trans hexamine)
  | malformed h =>
    rw [hexamine] at h
    cases h

/-- Where a check tells of resources, they have items if it tells of no malformed one. Otherwise
they have none for the fault of the first malformed one. -/
theorem items_of_tells
    (hparse : ∀ name content e, k.examine name content = .error e ↔ parse name content = .error e)
    (hordered : rs.Pairwise fun a b => a.name < b.name) (h : List.Forall₂ (Tells k) rs parts) :
    (∃ items, rs.mapM (fun r => (itemOf parse r).mapError LoadFault.refused) = .ok items ∧
        ∀ f ∈ parts.flatten, f.code ≠ "parse_error") ∨
      ∃ f name finding,
        rs.mapM (fun r => (itemOf parse r).mapError LoadFault.refused) =
          .error (.refused (.fault f)) ∧
        f.resource = some name ∧ f.message = finding.message ∧
        FirstMalformed parts.flatten name finding := by
  induction h with
  | nil => exact Or.inl ⟨[], rfl, nofun⟩
  | @cons r part rest parts hfirst hrest ih =>
    obtain ⟨hbefore, hordered⟩ := List.pairwise_cons.mp hordered
    rw [List.mapM_cons, List.flatten_cons]
    rcases hfirst.item hparse with ⟨item, hitem, hnone⟩ | ⟨f, hitem, rfl⟩
    · rw [hitem]
      rcases ih hordered with
        ⟨items, hitems, hnever⟩ | ⟨f, name, finding, hitems, hname, htext, hmal⟩
      · rw [hitems]
        exact Or.inl ⟨item :: items, rfl, List.forall_mem_append.mpr ⟨hnone, hnever⟩⟩
      · rw [hitems]
        refine Or.inr ⟨f, name, finding, rfl, hname, htext, List.mem_append_right _ hmal.mem,
          hmal.code, hmal.named, fun g hg hcode => ?_⟩
        rcases List.mem_append.mp hg with hg | hg
        · exact absurd hcode (hnone g hg)
        · exact hmal.first g hg hcode
    · rw [hitem]
      refine Or.inr ⟨_, r.name, malformedFinding r f, rfl, rfl, rfl,
        List.mem_cons_self .., rfl, rfl, fun g hg hcode => ?_⟩
      rcases List.mem_cons.mp hg with rfl | hg
      · exact Or.inl rfl
      · obtain ⟨part, hpart, hg⟩ := List.mem_flatten.mp hg
        obtain ⟨other, hother, htells⟩ := exists_of_mem_of_forall₂ hrest hpart
        exact Or.inr ⟨other.name, htells.workflow_of_malformed hg hcode, hbefore other hother⟩

/-- What a check tells of layers is what becomes of them when they are resolved. -/
theorem resolve_of_tells {l : Layers α} (hreads : l.kind.Reads parse)
    (hparse : ∀ name content e, k.examine name content = .error e ↔ parse name content = .error e)
    (hdistinct : files.Distinct) (hscan : (l.scan files).outcome.1 = .ok rs)
    (h : List.Forall₂ (Tells k) rs parts) :
    (∃ resolution, (l.resolve files).outcome.1 = .ok resolution ∧
        ∀ f ∈ parts.flatten, f.code ≠ "parse_error") ∨
      ∃ f name finding, (l.resolve files).outcome.1 = .error (.refused (.fault f)) ∧
        f.resource = some name ∧ f.message = finding.message ∧
        FirstMalformed parts.flatten name finding := by
  have hordered := (Layers.merges_of_scan hdistinct hscan).ordered
  obtain ⟨o, hscanned, rfl⟩ := exists_scanned_of_scan hscan
  rw [outcome_resolve hreads, hscanned]
  rcases items_of_tells hparse hordered h with
    ⟨items, hitems, hnone⟩ | ⟨f, name, finding, hitems, hfirst⟩
  · exact Or.inl ⟨_, bind_eq_ok_iff.mpr ⟨o, rfl, bind_eq_ok_iff.mpr ⟨items, hitems, rfl⟩⟩, hnone⟩
  · refine Or.inr ⟨f, name, finding, bind_eq_error_iff.mpr (Or.inr ⟨o, rfl, ?_⟩), hfirst⟩
    exact bind_eq_error_iff.mpr (Or.inl hitems)

end Items

/-! Loads. -/

theorem examine_prompts (name content : String) (e : Refusal) :
    Kind.examine .prompts name content = .error e ↔ Prompt.parse name content = .error e :=
  map_eq_error_iff

theorem examine_workflows (name content : String) (e : Refusal) :
    Kind.examine .workflows name content = .error e ↔ Definition.parseAs name content = .error e :=
  map_eq_error_iff

/-- A check that goes well has scanned some resources and tells something of each. -/
theorem exists_tells_of_checking {report : Report} (h : t.checking k files = .ok report) :
    ∃ rs parts, k.scan files t = .ok rs ∧ List.Forall₂ (Tells k) rs parts ∧
      report = ⟨parts.flatten, rs.length⟩ := by
  rw [checking_eq] at h
  obtain ⟨rs, hscan, hreport⟩ := bind_eq_ok_iff.mp h
  obtain ⟨parts, hparts, rfl⟩ := Kind.tells_of_reportEach hreport
  exact ⟨rs, parts, hscan, hparts, rfl⟩

/-- A load does what the checks of both kinds tell. -/
theorem loading_of_checking (hregular : t.Regular) (hdistinct : files.Distinct) {P W : Report}
    (hP : t.checking .prompts files = .ok P) (hW : t.checking .workflows files = .ok W) :
    (∃ t', t.loading files = .ok t' ∧ (∀ f ∈ P.findings, f.code ≠ "parse_error") ∧
        ∀ f ∈ W.findings, f.code ≠ "parse_error") ∨
      ∃ f name finding, t.loading files = .error (.refused (.fault f)) ∧
        f.resource = some name ∧ f.message = finding.message ∧
        (FirstMalformed P.findings name finding ∨
          (∀ f ∈ P.findings, f.code ≠ "parse_error") ∧
            FirstMalformed W.findings name finding) := by
  obtain ⟨ps, partsP, hscanP, htellsP, rfl⟩ := exists_tells_of_checking hP
  obtain ⟨ws, partsW, hscanW, htellsW, rfl⟩ := exists_tells_of_checking hW
  unfold loading
  rcases resolve_of_tells hregular.reads_prompts examine_prompts hdistinct hscanP htellsP with
    ⟨prompts, hprompts, hnone⟩ | ⟨f, name, finding, hprompts, hname, htext, hfirst⟩
  · rw [hprompts]
    rcases resolve_of_tells hregular.reads_workflows examine_workflows hdistinct hscanW htellsW
      with ⟨workflows, hworkflows, hnever⟩ | ⟨f, name, finding, hworkflows, hname, htext, hfirst⟩
    · rw [hworkflows]
      exact Or.inl ⟨_, rfl, hnone, hnever⟩
    · rw [hworkflows]
      exact Or.inr ⟨f, name, finding, rfl, hname, htext, Or.inr ⟨hnone, hfirst⟩⟩
  · rw [hprompts]
    exact Or.inr ⟨f, name, finding, rfl, hname, htext, Or.inl hfirst⟩

/-! Starts. -/

/-- Of what is told of some resources, what is about one of them is what is told of that one. -/
theorem told_of_mem {R : Resource → List Finding → Prop}
    (hordered : rs.Pairwise fun a b => a.name < b.name) (h : List.Forall₂ R rs parts)
    (hnamed : ∀ r part, R r part → ∀ f ∈ part, f.workflow = some r.name) (hr : r ∈ rs) :
    R r (parts.flatten.filter fun f => f.workflow == some r.name) := by
  have hnone : ∀ (name : String) {others : List Resource} {parts : List (List Finding)},
      List.Forall₂ R others parts → (∀ other ∈ others, other.name ≠ name) →
      parts.flatten.filter (fun f => f.workflow == some name) = [] := by
    intro name others parts hothers hne
    refine List.filter_eq_nil_iff.mpr fun f hf hsame => ?_
    obtain ⟨part, hpart, hf⟩ := List.mem_flatten.mp hf
    obtain ⟨other, hother, htold⟩ := exists_of_mem_of_forall₂ hothers hpart
    rw [hnamed other part htold f hf, beq_iff_eq, Option.some.injEq] at hsame
    exact hne other hother hsame
  induction h with
  | nil => cases hr
  | @cons first part rest parts hfirst hrest ih =>
    obtain ⟨hbefore, hordered⟩ := List.pairwise_cons.mp hordered
    rw [List.flatten_cons, List.filter_append]
    rcases List.mem_cons.mp hr with rfl | hr
    · have hall : part.filter (fun f => f.workflow == some r.name) = part :=
        List.filter_eq_self.mpr fun f hf => beq_iff_eq.mpr (hnamed r part hfirst f hf)
      rw [hall, hnone r.name hrest fun other hother => (ne_of_lt (hbefore other hother)).symm,
        List.append_nil]
      exact hfirst
    · have hfirst : List.Forall₂ R [first] [part] := .cons hfirst .nil
      have hskip := hnone r.name hfirst fun other hother => by
        rw [List.mem_singleton.mp hother]
        exact ne_of_lt (hbefore r hr)
      rw [List.flatten_singleton] at hskip
      rw [hskip, List.nil_append]
      exact ih hordered hr

theorem Tells.workflow_of_mem {part : List Finding} (h : Tells .workflows r part)
    (hname : r.name ≠ "") {f : Finding} (hf : f ∈ part) : f.workflow = some r.name := by
  cases h with
  | examined h =>
    obtain ⟨d, hparse, rfl⟩ := map_eq_ok_iff.mp h
    rw [workflow_of_mem_validate hf]
    exact congrArg some (Definition.reads_kind.named hname hparse)
  | malformed h =>
    rw [List.mem_singleton.mp hf]
    rfl

/-- What a check tells of a workflow that a load hands over is what validation finds in it. -/
theorem findings_of_loading (hregular : t.Regular) (hdistinct : files.Distinct) {W : Report}
    (hW : t.checking .workflows files = .ok W) {t' : Toolkit} (hload : t.loading files = .ok t')
    {name : String} {d : Definition} (hget : Keyed.get? name t'.registry = some d) :
    d.name = name ∧
      W.findings.filter (fun f => f.workflow == some name) = d.validate.findings := by
  obtain ⟨prompts, -, hload⟩ := bind_eq_ok_iff.mp hload
  obtain ⟨workflows, hresolve, hload⟩ := bind_eq_ok_iff.mp hload
  cases hload
  obtain ⟨⟨records, hloaded⟩, hitems, -⟩ := resolve_eq_ok hregular.reads_workflows hresolve
  obtain ⟨tier, content, hsupplies, hparse⟩ := (item_iff_supplies hregular.reads_workflows hdistinct
    hregular.namedWorkflows hloaded hitems).mp hget
  obtain ⟨ws, parts, hscanned, htells, rfl⟩ := exists_tells_of_checking hW
  have hmerges : Layers.Merges files t.workflows ws := Layers.merges_of_scan hdistinct hscanned
  obtain ⟨r, hr, rfl, -, rfl⟩ := (hmerges.supplied name tier content).mpr hsupplies
  have hnames : ∀ w ∈ ws, w.name ≠ "" := fun w hw =>
    hmerges.name_ne_empty hregular.namedWorkflows hw
  obtain ⟨-, htold⟩ := told_of_mem hmerges.ordered
    ((List.forall₂_and_left _ _).mpr ⟨hnames, htells⟩)
    (fun w part htold f hf => htold.2.workflow_of_mem htold.1 hf) hr
  have hexamined : Kind.examine .workflows r.name r.content = .ok d.validate.findings :=
    map_eq_ok_iff.mpr ⟨d, hparse, rfl⟩
  exact ⟨Definition.reads_kind.named (hnames r hr) hparse, htold.eq_of_examine hexamined⟩

/-- A machine that starts a valid workflow may be refused, but not for errors of the workflow. -/
theorem start_ne_invalid {host : Host} {d : Definition} (h : d.validate.hasErrors = false)
    {bindings : Fields} {id : String} {reads judged invoked : Nat} {errors : List Finding} :
    Machine.start host d bindings id reads judged invoked ≠ .error (.invalid errors) := by
  obtain ⟨initial, -, hinitial, -⟩ := Definition.exists_initial h
  unfold Machine.start
  dsimp only
  rw [h, hinitial]
  intro hstart
  obtain ⟨cause, -, hcause⟩ := exists_of_mapError_eq_error hstart
  cases hcause

section Start

variable {u u' : Session} {name : String} {d : Definition}

theorem run_start_of_invalid (around : Surroundings) (bindings : Fields)
    (hloaded : u.toolkit.loaded = true) (hget : Keyed.get? name u.toolkit.registry = some d)
    (h : d.validate.hasErrors = true) :
    (start around name bindings).run.run u =
      (.error (.invalid d.name d.validate.errors), u) := by
  have hstart : Machine.start (u.host around) d bindings (around.identifier u.named) u.reads 0 0 =
      .error (.invalid d.validate.errors) := if_pos h
  have hget' : (get : Work Session).run.run u = (.ok u, u) := rfl
  have hhost : (host around).run.run u = (.ok (u.host around), u) := rfl
  unfold start
  rw [run_bind_of_ok (run_workflow hloaded hget), run_bind_of_ok hget', run_bind_of_ok hhost,
    hstart]
  rfl

/-- A workflow in which validation finds no error is not refused as invalid. -/
theorem run_start_of_valid (around : Surroundings) (bindings : Fields)
    (hloaded : u.toolkit.loaded = true) (hget : Keyed.get? name u.toolkit.registry = some d)
    (h : d.validate.hasErrors = false) {workflow : String} {errors : List Finding} :
    (start around name bindings).run.run u ≠ (.error (.invalid workflow errors), u') := by
  have hget' : (get : Work Session).run.run u = (.ok u, u) := rfl
  have hhost : (host around).run.run u = (.ok (u.host around), u) := rfl
  have hnamed : (modify fun s => { s with named := s.named + 1 } : Work Unit).run.run u =
      (.ok (), { u with named := u.named + 1 }) := rfl
  unfold start
  rw [run_bind_of_ok (run_workflow hloaded hget), run_bind_of_ok hget', run_bind_of_ok hhost]
  rcases hstart : Machine.start (u.host around) d bindings (around.identifier u.named) u.reads 0 0
    with (errors | _ | i) | m
  · exact absurd hstart (start_ne_invalid h)
  · nofun
  · nofun
  · -- The run is kept, and what may go wrong then is a fault of the store.
    have hmoved : (moved (.ok m)).run.run { u with named := u.named + 1 } =
        (.ok m.run, { u with named := u.named + 1 }.following m) := rfl
    have hkeep := run_keep ({ u with named := u.named + 1 }.following m) m.run
    dsimp only
    rw [run_bind_of_ok hnamed, run_bind_of_ok hmoved]
    split at hkeep
    · rw [run_bind_of_error hkeep]
      nofun
    · rw [run_bind_of_ok hkeep]
      nofun

end Start

/-- Starting a workflow is refused for just the errors that are about it among some findings. -/
structure Gated (findings : List Finding) (around : Surroundings) (u : Session) (name : String)
    (bindings : Fields) : Prop where
  invalid_iff : (∃ workflow errors u', (start around name bindings).run.run u =
      (.error (.invalid workflow errors), u')) ↔
    ∃ f ∈ findings, f.severity = .error ∧ f.workflow = some name
  errors : ∀ workflow errors u', (start around name bindings).run.run u =
      (.error (.invalid workflow errors), u') →
    workflow = name ∧
      errors = findings.filter fun f => f.severity == .error && f.workflow == some name

theorem gated_of_findings {findings : List Finding} {around : Surroundings} {u : Session}
    {name : String} {bindings : Fields} {d : Definition} (hloaded : u.toolkit.loaded = true)
    (hget : Keyed.get? name u.toolkit.registry = some d) (hname : d.name = name)
    (hfindings : findings.filter (fun f => f.workflow == some name) = d.validate.findings) :
    Gated findings around u name bindings := by
  have hmem : ∀ f, f ∈ d.validate.findings ↔ f ∈ findings ∧ f.workflow = some name := by
    intro f
    rw [← hfindings, List.mem_filter, beq_iff_eq]
  have herrors : d.validate.errors =
      findings.filter fun f => f.severity == .error && f.workflow == some name := by
    rw [Report.errors, ← hfindings, List.filter_filter]
  have hhas : d.validate.hasErrors = true ↔
      ∃ f ∈ findings, f.severity = .error ∧ f.workflow = some name := by
    rw [Report.hasErrors, List.any_eq_true]
    refine exists_congr fun f => ?_
    rw [hmem, beq_iff_eq]
    tauto
  cases hvalid : d.validate.hasErrors with
  | true =>
    have hrun := run_start_of_invalid around bindings hloaded hget hvalid
    refine ⟨iff_of_true ⟨_, _, _, hrun⟩ (hhas.mp hvalid), fun workflow errors u' hother => ?_⟩
    rw [hrun] at hother
    cases hother
    exact ⟨hname, herrors⟩
  | false =>
    have hrun : ∀ {workflow errors u'}, (start around name bindings).run.run u ≠
        (.error (.invalid workflow errors), u') :=
      run_start_of_valid around bindings hloaded hget hvalid
    refine ⟨iff_of_false ?_ fun herror => ?_, fun workflow errors u' h => absurd h hrun⟩
    · rintro ⟨workflow, errors, u', h⟩
      exact hrun h
    · rw [hhas.mpr herror] at hvalid
      cases hvalid

theorem FirstMalformed.not_forall {findings : List Finding} {name : String} {f : Finding}
    (h : FirstMalformed findings name f) : ¬ ∀ g ∈ findings, g.code ≠ "parse_error" :=
  fun hnone => hnone f h.mem h.code

/-- Where the checks of prompts and of workflows both return, a load of the same files goes well if
and only if they tell of no malformed resource. Otherwise it fails with the fault of the first one.
A workflow that it hands over can then be started unless the checks have told of errors in it. -/
theorem checks_agree (hregular : s.toolkit.Regular) (hdistinct : s.files.Distinct) {P W : Report}
    (hP : (validate .prompts).run.run s = (.ok P, s₁))
    (hW : (validate .workflows).run.run s₁ = (.ok W, s₂)) :
    ((∃ s', load.run.run s₂ = (.ok (), s')) ↔
      ∀ f ∈ P.findings ++ W.findings, f.code ≠ "parse_error") ∧
    (∀ e s', load.run.run s₂ = (.error e, s') → ∃ f name finding,
      e = .load (.refused (.fault f)) ∧ f.resource = some name ∧ e.message = finding.message ∧
        (FirstMalformed P.findings name finding ∨
          (∀ g ∈ P.findings, g.code ≠ "parse_error") ∧
            FirstMalformed W.findings name finding)) ∧
    ∀ s' u, load.run.run s₂ = (.ok (), s') → u.toolkit.loaded = true →
      u.toolkit.registry = s'.toolkit.registry → ∀ around name bindings d,
        Keyed.get? name u.toolkit.registry = some d → Gated W.findings around u name bindings := by
  obtain ⟨hp, journal, rfl⟩ := checking_of_validate hregular hP
  obtain ⟨hw, journal', rfl⟩ := checking_of_validate (s := s.noting journal) hregular hW
  rcases loading_of_checking hregular hdistinct hp hw with
    ⟨t, hload, hnone, hnever⟩ | ⟨f, name, finding, hload, hname, htext, hfirst⟩
  · obtain ⟨journal'', hrun⟩ :=
      run_load_of_ok (s := (s.noting journal).noting journal') hload
    rw [hrun]
    refine ⟨iff_of_true ⟨_, rfl⟩ (List.forall_mem_append.mpr ⟨hnone, hnever⟩),
      fun e s' h => ?_, fun s' u hs' hloaded hregistry around name bindings d hget => ?_⟩
    · cases congrArg Prod.fst h
    · obtain rfl := congrArg Prod.snd hs'
      have hget' : Keyed.get? name t.registry = some d := hregistry ▸ hget
      obtain ⟨hname, hfindings⟩ := findings_of_loading hregular hdistinct hw hload hget'
      exact gated_of_findings hloaded hget hname hfindings
  · obtain ⟨journal'', hrun⟩ :=
      run_load_of_error (s := (s.noting journal).noting journal') hload
    rw [hrun]
    refine ⟨iff_of_false ?_ fun hall => ?_, fun e s' h => ?_, fun s' u h => ?_⟩
    · rintro ⟨s', h⟩
      cases congrArg Prod.fst h
    · obtain ⟨hnone, hnever⟩ := List.forall_mem_append.mp hall
      rcases hfirst with hfirst | ⟨-, hfirst⟩
      · exact hfirst.not_forall hnone
      · exact hfirst.not_forall hnever
    · cases congrArg Prod.fst h
      exact ⟨f, name, finding, rfl, hname, htext, hfirst⟩
    · cases congrArg Prod.fst h

/-- A place of work with a workflow that never ends. -/
def endlessFiles : Files :=
  bareFiles "workflows" "endless.md" "name: endless\n\n[*] --> A\nA --> A\n"

/-- What is wrong with the workflow. -/
def endlessFinding : Finding :=
  ⟨.error, "no_terminal", "No terminal state ([*]) is reachable from the initial state",
    some "endless", none⟩

/-- The workflow is loaded, and every start of it is refused for what is wrong with it. -/
theorem refused_of_endless : ∃ s₁ s₂ s',
    (validate .prompts).run.run (bareSession endlessFiles) = (.ok ⟨[], 0⟩, s₁) ∧
    (validate .workflows).run.run s₁ = (.ok ⟨[endlessFinding], 1⟩, s₂) ∧
    load.run.run s₂ = (.ok (), s') ∧
    ∀ around bindings, ∃ u', (start around "endless" bindings).run.run s' =
      (.error (.invalid "endless" [endlessFinding]), u') := by
  have hregular : (bareSession endlessFiles).toolkit.Regular := regular_bareSession _
  have hdistinct : endlessFiles.Distinct := distinct_bareFiles ..
  have hP : succeedsWith (fun report => report == ⟨[], 0⟩)
      ((bareSession endlessFiles).toolkit.checking .prompts endlessFiles) = true := by
    decide +kernel
  have hW : succeedsWith (fun report => report == ⟨[endlessFinding], 1⟩)
      ((bareSession endlessFiles).toolkit.checking .workflows endlessFiles) = true := by
    decide +kernel
  have hload : succeedsWith (fun t => (Keyed.get? "endless" t.registry).isSome && t.loaded)
      ((bareSession endlessFiles).toolkit.loading endlessFiles) = true := by
    decide +kernel
  obtain ⟨P, hchecked, hP⟩ := succeedsWith_iff.mp hP
  obtain ⟨W, hchecked', hW⟩ := succeedsWith_iff.mp hW
  obtain ⟨t, hloading, ht⟩ := succeedsWith_iff.mp hload
  obtain rfl := beq_iff_eq.mp hP
  obtain rfl := beq_iff_eq.mp hW
  obtain ⟨hget, hloaded⟩ := Bool.and_eq_true_iff.mp ht
  obtain ⟨d, hget⟩ := Option.isSome_iff_exists.mp hget
  obtain ⟨journal, hrun⟩ := run_validate_of_ok hregular hchecked
  obtain ⟨journal', hrun'⟩ :=
    run_validate_of_ok (s := (bareSession endlessFiles).noting journal) hregular hchecked'
  obtain ⟨journal'', hloads⟩ :=
    run_load_of_ok (s := ((bareSession endlessFiles).noting journal).noting journal') hloading
  obtain ⟨-, -, hstarts⟩ := checks_agree hregular hdistinct hrun hrun'
  refine ⟨_, _, _, hrun, hrun', hloads, fun around bindings => ?_⟩
  have hgated := hstarts _ _ hloads hloaded rfl around "endless" bindings d hget
  obtain ⟨workflow, errors, u', hrefused⟩ :=
    hgated.invalid_iff.mpr ⟨endlessFinding, List.mem_singleton_self _, rfl, rfl⟩
  obtain ⟨rfl, rfl⟩ := hgated.errors _ _ _ hrefused
  exact ⟨u', hrefused⟩

end Runbook.Toolkit
