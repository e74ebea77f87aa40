import Mathlib.Data.List.Forall2
import Runbook.Proofs.Outcomes
import Runbook.Proofs.Timestamps
import Runbook.Proofs.Values
import Runbook.Workflow.RunRecord

/-!
Runs read back from their records. A record is read part by part, so that a run is read exactly
where each of its parts is. The parts of a run's own record are read as they were, if its times can
be recorded and its variables are values that records hold as they are.
-/
namespace Runbook

namespace Checked

variable {α β : Type}

theorem also_eq_ok_iff {f : Checked (α → β)} {x : Checked α} {b : β} :
    also f x = .ok b ↔ ∃ g a, f = .ok g ∧ x = .ok a ∧ g a = b := by
  cases f <;> cases x <;> simp [also]

theorem under_eq_ok_iff {key : String} {x : Checked α} {a : α} :
    under key x = .ok a ↔ x = .ok a := mapError_eq_ok_iff

theorem every_eq_ok_iff {xs : List (Checked α)} {as : List α} :
    every xs = .ok as ↔ List.Forall₂ (fun x a => x = .ok a) xs as := by
  induction xs generalizing as with
  | nil => simp [every, eq_comm]
  | cons x rest ih =>
    rw [every, also_eq_ok_iff, List.forall₂_cons_left_iff]
    simp only [map_eq_ok_iff]
    constructor
    · rintro ⟨_, more, ⟨a, hx, rfl⟩, hrest, rfl⟩
      exact ⟨a, more, hx, ih.mp hrest, rfl⟩
    · rintro ⟨a, more, hx, hrest, rfl⟩
      exact ⟨_, more, ⟨a, hx, rfl⟩, ih.mpr hrest, rfl⟩

theorem field_eq_ok_iff {key : String} {read : Value → Checked α} {fields : Fields} {a : α} :
    field key read fields = .ok a ↔ ∃ v, Keyed.get? key fields = some v ∧ read v = .ok a := by
  unfold field
  rw [under_eq_ok_iff]
  cases Keyed.get? key fields <;> simp [wrong]

theorem fieldOr_eq_ok_iff {key : String} {default : α} {read : Value → Checked α}
    {fields : Fields} {a : α} : fieldOr key default read fields = .ok a ↔
      (∃ v, Keyed.get? key fields = some v ∧ read v = .ok a) ∨
        (Keyed.get? key fields = none ∧ default = a) := by
  unfold fieldOr
  cases Keyed.get? key fields <;> simp [under_eq_ok_iff]

theorem text_eq_ok_iff {v : Value} {s : String} :
    text v = .ok s ↔ v = .text s ∧ Text.hasHalves s = false := by
  cases v with
  | text t =>
    unfold text
    dsimp only
    constructor
    · split
      · nofun
      · rename_i hwhole
        rintro ⟨⟩
        exact ⟨rfl, Bool.eq_false_iff.mpr hwhole⟩
    · rintro ⟨⟨⟩, hwhole⟩
      rw [hwhole]
      rfl
  | _ => simp [text, wrong]

theorem of_optional_eq_ok {read : Value → Checked α} {v : Value} {a : α}
    (h : optional read v = .ok (some a)) : read v = .ok a := by
  unfold optional at h
  split at h
  · cases h
  · obtain ⟨a', hread, hsame⟩ := map_eq_ok_iff.mp h
    cases hsame
    exact hread

theorem list_eq_ok_iff {read : Value → Checked α} {v : Value} {as : List α} :
    list read v = .ok as ↔
      ∃ items, v = .list items ∧ List.Forall₂ (fun i a => read i = .ok a) items as := by
  cases v with
  | list items =>
    have hplaces : List.Forall₂ (fun (i : Value × Nat) a => read i.1 = .ok a) items.zipIdx as ↔
        List.Forall₂ (fun i a => read i = .ok a) items as := by
      rw [← List.forall₂_map_left_iff (R := fun i a => read i = .ok a), List.zipIdx_map_fst]
    have hitems : list read (.list items) = .ok as ↔
        List.Forall₂ (fun i a => read i = .ok a) items as := by
      unfold list
      rw [every_eq_ok_iff, List.forall₂_map_left_iff]
      simp only [under_eq_ok_iff]
      exact hplaces
    simp [hitems]
  | _ => simp [list, wrong]

theorem dictionary_eq_ok_iff {read : Value → Checked α} {v : Value} {es : List (String × α)} :
    dictionary read v = .ok es ↔ ∃ fields, v = .record fields ∧
      List.Forall₂ (fun f e => Text.hasHalves f.1 = false ∧ f.1 = e.1 ∧ read f.2 = .ok e.2)
        fields es := by
  have hpart : ∀ (f : String × Value) (e : String × α),
      under (Text.replaceHalves f.1) (also ((under "[key]" (text (.text f.1))).map Prod.mk)
        (read f.2)) = .ok e ↔ Text.hasHalves f.1 = false ∧ f.1 = e.1 ∧ read f.2 = .ok e.2 := by
    intro f e
    rw [under_eq_ok_iff, also_eq_ok_iff]
    simp only [map_eq_ok_iff, under_eq_ok_iff, text_eq_ok_iff]
    constructor
    · rintro ⟨_, value, ⟨key, ⟨hkey, hwhole⟩, rfl⟩, hvalue, rfl⟩
      cases hkey
      exact ⟨hwhole, rfl, hvalue⟩
    · rintro ⟨hwhole, hkey, hvalue⟩
      exact ⟨_, e.2, ⟨f.1, ⟨rfl, hwhole⟩, rfl⟩, hvalue, by rw [hkey]⟩
  cases v with
  | record fields =>
    have hfields : dictionary read (.record fields) = .ok es ↔
        List.Forall₂ (fun f e => Text.hasHalves f.1 = false ∧ f.1 = e.1 ∧ read f.2 = .ok e.2)
          fields es := by
      unfold dictionary record
      rw [every_eq_ok_iff, List.forall₂_map_left_iff]
      simp only [hpart]
    simp [hfields]
  | _ => simp [dictionary, record, wrong]

end Checked

theorem Text.replaceHalves_eq {s : String} (h : Text.hasHalves s = false) :
    Text.replaceHalves s = s := by
  have hchars : ∀ cs : List Char, cs.any Text.isHalf = false →
      (cs.flatMap fun c => if Text.isHalf c then List.replicate 3 '\ufffd' else [c]) = cs := by
    intro cs hcs
    induction cs with
    | nil => rfl
    | cons c rest ih =>
      obtain ⟨hfirst, hrest⟩ := Bool.or_eq_false_iff.mp (List.any_cons.symm.trans hcs)
      rw [List.flatMap_cons, hfirst, ih hrest]
      rfl
  unfold Text.replaceHalves
  rw [hchars s.toList h, String.ofList_toList]

namespace Workflow

open Checked Number Text

/-! Values as records hold them. -/

theorem storable_list (items : List Value) :
    storable (.list items) = .list (items.map storable) := by
  have hitems : storableItems items = items.map storable := by
    induction items with
    | nil => rfl
    | cons v rest ih => rw [storableItems, ih, List.map_cons]
  rw [storable, hitems]

theorem storable_record (fields : Fields) : storable (.record fields) =
    .record (fields.map fun f => (replaceHalves f.1, storable f.2)) := by
  have hfields : storableFields fields =
      fields.map fun f => (replaceHalves f.1, storable f.2) := by
    induction fields with
    | nil => rfl
    | cons f rest ih => rw [storableFields, ih, List.map_cons]
  rw [storable, hfields]

/-- A record is kept as it is where each of its keys and values is. -/
theorem storable_record_eq_self_iff {fields : Fields} :
    storable (.record fields) = .record fields ↔
      ∀ f ∈ fields, replaceHalves f.1 = f.1 ∧ storable f.2 = f.2 := by
  have hsame : fields.map (fun f => (replaceHalves f.1, storable f.2)) = fields.map id ↔
      ∀ f ∈ fields, (replaceHalves f.1, storable f.2) = f := List.map_inj_left
  rw [List.map_id] at hsame
  rw [storable_record, Value.record.injEq, hsame]
  simp only [Prod.ext_iff]

/-- Values without halves in their texts and without doubles that are infinite or no number are kept
as they are. -/
theorem storable_eq_self {v : Value} (hlegible : v.Legible) (hwhole : v.Whole) : storable v = v := by
  induction v using Value.nested_induction with
  | null | bool | int | text => rfl
  | float x =>
    obtain ⟨hnumber, hfinite⟩ := hlegible
    rw [storable, hnumber, hfinite]
    rfl
  | list items ih =>
    rw [storable_list, Value.list.injEq]
    have hsame : ∀ v ∈ items, storable v = id v := fun v hv =>
      ih v hv (Value.legible_list.mp hlegible v hv) (Value.whole_list.mp hwhole v hv)
    rw [List.map_congr_left hsame, List.map_id]
  | record fields ih =>
    refine storable_record_eq_self_iff.mpr fun f hf => ?_
    obtain ⟨hkey, hvalue⟩ := Value.whole_record.mp hwhole f hf
    exact ⟨replaceHalves_eq hkey, ih f hf (Value.legible_record.mp hlegible f hf) hvalue⟩

theorem levels_storable (v : Value) : (storable v).levels = v.levels := by
  induction v using Value.nested_induction with
  | null | bool | int | text => rfl
  | float x =>
    unfold storable
    split <;> rfl
  | list items ih =>
    rw [storable_list, Value.levels, Value.levels, Nat.add_right_cancel_iff]
    refine le_antisymm (Value.itemLevels_le.mpr ?_) (Value.itemLevels_le.mpr fun v hv => ?_)
    · rintro _ hmem
      obtain ⟨v, hv, rfl⟩ := List.mem_map.mp hmem
      rw [ih v hv]
      exact Value.itemLevels_le.mp le_rfl v hv
    · rw [← ih v hv]
      exact Value.itemLevels_le.mp le_rfl _ (List.mem_map_of_mem hv)
  | record fields ih =>
    rw [storable_record, Value.levels, Value.levels, Nat.add_right_cancel_iff]
    refine le_antisymm (Value.fieldLevels_le.mpr ?_) (Value.fieldLevels_le.mpr fun f hf => ?_)
    · rintro _ hmem
      obtain ⟨f, hf, rfl⟩ := List.mem_map.mp hmem
      rw [ih f hf]
      exact Value.fieldLevels_le.mp le_rfl f hf
    · rw [← ih f hf]
      exact Value.fieldLevels_le.mp le_rfl _
        (List.mem_map_of_mem (f := fun f => (replaceHalves f.1, storable f.2)) hf)

theorem legible_storable {v : Value} (h : v.Sound) : (storable v).Legible := by
  induction v using Value.nested_induction with
  | null | bool | text => trivial
  | int n => exact h
  | float x =>
    unfold storable
    split
    · trivial
    · rename_i hfinite
      exact Bool.or_eq_false_iff.mp (Bool.eq_false_iff.mpr hfinite)
  | list items ih =>
    rw [storable_list, Value.legible_list]
    intro _ hmem
    obtain ⟨v, hv, rfl⟩ := List.mem_map.mp hmem
    exact ih v hv (Value.sound_list.mp h v hv)
  | record fields ih =>
    rw [storable_record, Value.legible_record]
    intro _ hmem
    obtain ⟨f, hf, rfl⟩ := List.mem_map.mp hmem
    exact ih f hf ((Value.sound_record.mp h).2 f hf)

/-! The parts of a record. -/

theorem Visit.read_eq_ok_iff {fields : Fields} {v : Visit} :
    Visit.read (.record fields) = .ok v ↔ field "state_id" Checked.text fields = .ok v.state ∧
      field "entered_at" readTime fields = .ok v.entered ∧
      fieldOr "exited_at" none (optional readTime) fields = .ok v.exited := by
  unfold Visit.read Checked.record
  dsimp only
  simp only [also_eq_ok_iff, map_eq_ok_iff]
  constructor
  · rintro ⟨_, exited, ⟨_, entered, ⟨state, hstate, rfl⟩, hentered, rfl⟩, hexited, rfl⟩
    exact ⟨hstate, hentered, hexited⟩
  · rintro ⟨hstate, hentered, hexited⟩
    exact ⟨_, _, ⟨_, _, ⟨_, hstate, rfl⟩, hentered, rfl⟩, hexited, rfl⟩

theorem Failure.read_eq_ok_iff {fields : Fields} {f : Failure} :
    Failure.read (.record fields) = .ok f ↔ field "kind" Checked.text fields = .ok f.kind ∧
      fieldOr "state_id" none (optional Checked.text) fields = .ok f.state ∧
      fieldOr "message" "" Checked.text fields = .ok f.message := by
  unfold Failure.read Checked.record
  dsimp only
  simp only [also_eq_ok_iff, map_eq_ok_iff]
  constructor
  · rintro ⟨_, message, ⟨_, state, ⟨kind, hkind, rfl⟩, hstate, rfl⟩, hmessage, rfl⟩
    exact ⟨hkind, hstate, hmessage⟩
  · rintro ⟨hkind, hstate, hmessage⟩
    exact ⟨_, _, ⟨_, _, ⟨_, hkind, rfl⟩, hstate, rfl⟩, hmessage, rfl⟩

/-- A record is read as a run exactly where each of its fields is read as that part of the run. -/
theorem Run.read_eq_ok_iff {fields : Fields} {r : Run} : Run.read (.record fields) = .ok r ↔
    field "run_id" Checked.text fields = .ok r.id ∧
    field "workflow_name" Checked.text fields = .ok r.workflow ∧
    fieldOr "status" .running readStatus fields = .ok r.status ∧
    fieldOr "current_states" [] (list Checked.text) fields = .ok r.current ∧
    fieldOr "pending_joins" [] (dictionary (list Checked.text)) fields = .ok r.pending ∧
    fieldOr "history" [] (list Visit.read) fields = .ok r.history ∧
    fieldOr "variables" [] (dictionary .ok) fields = .ok r.bindings ∧
    fieldOr "failure" none (optional Failure.read) fields = .ok r.failure ∧
    field "created_at" readTime fields = .ok r.created ∧
    field "updated_at" readTime fields = .ok r.updated := by
  unfold Run.read Checked.record
  dsimp only
  simp only [also_eq_ok_iff, map_eq_ok_iff]
  constructor
  · rintro ⟨_, _, ⟨_, _, ⟨_, _, ⟨_, _, ⟨_, _, ⟨_, _, ⟨_, _, ⟨_, _, ⟨_, _, ⟨_, hid, rfl⟩, hworkflow,
      rfl⟩, hstatus, rfl⟩, hcurrent, rfl⟩, hpending, rfl⟩, hhistory, rfl⟩, hbindings, rfl⟩,
      hfailure, rfl⟩, hcreated, rfl⟩, hupdated, rfl⟩
    exact ⟨hid, hworkflow, hstatus, hcurrent, hpending, hhistory, hbindings, hfailure, hcreated,
      hupdated⟩
  · rintro ⟨hid, hworkflow, hstatus, hcurrent, hpending, hhistory, hbindings, hfailure, hcreated,
      hupdated⟩
    exact ⟨_, _, ⟨_, _, ⟨_, _, ⟨_, _, ⟨_, _, ⟨_, _, ⟨_, _, ⟨_, _, ⟨_, _, ⟨_, hid, rfl⟩, hworkflow,
      rfl⟩, hstatus, rfl⟩, hcurrent, rfl⟩, hpending, rfl⟩, hhistory, rfl⟩, hbindings, rfl⟩,
      hfailure, rfl⟩, hcreated, rfl⟩, hupdated, rfl⟩

/-! Runs. -/

/-- A run that its record holds as it is: its times can be recorded, no key of its arrivals or its
variables is there twice, and its variables are values of JSON. -/
structure Run.Recordable (r : Run) : Prop where
  created : r.created.Recordable
  updated : r.updated.Recordable
  visits : ∀ v ∈ r.history, v.entered.Recordable ∧ ∀ t ∈ v.exited, t.Recordable
  pending : (Keyed.keys r.pending).Nodup
  bindings : (Value.record r.bindings).Sound
  durable : storable (.record r.bindings) = .record r.bindings

theorem sound_textList (ids : List String) : (textList ids).Sound :=
  Value.sound_list.mpr fun v hv => by
    obtain ⟨s, -, rfl⟩ := List.mem_map.mp hv
    trivial

theorem sound_textOrNull (s : Option String) : (textOrNull s).Sound := by
  cases s <;> trivial

namespace Visit

theorem sound_record (v : Visit) : v.record.Sound := by
  refine Value.sound_record.mpr
    ⟨show ["state_id", "entered_at", "exited_at"].Nodup by decide, ?_⟩
  simp only [List.forall_mem_cons, List.not_mem_nil, false_implies, implies_true, and_true]
  refine ⟨trivial, trivial, ?_⟩
  cases v.exited <;> trivial

end Visit

namespace Failure

theorem sound_record (f : Failure) : f.record.Sound := by
  refine Value.sound_record.mpr ⟨show ["kind", "state_id", "message"].Nodup by decide, ?_⟩
  simp only [List.forall_mem_cons, List.not_mem_nil, false_implies, implies_true, and_true]
  exact ⟨trivial, sound_textOrNull f.state, trivial⟩

end Failure

namespace Run

variable {r : Run}

/-- The record of a run that it holds as it is has no key twice, at any depth. -/
theorem Recordable.sound_record (h : r.Recordable) : r.record.Sound := by
  refine Value.sound_record.mpr ⟨show ["run_id", "workflow_name", "status", "current_states",
    "pending_joins", "history", "variables", "failure", "created_at", "updated_at"].Nodup by
      decide, ?_⟩
  simp only [List.forall_mem_cons, List.not_mem_nil, false_implies, implies_true, and_true]
  refine ⟨trivial, trivial, trivial, sound_textList r.current, ?_, ?_, ?_, ?_, trivial, trivial⟩
  · refine Value.sound_record.mpr ⟨?_, fun f hf => ?_⟩
    · have hkeys : Keyed.keys (r.pending.map fun p => (p.1, textList p.2)) =
          Keyed.keys r.pending := by
        unfold Keyed.keys
        rw [List.map_map]
        rfl
      rw [hkeys]
      exact h.pending
    · obtain ⟨p, -, rfl⟩ := List.mem_map.mp hf
      exact sound_textList p.2
  · refine Value.sound_list.mpr fun v hv => ?_
    obtain ⟨visit, -, rfl⟩ := List.mem_map.mp hv
    exact visit.sound_record
  · rw [h.durable]
    exact h.bindings
  · cases r.failure with
    | none => trivial
    | some f => exact f.sound_record

theorem readTime_timeValue {t : Timestamp} (h : t.Recordable) : readTime (timeValue t) = .ok t := by
  change ofOption (Timestamp.read? t.recordText) = .ok t
  rw [Timestamp.read?_recordText h]
  rfl

theorem readStatus_name (s : Status) : readStatus (.text s.name) = .ok s := by
  cases s <;> decide +kernel

theorem list_textList {ids : List String} (h : (textList ids).Whole) :
    Checked.list Checked.text (textList ids) = .ok ids := by
  refine list_eq_ok_iff.mpr ⟨_, rfl, List.forall₂_map_left_iff.mpr (List.forall₂_same.mpr ?_)⟩
  exact fun s hs => text_eq_ok_iff.mpr ⟨rfl, Value.whole_text.mp
    (Value.whole_list.mp h _ (List.mem_map_of_mem hs))⟩

theorem optional_textOrNull {s : Option String} (h : (textOrNull s).Whole) :
    optional Checked.text (textOrNull s) = .ok s := by
  cases s with
  | none => rfl
  | some s => exact map_eq_ok_iff.mpr ⟨s, text_eq_ok_iff.mpr ⟨rfl, Value.whole_text.mp h⟩, rfl⟩

theorem read_visit {v : Visit} (hentered : v.entered.Recordable)
    (hexited : ∀ t ∈ v.exited, t.Recordable) (hwhole : v.record.Whole) :
    Visit.read v.record = .ok v := by
  unfold Visit.record at hwhole
  simp only [Value.whole_record, List.forall_mem_cons, Value.whole_text] at hwhole
  obtain ⟨⟨-, hstate⟩, -⟩ := hwhole
  refine Visit.read_eq_ok_iff.mpr ⟨?_, ?_, ?_⟩
  · exact field_eq_ok_iff.mpr ⟨_, rfl, text_eq_ok_iff.mpr ⟨rfl, hstate⟩⟩
  · exact field_eq_ok_iff.mpr ⟨_, rfl, readTime_timeValue hentered⟩
  · refine fieldOr_eq_ok_iff.mpr (Or.inl ⟨_, rfl, ?_⟩)
    cases he : v.exited with
    | none => rfl
    | some t => exact map_eq_ok_iff.mpr ⟨t, readTime_timeValue (hexited t he), rfl⟩

theorem read_failure {f : Failure} (hwhole : f.record.Whole) : Failure.read f.record = .ok f := by
  unfold Failure.record at hwhole
  simp only [Value.whole_record, List.forall_mem_cons, Value.whole_text] at hwhole
  obtain ⟨⟨-, hkind⟩, ⟨-, hstate⟩, ⟨-, hmessage⟩, -⟩ := hwhole
  refine Failure.read_eq_ok_iff.mpr ⟨?_, ?_, ?_⟩
  · exact field_eq_ok_iff.mpr ⟨_, rfl, text_eq_ok_iff.mpr ⟨rfl, hkind⟩⟩
  · exact fieldOr_eq_ok_iff.mpr
      (Or.inl ⟨_, rfl, optional_textOrNull hstate⟩)
  · exact fieldOr_eq_ok_iff.mpr
      (Or.inl ⟨_, rfl, text_eq_ok_iff.mpr ⟨rfl, hmessage⟩⟩)

/-- A run is read back from its record, if no text in it has halves. -/
theorem Recordable.read_record (h : r.Recordable) (hwhole : r.record.Whole) :
    Run.read r.record = .ok r := by
  unfold record at hwhole
  rw [h.durable] at hwhole
  simp only [Value.whole_record, List.forall_mem_cons, Value.whole_text] at hwhole
  obtain ⟨⟨-, hid⟩, ⟨-, hworkflow⟩, -, ⟨-, hcurrent⟩, ⟨-, hpending⟩, ⟨-, hhistory⟩,
    ⟨-, hbindings⟩, ⟨-, hfailure⟩, -⟩ := hwhole
  refine Run.read_eq_ok_iff.mpr ⟨?_, ?_, ?_, ?_, ?_, ?_, ?_, ?_, ?_, ?_⟩
  · exact field_eq_ok_iff.mpr ⟨_, rfl, text_eq_ok_iff.mpr ⟨rfl, hid⟩⟩
  · exact field_eq_ok_iff.mpr ⟨_, rfl, text_eq_ok_iff.mpr ⟨rfl, hworkflow⟩⟩
  · exact fieldOr_eq_ok_iff.mpr (Or.inl ⟨_, rfl, readStatus_name r.status⟩)
  · exact fieldOr_eq_ok_iff.mpr (Or.inl ⟨_, rfl, list_textList hcurrent⟩)
  · refine fieldOr_eq_ok_iff.mpr (Or.inl ⟨_, rfl, ?_⟩)
    refine dictionary_eq_ok_iff.mpr ⟨_, rfl, List.forall₂_map_left_iff.mpr
      (List.forall₂_same.mpr fun p hp => ?_)⟩
    obtain ⟨hkey, harrived⟩ := hpending _ (List.mem_map_of_mem hp)
    exact ⟨hkey, rfl, list_textList harrived⟩
  · refine fieldOr_eq_ok_iff.mpr (Or.inl ⟨_, rfl, ?_⟩)
    refine list_eq_ok_iff.mpr ⟨_, rfl, List.forall₂_map_left_iff.mpr
      (List.forall₂_same.mpr fun v hv => ?_)⟩
    obtain ⟨hentered, hexited⟩ := h.visits v hv
    exact read_visit hentered hexited (Value.whole_list.mp hhistory _ (List.mem_map_of_mem hv))
  · refine fieldOr_eq_ok_iff.mpr (Or.inl ⟨_, rfl, ?_⟩)
    rw [h.durable]
    exact dictionary_eq_ok_iff.mpr ⟨_, rfl, List.forall₂_same.mpr fun f hf =>
      ⟨(hbindings f hf).1, rfl, rfl⟩⟩
  · refine fieldOr_eq_ok_iff.mpr (Or.inl ⟨_, rfl, ?_⟩)
    cases hf : r.failure with
    | none => rfl
    | some f =>
      rw [hf] at hfailure
      exact map_eq_ok_iff.mpr ⟨f, read_failure hfailure, rfl⟩
  · exact field_eq_ok_iff.mpr ⟨_, rfl, readTime_timeValue h.created⟩
  · exact field_eq_ok_iff.mpr ⟨_, rfl, readTime_timeValue h.updated⟩

/-- Whatever is read from the record of a run has the identifier of the run. -/
theorem id_of_read {q : Run} (h : Run.read r.record.collapse = .ok q) : q.id = r.id := by
  have hkeys : ["run_id", "workflow_name", "status", "current_states", "pending_joins", "history",
    "variables", "failure", "created_at", "updated_at"].Nodup := by decide
  unfold record at h
  rw [Value.collapse_record, Keyed.ofList_of_nodup (by exact hkeys)] at h
  obtain ⟨v, hv, hread⟩ := field_eq_ok_iff.mp (Run.read_eq_ok_iff.mp h).1
  obtain ⟨rfl, -⟩ := text_eq_ok_iff.mp hread
  have hfirst : some (Value.text r.id) = some (.text q.id) := hv
  exact (Value.text.inj (Option.some.inj hfirst)).symm

theorem legible_textList (ids : List String) : (textList ids).Legible :=
  Value.legible_list.mpr fun v hv => by
    obtain ⟨s, -, rfl⟩ := List.mem_map.mp hv
    trivial

/-- The numbers in a record are those in the variables. -/
theorem legible_record (h : (Value.record r.bindings).Sound) : r.record.Legible := by
  refine Value.legible_record.mpr ?_
  simp only [List.forall_mem_cons, List.not_mem_nil, false_implies, implies_true, and_true]
  refine ⟨trivial, trivial, trivial, legible_textList r.current, ?_, ?_, legible_storable h, ?_,
    trivial, trivial⟩
  · refine Value.legible_record.mpr fun f hf => ?_
    obtain ⟨p, -, rfl⟩ := List.mem_map.mp hf
    exact legible_textList p.2
  · refine Value.legible_list.mpr fun v hv => ?_
    obtain ⟨visit, -, rfl⟩ := List.mem_map.mp hv
    refine Value.legible_record.mpr ?_
    simp only [List.forall_mem_cons, List.not_mem_nil, false_implies, implies_true, and_true]
    refine ⟨trivial, trivial, ?_⟩
    cases visit.exited <;> trivial
  · cases r.failure with
    | none => trivial
    | some f =>
      refine Value.legible_record.mpr ?_
      simp only [List.forall_mem_cons, List.not_mem_nil, false_implies, implies_true, and_true]
      refine ⟨trivial, ?_, trivial⟩
      cases f.state <;> trivial

theorem levels_textList (ids : List String) : (textList ids).levels ≤ 2 := by
  refine Nat.succ_le_succ (Value.itemLevels_le.mpr fun v hv => ?_)
  obtain ⟨s, -, rfl⟩ := List.mem_map.mp hv
  exact le_rfl

/-- A record is two levels deeper than the variables of its run, or at most four levels deep. -/
theorem levels_record (r : Run) :
    r.record.levels ≤ max 4 (Value.fieldLevels r.bindings + 2) := by
  have hfields : ∀ {fields : Fields} {n : Nat}, (∀ f ∈ fields, f.2.levels ≤ n) →
      (Value.record fields).levels ≤ n + 1 :=
    fun h => Nat.succ_le_succ (Value.fieldLevels_le.mpr h)
  have htext : ∀ s, (Value.text s).levels ≤ 1 := fun _ => le_rfl
  have hnull : Value.null.levels ≤ 1 := le_rfl
  have hvariables : (storable (.record r.bindings)).levels = Value.fieldLevels r.bindings + 1 :=
    levels_storable _
  have hcurrent := levels_textList r.current
  have hpending : (Value.record (r.pending.map fun p => (p.1, textList p.2))).levels ≤ 3 := by
    refine hfields fun f hf => ?_
    obtain ⟨p, -, rfl⟩ := List.mem_map.mp hf
    exact levels_textList p.2
  have hhistory : (Value.list (r.history.map Visit.record)).levels ≤ 3 := by
    refine Nat.succ_le_succ (Value.itemLevels_le.mpr fun v hv => ?_)
    obtain ⟨visit, -, rfl⟩ := List.mem_map.mp hv
    refine hfields ?_
    simp only [List.forall_mem_cons, List.not_mem_nil, false_implies, implies_true, and_true]
    refine ⟨htext _, htext _, ?_⟩
    cases visit.exited
    · exact hnull
    · exact htext _
  have hfailure : ((r.failure.map Failure.record).getD .null).levels ≤ 2 := by
    cases r.failure with
    | none => exact Nat.le_succ 1
    | some f =>
      refine hfields ?_
      simp only [List.forall_mem_cons, List.not_mem_nil, false_implies, implies_true, and_true]
      refine ⟨htext _, ?_, htext _⟩
      cases f.state
      · exact hnull
      · exact htext _
  have hmax : max 4 (Value.fieldLevels r.bindings + 2) =
      max 3 (Value.fieldLevels r.bindings + 1) + 1 := by omega
  rw [hmax]
  refine hfields ?_
  simp only [List.forall_mem_cons, List.not_mem_nil, false_implies, implies_true, and_true,
    hvariables]
  have hone : ∀ s, (Value.text s).levels ≤ max 3 (Value.fieldLevels r.bindings + 1) :=
    fun s => (htext s).trans (by omega)
  exact ⟨hone _, hone _, hone _, by omega, by omega, by omega, by omega, by omega, hone _, hone _⟩

/-- Whatever is read as a time can be recorded. -/
theorem recordable_of_readTime {v : Value} {t : Timestamp} (h : readTime v = .ok t) :
    t.Recordable := by
  have hsome : ∀ {found : Option Timestamp}, ofOption found = .ok t → found = some t := by
    intro found hfound
    cases found with
    | none => cases hfound
    | some t' =>
      cases hfound
      rfl
  unfold readTime at h
  split at h
  · exact Timestamp.recordable_of_read? (hsome h)
  · exact Timestamp.recordable_of_ofUnix? (hsome h)
  · exact Timestamp.recordable_of_ofDouble? (hsome h)
  · cases h

theorem sound_of_get? {key : String} {fields : Fields} {v : Value}
    (hsound : (Value.record fields).Sound) (h : Keyed.get? key fields = some v) : v.Sound :=
  (Value.sound_record.mp hsound).2 _ (Keyed.mem_of_get? h)

theorem recordable_of_readVisit {v : Value} {visit : Visit} (h : Visit.read v = .ok visit) :
    visit.entered.Recordable ∧ ∀ t ∈ visit.exited, t.Recordable := by
  cases v with
  | record fields =>
    obtain ⟨-, hentered, hexited⟩ := Visit.read_eq_ok_iff.mp h
    obtain ⟨entered, -, hentered⟩ := field_eq_ok_iff.mp hentered
    refine ⟨recordable_of_readTime hentered, fun t ht => ?_⟩
    rcases fieldOr_eq_ok_iff.mp hexited with ⟨exited, -, hexited⟩ | ⟨-, hnone⟩
    · rw [ht] at hexited
      exact recordable_of_readTime (of_optional_eq_ok hexited)
    · rw [ht] at hnone
      cases hnone
  | _ => cases h

/-- The variables of a run that is read are those in its record. -/
theorem sound_bindings_of_read {v : Value} (hsound : v.Sound) (h : Run.read v = .ok r) :
    (Value.record r.bindings).Sound := by
  cases v with
  | record fields =>
    obtain ⟨-, -, -, -, -, -, hbindings, -⟩ := Run.read_eq_ok_iff.mp h
    rcases fieldOr_eq_ok_iff.mp hbindings with ⟨bound, hget, hbound⟩ | ⟨-, hnone⟩
    · obtain ⟨entries, rfl, hentries⟩ := dictionary_eq_ok_iff.mp hbound
      have hsame : List.Forall₂ (· = ·) entries r.bindings :=
        hentries.imp fun _ _ hentry => Prod.ext hentry.2.1 (Except.ok.inj hentry.2.2)
      rw [List.forall₂_eq_eq_eq] at hsame
      rw [← hsame]
      exact sound_of_get? hsound hget
    · rw [← hnone]
      exact Value.sound_record.mpr ⟨List.nodup_nil, nofun⟩
  | _ => cases h

/-- A run that is read can be recorded, if records hold its variables as they are. -/
theorem recordable_of_read {v : Value} (hsound : v.Sound) (h : Run.read v = .ok r)
    (hdurable : storable (.record r.bindings) = .record r.bindings) : r.Recordable := by
  cases v with
  | record fields =>
    obtain ⟨-, -, -, -, hpending, hhistory, -, -, hcreated, hupdated⟩ := Run.read_eq_ok_iff.mp h
    obtain ⟨created, -, hcreated⟩ := field_eq_ok_iff.mp hcreated
    obtain ⟨updated, -, hupdated⟩ := field_eq_ok_iff.mp hupdated
    refine ⟨recordable_of_readTime hcreated, recordable_of_readTime hupdated, ?_, ?_,
      sound_bindings_of_read hsound h, hdurable⟩
    · intro visit hvisit
      rcases fieldOr_eq_ok_iff.mp hhistory with ⟨history, -, hhistory⟩ | ⟨-, hnone⟩
      · obtain ⟨items, -, hitems⟩ := list_eq_ok_iff.mp hhistory
        obtain ⟨item, -, hitem⟩ := exists_of_mem_of_forall₂ hitems hvisit
        exact recordable_of_readVisit hitem
      · rw [← hnone] at hvisit
        cases hvisit
    · rcases fieldOr_eq_ok_iff.mp hpending with ⟨pending, hget, hpending⟩ | ⟨-, hnone⟩
      · obtain ⟨entries, rfl, hentries⟩ := dictionary_eq_ok_iff.mp hpending
        have hkeys : List.Forall₂ (· = ·) (Keyed.keys entries) (Keyed.keys r.pending) :=
          List.forall₂_map_left_iff.mpr (List.forall₂_map_right_iff.mpr
            (hentries.imp fun _ _ hentry => hentry.2.1))
        rw [List.forall₂_eq_eq_eq] at hkeys
        rw [← hkeys]
        exact (Value.sound_record.mp (sound_of_get? hsound hget)).1
      · rw [← hnone]
        exact List.nodup_nil
  | _ => cases h

end Run

end Workflow

end Runbook
