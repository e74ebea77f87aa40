import Runbook.Proofs.StoredRuns

/-!
Runs as they are read from their records. A record does not hold every run as it is: a double that
is infinite or no number becomes null in it, and halves of pairs in names are replaced. But what is
read from a record is a run that its own record holds as it is.
-/
namespace Runbook

namespace Value

theorem exists_of_mem_collapsed {fields : Fields} {e : String × Value}
    (h : e ∈ Keyed.ofList (fields.map fun f => (f.1, f.2.collapse))) :
    ∃ f ∈ fields, (f.1, f.2.collapse) = e :=
  List.mem_map.mp ((Keyed.ofList_spec _).2 e h)

/-- What is read again of a value that JSON can hold has no key twice. -/
theorem sound_collapse {v : Value} (h : v.Legible) : v.collapse.Sound := by
  induction v using nested_induction with
  | null | bool | float | text => trivial
  | int n => exact h
  | list items ih =>
    rw [collapse_list, sound_list, List.forall_mem_map]
    exact fun v hv => ih v hv (legible_list.mp h v hv)
  | record fields ih =>
    rw [collapse_record, sound_record]
    refine ⟨(Keyed.ofList_spec _).1, fun e he => ?_⟩
    obtain ⟨f, hf, rfl⟩ := exists_of_mem_collapsed he
    exact ih f hf (legible_record.mp h f hf)

theorem legible_collapse {v : Value} (h : v.Legible) : v.collapse.Legible := by
  induction v using nested_induction with
  | null | bool | text => trivial
  | int n => exact h
  | float x => exact h
  | list items ih =>
    rw [collapse_list, legible_list, List.forall_mem_map]
    exact fun v hv => ih v hv (legible_list.mp h v hv)
  | record fields ih =>
    rw [collapse_record, legible_record]
    intro e he
    obtain ⟨f, hf, rfl⟩ := exists_of_mem_collapsed he
    exact ih f hf (legible_record.mp h f hf)

theorem whole_collapse {v : Value} (h : v.Whole) : v.collapse.Whole := by
  induction v using nested_induction with
  | null | bool | int | float | text => exact h
  | list items ih =>
    rw [collapse_list, whole_list, List.forall_mem_map]
    exact fun v hv => ih v hv (whole_list.mp h v hv)
  | record fields ih =>
    rw [collapse_record, whole_record]
    intro e he
    obtain ⟨f, hf, rfl⟩ := exists_of_mem_collapsed he
    obtain ⟨hkey, hvalue⟩ := whole_record.mp h f hf
    exact ⟨hkey, ih f hf hvalue⟩

theorem levels_collapse_le (v : Value) : v.collapse.levels ≤ v.levels := by
  induction v using nested_induction with
  | null | bool | int | float | text => exact le_rfl
  | list items ih =>
    rw [collapse_list]
    refine Nat.succ_le_succ (itemLevels_le.mpr (List.forall_mem_map.mpr fun v hv => ?_))
    exact (ih v hv).trans (itemLevels_le.mp le_rfl v hv)
  | record fields ih =>
    rw [collapse_record]
    refine Nat.succ_le_succ (fieldLevels_le.mpr fun e he => ?_)
    obtain ⟨f, hf, rfl⟩ := exists_of_mem_collapsed he
    exact (ih f hf).trans (fieldLevels_le.mp le_rfl f hf)

end Value

namespace Workflow

namespace Run

variable {r : Run}

/-- A run whose record is read as a run: its times can be recorded, no key of its arrivals or its
variables is there twice, and its integers have not too many digits. -/
structure Readable (r : Run) : Prop where
  created : r.created.Recordable
  updated : r.updated.Recordable
  visits : ∀ v ∈ r.history, v.entered.Recordable ∧ ∀ t ∈ v.exited, t.Recordable
  pending : (Keyed.keys r.pending).Nodup
  bindings : (Value.record r.bindings).Sound

theorem Recordable.readable (h : r.Recordable) : r.Readable :=
  ⟨h.created, h.updated, h.visits, h.pending, h.bindings⟩

/-- What is read from the record of a run. -/
def reread (r : Run) : Run :=
  let held := r.bindings.map fun f => (Text.replaceHalves f.1, storable f.2)
  { r with bindings := Keyed.ofList (held.map fun f => (f.1, f.2.collapse)) }

theorem record_bindings_reread (r : Run) :
    Value.record r.reread.bindings = (storable (.record r.bindings)).collapse := by
  rw [storable_record, Value.collapse_record]
  rfl

/-- A run that its record holds as it is is read as it was. -/
theorem Recordable.reread_eq (h : r.Recordable) : r.reread = r := by
  have hbindings := record_bindings_reread r
  rw [h.durable, Value.collapse_of_sound h.bindings] at hbindings
  have hsame : r.reread = { r with bindings := r.reread.bindings } := rfl
  rw [hsame, Value.record.inj hbindings]

theorem whole_variables (h : r.record.Whole) : (storable (.record r.bindings)).Whole :=
  (Value.whole_record.mp h ("variables", storable (.record r.bindings)) (by simp)).2

/-- What is read from a record is held by its own record as it is. -/
theorem Readable.recordable_reread (h : r.Readable) (hwhole : r.record.Whole) :
    r.reread.Recordable := by
  have hlegible := legible_storable h.bindings
  refine ⟨h.created, h.updated, h.visits, h.pending, ?_, ?_⟩
  · rw [record_bindings_reread]
    exact Value.sound_collapse hlegible
  · rw [record_bindings_reread]
    exact storable_eq_self (Value.legible_collapse hlegible)
      (Value.whole_collapse (whole_variables hwhole))

theorem Readable.record_reread (h : r.Readable) (hwhole : r.record.Whole) :
    r.reread.record = r.record.collapse := by
  have hrecordable := h.recordable_reread hwhole
  have hvariables : (storable (.record r.reread.bindings)).collapse =
      (storable (.record r.bindings)).collapse := by
    rw [hrecordable.durable, Value.collapse_of_sound hrecordable.bindings, record_bindings_reread]
  rw [← Value.collapse_of_sound hrecordable.sound_record]
  unfold record
  rw [Value.collapse_record, Value.collapse_record]
  simp only [List.map_cons]
  rw [hvariables]
  rfl

theorem Readable.whole_reread (h : r.Readable) (hwhole : r.record.Whole) :
    r.reread.record.Whole := by
  rw [h.record_reread hwhole]
  exact Value.whole_collapse hwhole

/-- The record of a run is read, if no text in it has halves. -/
theorem Readable.read_collapse (h : r.Readable) (hwhole : r.record.Whole) :
    Run.read r.record.collapse = .ok r.reread := by
  rw [← h.record_reread hwhole]
  exact (h.recordable_reread hwhole).read_record (h.whole_reread hwhole)

end Run

namespace Store

variable {files : Files} {path : Path} {kept : List Run} {r : Run}

theorem levels_reread_le (r : Run) : levels r.reread ≤ levels r := by
  have hle := Value.levels_collapse_le (storable (.record r.bindings))
  rw [← Run.record_bindings_reread, levels_storable] at hle
  exact Nat.le_of_succ_le_succ hle

theorem writable_reread (h : r.Readable) (hwritable : (Store.file path).Writable r) :
    (Store.file path).Writable r.reread :=
  ⟨(levels_reread_le r).trans_lt hwritable.1, h.whole_reread hwritable.2⟩

theorem map_replaceFirst {f : Run → Run} (hid : ∀ q, (f q).id = q.id) (r : Run) (kept : List Run) :
    (replaceFirst r kept).map f = replaceFirst (f r) (kept.map f) := by
  induction kept with
  | nil => rfl
  | cons q rest ih =>
    rw [replaceFirst, List.map_cons, replaceFirst, hid, hid]
    split
    · rfl
    · rw [List.map_cons, ih]

/-- A run that is put beside others that their records hold as they are is kept as its record is
read. -/
theorem runs_put_file_reread (hrooted : files.Rooted)
    (hkept : (Store.runs files (.file path)).outcome.1 = .ok kept)
    (hothers : ∀ q ∈ kept, q.Recordable) (hr : r.Readable)
    (h : (put files r (.file path)).fault? = none) :
    (Store.runs (put files r (.file path)).files (.file path)).outcome.1 =
      .ok (replaceFirst r.reread kept) := by
  obtain ⟨kept', files', hkept', hsave, -⟩ := put_file_eq_none_iff.mp h
  cases hkept.symm.trans hkept'
  have hread : ∀ q ∈ replaceFirst r kept,
      (Run.read q.record.collapse).toOption = some q.reread := by
    intro q hq
    have hwhole := ((save_eq_iff.mp hsave).1 q hq).2
    rcases mem_replaceFirst hq with rfl | hq
    · rw [hr.read_collapse hwhole]
      rfl
    · rw [(hothers q hq).readable.read_collapse hwhole]
      rfl
  have hsame : kept.map Run.reread = kept := by
    rw [List.map_congr_left (g := id) fun q hq => (hothers q hq).reread_eq, List.map_id]
  rw [runs_put_file_eq hrooted hkept hr.bindings h, List.filterMap_congr hread,
    List.filterMap_eq_map', map_replaceFirst (f := Run.reread) fun _ => rfl, hsame]

end Store

end Workflow

end Runbook
