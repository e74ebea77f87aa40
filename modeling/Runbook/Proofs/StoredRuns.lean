import Runbook.Proofs.FileTree
import Runbook.Proofs.JsonValue
import Runbook.Proofs.RunRecords
import Runbook.Workflow.Store

/-!
Runs in stores. A run that was put into a store is found there again as it was: at once in memory,
and in a file if its record holds it as it is. Whether a run can be put depends on the run, on the
runs that are there besides, and on the way to the file, and on nothing else.
-/
namespace Runbook

/-- Text without carriage returns is read as it was written. -/
theorem Text.unifyBreaks_of_not_mem {cs : List Char} (h : '\r' ∉ cs) : unifyBreaks cs = cs := by
  induction cs with
  | nil => rfl
  | cons c rest ih =>
    obtain ⟨hfirst, hrest⟩ := not_or.mp (mt List.mem_cons.mpr h)
    unfold unifyBreaks
    split
    · rename_i heq
      cases heq
    · rename_i heq
      exact absurd (List.cons.inj heq).1.symm hfirst
    · rename_i heq
      obtain ⟨rfl, rfl⟩ := List.cons.inj heq
      rw [if_neg fun hsame => hfirst hsame.symm, ih hrest]

theorem Files.text?_toUTF8 {s : String} (h : '\r' ∉ s.toList) : text? s.toUTF8 = some s := by
  have hread : String.fromUTF8? s.toUTF8 = some s := dif_pos s.isValidUTF8
  unfold text?
  rw [hread, Option.map_some, Text.unifyBreaks_of_not_mem h, String.ofList_toList]

namespace Workflow.Store

open Log

variable {files : Files} {path : Path} {runs kept : List Run}

/-! Reading. -/

theorem readRecords_eq (path : Path) (items : List Value) (records : List Record) :
    ∃ records', (readRecords path items).run.run records =
      (.ok (items.filterMap fun v => (Run.read v).toOption), records') := by
  induction items generalizing records with
  | nil => exact ⟨records, rfl⟩
  | cons v rest ih =>
    unfold readRecords
    rw [List.filterMap_cons]
    cases Run.read v with
    | ok run =>
      obtain ⟨records', hrest⟩ := ih records
      exact ⟨records', run_bind_of_ok hrest _⟩
    | error e =>
      obtain ⟨records', hrest⟩ := ih (records ++ [_])
      exact ⟨records', (run_bind_of_ok rfl _).trans hrest⟩

/-- Every run in a file is read from a record. -/
theorem exists_of_mem_runs (h : (Store.runs files (.file path)).outcome.1 = .ok kept) {r : Run}
    (hr : r ∈ kept) : ∃ v : Value, v.Sound ∧ Run.read v = .ok r := by
  unfold Store.runs at h
  dsimp only at h
  split at h
  · cases h
  · cases h
  · cases h
    cases hr
  · split at h
    · cases h
    · unfold readRuns at h
      split at h
      · cases h
        cases hr
      · cases h
      · cases h
      · rename_i items hitems
        obtain ⟨records, hrecords⟩ := readRecords_eq path items []
        unfold Recorded.outcome at h
        rw [hrecords] at h
        cases h
        obtain ⟨v, hv, hread⟩ := List.mem_filterMap.mp hr
        refine ⟨v, Value.sound_list.mp (Json.sound_of_read hitems) v hv, ?_⟩
        cases hrun : Run.read v with
        | ok r' =>
          rw [hrun] at hread
          cases hread
          rfl
        | error e =>
          rw [hrun] at hread
          cases hread
      · cases h
        cases hr

/-- The variables of every run in a file are values of JSON. -/
theorem sound_bindings_of_mem_runs (h : (Store.runs files (.file path)).outcome.1 = .ok kept)
    {r : Run} (hr : r ∈ kept) : (Value.record r.bindings).Sound := by
  obtain ⟨v, hsound, hread⟩ := exists_of_mem_runs h hr
  exact Run.sound_bindings_of_read hsound hread

/-- The text of a file that holds some runs, if it can be written. -/
def textOf (runs : List Run) : String := Json.spread 0 (.list (runs.map Run.record)) ++ "\n"

/-- Runs in a file are read back, but for what their records do not hold as it is. -/
theorem runs_of_read (hfile : files.read path = .ok (textOf runs).toUTF8)
    (hbindings : ∀ r ∈ runs, (Value.record r.bindings).Sound)
    (hlevels : ∀ r ∈ runs, levels r < recordLimit) :
    (Store.runs files (.file path)).outcome.1 =
      .ok (runs.filterMap fun r => (Run.read r.record.collapse).toOption) := by
  have hbreak : '\r' ∉ (textOf runs).toList := by
    unfold textOf
    rw [String.toList_append, List.mem_append]
    rintro (h | h)
    · exact Json.return_not_mem_spread _ _ h
    · exact absurd h (by decide)
  have hlegible : (Value.list (runs.map Run.record)).Legible := by
    refine Value.legible_list.mpr fun v hv => ?_
    obtain ⟨r, hr, rfl⟩ := List.mem_map.mp hv
    exact Run.legible_record (hbindings r hr)
  have hdepth : (Value.list (runs.map Run.record)).levels ≤ Json.depthLimit := by
    have hitems : Value.itemLevels (runs.map Run.record) ≤ 256 := by
      refine Value.itemLevels_le.mpr fun v hv => ?_
      obtain ⟨r, hr, rfl⟩ := List.mem_map.mp hv
      have hrecord := Run.levels_record r
      have hlimit : Value.fieldLevels r.bindings < 255 := hlevels r hr
      omega
    exact (Nat.succ_le_succ hitems).trans (by decide)
  have hread : Json.read (textOf runs) =
      .ok (.list (runs.map fun r => r.record.collapse)) := by
    unfold textOf
    rw [Json.read_spread hlegible hdepth, Value.collapse_list, List.map_map]
    rfl
  obtain ⟨records, hrecords⟩ := readRecords_eq path (runs.map fun r => r.record.collapse) []
  unfold Store.runs
  dsimp only
  rw [hfile]
  dsimp only
  rw [Files.text?_toUTF8 hbreak]
  dsimp only
  unfold readRuns
  rw [hread]
  unfold Recorded.outcome
  dsimp only
  rw [hrecords, List.filterMap_map]
  rfl

/-! Writing. -/

theorem mapM_record_eq_ok_iff {items : List Value} : runs.mapM record = .ok items ↔
    (∀ r ∈ runs, levels r < recordLimit) ∧ items = runs.map Run.record := by
  induction runs generalizing items with
  | nil => simp [pure, Except.pure, eq_comm]
  | cons r rest ih =>
    rw [List.mapM_cons, List.forall_mem_cons]
    constructor
    · intro h
      obtain ⟨v, hv, h⟩ := bind_eq_ok_iff.mp h
      obtain ⟨vs, hvs, h⟩ := bind_eq_ok_iff.mp h
      obtain ⟨hrest, rfl⟩ := ih.mp hvs
      unfold record at hv
      split at hv
      · rename_i hlevels
        cases hv
        cases h
        exact ⟨⟨hlevels, hrest⟩, rfl⟩
      · cases hv
    · rintro ⟨⟨hfirst, hrest⟩, rfl⟩
      refine bind_eq_ok_iff.mpr ⟨r.record, if_pos hfirst, ?_⟩
      exact bind_eq_ok_iff.mpr ⟨_, ih.mpr ⟨hrest, rfl⟩, rfl⟩

theorem fileText_eq_ok_iff {s : String} : fileText runs = .ok s ↔
    (∀ r ∈ runs, levels r < recordLimit) ∧ s = textOf runs := by
  unfold fileText
  rw [bind_eq_ok_iff]
  constructor
  · rintro ⟨items, hitems, h⟩
    obtain ⟨hlevels, rfl⟩ := mapM_record_eq_ok_iff.mp hitems
    cases h
    exact ⟨hlevels, rfl⟩
  · rintro ⟨hlevels, rfl⟩
    exact ⟨_, mapM_record_eq_ok_iff.mpr ⟨hlevels, rfl⟩, rfl⟩

theorem hasHalves_textOf : Text.hasHalves (textOf runs) = false ↔ ∀ r ∈ runs, r.record.Whole := by
  have hbreak : Text.hasHalves (textOf runs) =
      Text.hasHalves (Json.spread 0 (.list (runs.map Run.record))) := by
    have hend : "\n".toList.any Text.isHalf = false := by decide
    unfold textOf Text.hasHalves
    rw [String.toList_append, List.any_append, hend, Bool.or_false]
  rw [hbreak, Json.hasHalves_spread, Value.whole_list, List.forall_mem_map]

/-- Runs are saved if each can be written and the file can be put in its place. -/
theorem save_eq_iff {files' : Files} : save files path runs = (files', none) ↔
    (∀ r ∈ runs, levels r < recordLimit ∧ r.record.Whole) ∧
      files.steps (Files.replacing path (textOf runs).toUTF8) = (files', none) := by
  have hsave : ∀ {steps : List FileStep} {early : Option StoreFault},
      saving path runs = (steps, early) → (save files path runs = (files', none) ↔
        early = none ∧ files.steps steps = (files', none)) := by
    intro steps early hsaving
    unfold save
    rw [hsaving]
    dsimp only
    rcases files.steps steps with ⟨made, _ | f⟩
    · simp [and_comm]
    · simp
  cases htext : fileText runs with
  | error f =>
    have hsaving : saving path runs = ([.makeDirectories path.parent], some f) := by
      unfold saving
      rw [htext]
    rw [hsave hsaving]
    refine ⟨nofun, fun h => ?_⟩
    rw [fileText_eq_ok_iff.mpr ⟨fun r hr => (h.1 r hr).1, rfl⟩] at htext
    cases htext
  | ok s =>
    obtain ⟨hlevels, rfl⟩ := fileText_eq_ok_iff.mp htext
    by_cases hhalves : Text.hasHalves (textOf runs) = true
    · have hsaving : saving path runs = ([.makeDirectories path.parent,
          .write (path.extend ".tmp") .empty], some .halved) := by
        unfold saving
        rw [htext]
        exact if_pos hhalves
      rw [hsave hsaving]
      refine ⟨nofun, fun h => ?_⟩
      rw [hasHalves_textOf.mpr fun r hr => (h.1 r hr).2] at hhalves
      cases hhalves
    · have hsaving : saving path runs =
          (Files.replacing path (textOf runs).toUTF8, none) := by
        unfold saving
        rw [htext]
        exact if_neg hhalves
      have hwhole := hasHalves_textOf.mp (Bool.eq_false_iff.mpr hhalves)
      rw [hsave hsaving]
      exact ⟨fun h => ⟨fun r hr => ⟨hlevels r hr, hwhole r hr⟩, h.2⟩, fun h => ⟨rfl, h.2⟩⟩

/-! Putting. -/

/-- What a store asks of a run that is put into it. -/
def Writable : Store → Run → Prop
  | .memory _, r => levels r < copyLimit
  | .file _, r => levels r < recordLimit ∧ r.record.Whole

theorem put_memory_eq_none_iff {entries : List (String × Run)} {r : Run} :
    (put files r (.memory entries)).fault? = none ↔ levels r < copyLimit := by
  unfold put
  dsimp only
  split
  · rename_i h
    exact iff_of_true rfl h
  · rename_i h
    exact iff_of_false nofun h

theorem put_file_eq_none_iff {r : Run} : (put files r (.file path)).fault? = none ↔
    ∃ kept files', (Store.runs files (.file path)).outcome.1 = .ok kept ∧
      save files path (replaceFirst r kept) = (files', none) ∧
        (put files r (.file path)).files = files' := by
  unfold put
  dsimp only
  rcases (Store.runs files (.file path)).outcome with ⟨_ | kept, records⟩
  · simp
  · rcases hsave : save files path (replaceFirst r kept) with ⟨files', _ | f⟩ <;> simp [hsave]

theorem put_file_of_save {r : Run} {files' : Files}
    (hkept : (Store.runs files (.file path)).outcome.1 = .ok kept)
    (hsave : save files path (replaceFirst r kept) = (files', none)) :
    (put files r (.file path)).fault? = none := by
  unfold put
  dsimp only
  rcases hruns : (Store.runs files (.file path)).outcome with ⟨_ | found, records⟩
  · rw [hruns] at hkept
    cases hkept
  · rw [hruns] at hkept
    cases hkept
    dsimp only
    rw [hsave]

theorem mem_replaceFirst_self (r : Run) (kept : List Run) : r ∈ replaceFirst r kept := by
  induction kept with
  | nil => exact List.mem_singleton_self r
  | cons q rest ih =>
    unfold replaceFirst
    split
    · exact List.mem_cons_self ..
    · exact List.mem_cons_of_mem _ ih

theorem mem_replaceFirst {r q : Run} (h : q ∈ replaceFirst r kept) : q = r ∨ q ∈ kept := by
  induction kept with
  | nil => exact Or.inl (List.mem_singleton.mp h)
  | cons first rest ih =>
    unfold replaceFirst at h
    split at h
    · rcases List.mem_cons.mp h with rfl | h
      · exact Or.inl rfl
      · exact Or.inr (List.mem_cons_of_mem _ h)
    · rcases List.mem_cons.mp h with rfl | h
      · exact Or.inr (List.mem_cons_self ..)
      · exact (ih h).imp_right (List.mem_cons_of_mem _)

/-- A run is put beside runs that can be put, where nothing is in the way of the file. -/
theorem put_of_way {q : Run} (hkept : (Store.runs files (.file path)).outcome.1 = .ok kept)
    (hway : ∃ bytes made, files.steps (Files.replacing path bytes) = (made, none))
    (hothers : ∀ k ∈ kept, (Store.file path).Writable k) (hq : (Store.file path).Writable q) :
    (put files q (.file path)).fault? = none := by
  obtain ⟨bytes, made, hmade⟩ := hway
  obtain ⟨made', hsteps⟩ := Files.steps_replacing_of_other hmade
  refine put_file_of_save hkept (save_eq_iff.mpr ⟨fun k hk => ?_, hsteps⟩)
  rcases mem_replaceFirst hk with rfl | hk
  · exact hq
  · exact hothers k hk

/-- Two runs of one identifier stand beside the same others. -/
theorem mem_replaceFirst_of_id_eq {r r' q : Run} (hid : r'.id = r.id)
    (h : q ∈ replaceFirst r' kept) : q = r' ∨ q ∈ replaceFirst r kept := by
  induction kept with
  | nil => exact Or.inl (List.mem_singleton.mp h)
  | cons first rest ih =>
    unfold replaceFirst at h ⊢
    rw [hid] at h
    split at h
    · rename_i hfirst
      rw [if_pos hfirst]
      exact (List.mem_cons.mp h).imp_right (List.mem_cons_of_mem _)
    · rename_i hfirst
      rw [if_neg hfirst]
      rcases List.mem_cons.mp h with rfl | h
      · exact Or.inr (List.mem_cons_self ..)
      · exact (ih h).imp_right (List.mem_cons_of_mem _)

variable {s : Store} {r r' : Run}

theorem writable_of_put (h : (put files r s).fault? = none) : s.Writable r := by
  cases s with
  | memory entries => exact put_memory_eq_none_iff.mp h
  | file path =>
    obtain ⟨kept, files', -, hsave, -⟩ := put_file_eq_none_iff.mp h
    exact (save_eq_iff.mp hsave).1 r (mem_replaceFirst_self r kept)

/-- Where one run can be put, another of the same identifier can be put that the store takes. -/
theorem put_of_writable (h : (put files r s).fault? = none) (hid : r'.id = r.id)
    (hwritable : s.Writable r') : (put files r' s).fault? = none := by
  cases s with
  | memory entries => exact put_memory_eq_none_iff.mpr hwritable
  | file path =>
    obtain ⟨kept, files', hkept, hsave, -⟩ := put_file_eq_none_iff.mp h
    obtain ⟨hall, hsteps⟩ := save_eq_iff.mp hsave
    obtain ⟨files'', hsteps'⟩ := Files.steps_replacing_of_other hsteps
    have hsave' : save files path (replaceFirst r' kept) = (files'', none) := by
      refine save_eq_iff.mpr ⟨fun q hq => ?_, hsteps'⟩
      rcases mem_replaceFirst_of_id_eq hid hq with rfl | hq
      · exact hwritable
      · exact hall q hq
    exact put_file_of_save hkept hsave'

theorem store_put_file (files : Files) (path : Path) (q : Run) :
    (put files q (.file path)).store = .file path := by
  unfold put
  dsimp only
  rcases (Store.runs files (.file path)).outcome with ⟨_ | kept, records⟩ <;> rfl

/-- Putting a run does not turn a store into one of another kind. -/
theorem writable_put (files : Files) (q : Run) :
    (put files q s).store.Writable r ↔ s.Writable r := by
  cases s with
  | memory entries =>
    unfold put
    dsimp only
    split <;> rfl
  | file path =>
    rw [store_put_file]

/-! Reading what was put. -/

/-- What holds of a store as it is kept: a store in memory files its runs by their identifiers, and
the file of any other lies in a tree. -/
def WellKept (files : Files) : Store → Prop
  | .memory entries => ∀ e ∈ entries, e.1 = e.2.id
  | .file _ => files.Rooted

/-- A store gives this run back as it was put. -/
def Faithful (r : Run) : Store → Prop
  | .memory _ => True
  | .file _ => r.Recordable

theorem outcome_get (files : Files) (s : Store) (id : String) : (s.get files id).outcome.1 =
    (s.runs files).outcome.1.map fun kept => kept.find? fun r => r.id == id := by
  unfold Recorded.outcome Store.get
  rcases hruns : (s.runs files).run.run [] with ⟨_ | kept, records⟩
  · rw [run_bind_of_error hruns]
    rfl
  · rw [run_bind_of_ok hruns]
    rfl

theorem get_eq_iff {id : String} {found : Option Run} :
    (s.get files id).outcome.1 = .ok found ↔
      ∃ kept, (s.runs files).outcome.1 = .ok kept ∧ kept.find? (fun r => r.id == id) = found := by
  rw [outcome_get]
  cases (s.runs files).outcome.1 with
  | error f => exact ⟨nofun, nofun⟩
  | ok kept => simp [Except.map]

/-- Runs in order, or the fault of their having none. -/
def listing (kept : List Run) : Except StoreFault (List Run) :=
  match inOrder? kept with
  | some rs => .ok rs
  | none => .error .unordered

theorem listing_of_inOrder? {rs : List Run} (h : inOrder? kept = some rs) :
    listing kept = .ok rs := by
  unfold listing
  rw [h]

theorem outcome_list (files : Files) (s : Store) :
    (s.list files).outcome.1 = (s.runs files).outcome.1 >>= listing := by
  unfold Recorded.outcome Store.list
  rcases hruns : (s.runs files).run.run [] with ⟨_ | kept, records⟩
  · rw [run_bind_of_error hruns]
    rfl
  · rw [run_bind_of_ok hruns]
    change _ = listing kept
    unfold listing
    cases inOrder? kept <;> rfl

theorem find?_set {entries : List (String × Run)} (h : ∀ e ∈ entries, e.1 = e.2.id) (r : Run) :
    ((Keyed.set r.id r entries).map (·.2)).find? (fun q => q.id == r.id) = some r := by
  induction entries with
  | nil => simp [Keyed.set]
  | cons e rest ih =>
    obtain ⟨hfirst, hrest⟩ := List.forall_mem_cons.mp h
    by_cases hkey : e.1 = r.id
    · simp [Keyed.set, hkey]
    · have hid : (e.2.id == r.id) = false := by
        rw [← hfirst]
        exact beq_eq_false_iff_ne.mpr hkey
      rw [Keyed.set, if_neg hkey, List.map_cons, List.find?_cons, hid]
      exact ih hrest

/-- A run that its record holds as it is is found among what is read from the records. -/
theorem find?_replaceFirst (hrecordable : r.Recordable) (hwhole : r.record.Whole)
    (kept : List Run) :
    ((replaceFirst r kept).filterMap fun q => (Run.read q.record.collapse).toOption).find?
      (fun q => q.id == r.id) = some r := by
  have hread : (Run.read r.record.collapse).toOption = some r := by
    rw [Value.collapse_of_sound hrecordable.sound_record, hrecordable.read_record hwhole]
    rfl
  have hself : (r.id == r.id) = true := beq_self_eq_true r.id
  induction kept with
  | nil => rw [replaceFirst, List.filterMap_cons, hread, List.find?_cons, hself]
  | cons q rest ih =>
    unfold replaceFirst
    split
    · rw [List.filterMap_cons, hread, List.find?_cons, hself]
    · rename_i hother
      rw [List.filterMap_cons]
      cases hq : Run.read q.record.collapse with
      | error e => exact ih
      | ok q' =>
        have hid : (q'.id == r.id) = false := by
          rw [Run.id_of_read hq]
          exact beq_eq_false_iff_ne.mpr hother
        simp only [Except.toOption, List.find?_cons, hid]
        exact ih

/-- A run that is put into a file replaces the first one of its identifier or comes last, and every
run is read back from its record. -/
theorem runs_put_file_eq (hrooted : files.Rooted)
    (hkept : (Store.runs files (.file path)).outcome.1 = .ok kept)
    (hsound : (Value.record r.bindings).Sound) (h : (put files r (.file path)).fault? = none) :
    (Store.runs (put files r (.file path)).files (.file path)).outcome.1 =
      .ok ((replaceFirst r kept).filterMap fun q => (Run.read q.record.collapse).toOption) := by
  obtain ⟨kept', files', hruns, hsave, hfiles⟩ := put_file_eq_none_iff.mp h
  rw [hkept] at hruns
  cases hruns
  obtain ⟨hall, hsteps⟩ := save_eq_iff.mp hsave
  rw [hfiles]
  refine runs_of_read (hrooted.read_replacing hsteps).2 (fun q hq => ?_) fun q hq => (hall q hq).1
  rcases mem_replaceFirst hq with rfl | hq
  · exact hsound
  · exact sound_bindings_of_mem_runs hkept hq

/-- A run that was put is found again as it was, and the store is kept as well as before. -/
theorem get_put (hkept : s.WellKept files) (hfaithful : s.Faithful r)
    (h : (put files r s).fault? = none) :
    ((put files r s).store.get (put files r s).files r.id).outcome.1 = .ok (some r) ∧
      (put files r s).store.WellKept (put files r s).files := by
  cases s with
  | memory entries =>
    have hput : put files r (.memory entries) =
        ⟨files, .memory (Keyed.set r.id r entries), [], none⟩ :=
      if_pos (put_memory_eq_none_iff.mp h)
    rw [hput]
    refine ⟨get_eq_iff.mpr ⟨_, rfl, find?_set hkept r⟩, fun e he => ?_⟩
    rcases Keyed.eq_or_mem_of_mem_set he with rfl | he
    · rfl
    · exact hkept e he
  | file path =>
    obtain ⟨kept, files', hruns, hsave, hfiles⟩ := put_file_eq_none_iff.mp h
    obtain ⟨hall, hsteps⟩ := save_eq_iff.mp hsave
    have hfound := get_eq_iff.mpr ⟨_, runs_put_file_eq hkept hruns hfaithful.bindings h,
      find?_replaceFirst hfaithful (hall r (mem_replaceFirst_self r kept)).2 kept⟩
    rw [store_put_file]
    refine ⟨hfound, ?_⟩
    rw [hfiles]
    exact (Files.Rooted.read_replacing hkept hsteps).1

/-- Runs are read from the file that they were written to. -/
theorem runs_of_written (hread : files.read path = .ok (textOf runs).toUTF8)
    (hruns : ∀ r ∈ runs, r.Recordable ∧ (Store.file path).Writable r) :
    (Store.runs files (.file path)).outcome.1 = .ok runs := by
  have hback : ∀ r ∈ runs, (Run.read r.record.collapse).toOption = some r := by
    intro r hr
    obtain ⟨hrecordable, -, hwhole⟩ := hruns r hr
    rw [Value.collapse_of_sound hrecordable.sound_record, hrecordable.read_record hwhole]
    rfl
  rw [runs_of_read hread (fun r hr => (hruns r hr).1.bindings) fun r hr => (hruns r hr).2.1,
    List.filterMap_congr hback, List.filterMap_some]

/-- A store in a file keeps the others beside a run that was put, if all of them can be recorded. -/
theorem runs_put_file (hrooted : files.Rooted)
    (hkept : (Store.runs files (.file path)).outcome.1 = .ok kept)
    (hothers : ∀ q ∈ kept, q.Recordable) (hr : r.Recordable)
    (h : (put files r (.file path)).fault? = none) :
    (Store.runs (put files r (.file path)).files (.file path)).outcome.1 =
      .ok (replaceFirst r kept) := by
  obtain ⟨kept', files', hruns, hsave, hfiles⟩ := put_file_eq_none_iff.mp h
  rw [hkept] at hruns
  cases hruns
  obtain ⟨hall, hsteps⟩ := save_eq_iff.mp hsave
  rw [hfiles]
  refine runs_of_written (hrooted.read_replacing hsteps).2 fun q hq => ⟨?_, hall q hq⟩
  rcases mem_replaceFirst hq with rfl | hq
  · exact hr
  · exact hothers q hq

/-- Where a run was put, its next state can be put, if the store takes it. -/
theorem put_put_file (hrooted : files.Rooted)
    (hkept : (Store.runs files (.file path)).outcome.1 = .ok kept)
    (hothers : ∀ q ∈ kept, q.Recordable) (hr : r.Recordable)
    (h : (put files r (.file path)).fault? = none)
    (hwritable : (Store.file path).Writable r') :
    (put (put files r (.file path)).files r' (.file path)).fault? = none := by
  have hruns := runs_put_file hrooted hkept hothers hr h
  obtain ⟨kept', files', hkept', hsave, hfiles⟩ := put_file_eq_none_iff.mp h
  rw [hkept] at hkept'
  cases hkept'
  obtain ⟨hall, hsteps⟩ := save_eq_iff.mp hsave
  obtain ⟨files'', hsteps'⟩ := Files.Rooted.steps_replacing_again hrooted hsteps
  rw [← hfiles] at hsteps'
  refine put_file_of_save hruns (save_eq_iff.mpr ⟨fun q hq => ?_, hsteps'⟩)
  rcases mem_replaceFirst hq with rfl | hq
  · exact hwritable
  · exact hall q hq

theorem id_of_get {id : String} (h : (s.get files id).outcome.1 = .ok (some r)) : r.id = id := by
  obtain ⟨kept, -, hfind⟩ := get_eq_iff.mp h
  have hid : (r.id == id) = true := List.find?_some (p := fun q : Run => q.id == id) hfind
  exact beq_iff_eq.mp hid

/-- A run in a file can be recorded, if records hold its variables as they are. -/
theorem recordable_of_get {id : String}
    (h : ((Store.file path).get files id).outcome.1 = .ok (some r))
    (hdurable : storable (.record r.bindings) = .record r.bindings) : r.Recordable := by
  obtain ⟨kept, hruns, hfind⟩ := get_eq_iff.mp h
  obtain ⟨v, hsound, hread⟩ := exists_of_mem_runs hruns (List.mem_of_find?_eq_some hfind)
  exact Run.recordable_of_read hsound hread hdurable

end Workflow.Store

end Runbook
