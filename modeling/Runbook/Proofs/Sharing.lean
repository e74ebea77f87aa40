import Mathlib.Logic.Function.Iterate
import Runbook.Proofs.Interruptions
import Runbook.Proofs.Rereading
import Runbook.Proofs.Salvage

/-!
Callers that share a store. Each of them has a run of its own, which it gets and puts in turn, and
their steps follow one another in any order. What becomes of a run is what its own caller makes of
it: the steps of the others could be left out. This holds of a store in memory, and of a file if the
runs in it are held by their records as they are and can be written again.
-/
namespace Runbook.Workflow.Store

open Toolkit (filed read_filed rooted_filed steps_filed relayed recordable_relayed whole_relayed)

/-- What a caller makes of what it has found. -/
abbrev Round := Option Run → Run

/-- A caller: what it has found in the round that it is in, unless it is between two rounds, and the
rounds that are not over yet. -/
structure Caller where
  found? : Option (Option Run)
  rounds : List Round

/-- A shelf that callers share, each of them with a run of its own. -/
structure Shared where
  shelf : Shelf
  callers : String → Caller

namespace Shared

/-- The step that a caller takes next: it gets its run, or it puts what it makes of what it has
found. With the put the round is over, also where it is refused, and so it is where nothing is
gotten. -/
def step (w : Shared) (id : String) : Shared :=
  match w.callers id with
  | ⟨_, []⟩ => w
  | ⟨none, make :: rest⟩ =>
    match w.shelf.call (.get id) with
    | (.found found, shelf) =>
      ⟨shelf, Function.update w.callers id ⟨some found, make :: rest⟩⟩
    | (_, shelf) => ⟨shelf, Function.update w.callers id ⟨none, rest⟩⟩
  | ⟨some found, make :: rest⟩ =>
    ⟨(w.shelf.call (.put (make found))).2, Function.update w.callers id ⟨none, rest⟩⟩

/-- What there is after the callers have taken steps in some order. -/
def after (w : Shared) (schedule : List String) : Shared := schedule.foldl step w

end Shared

/-! Shelves. -/

instance (s : Store) (r : Run) : Decidable (s.Writable r) :=
  match s with
  | .memory _ => inferInstanceAs (Decidable (levels r < copyLimit))
  | .file _ => inferInstanceAs
      (Decidable (levels r < recordLimit ∧ ∀ s ∈ r.record.texts, Text.hasHalves s = false))

/-- Nothing is in the way of a put. -/
def Shelf.Clear : Shelf → Prop
  | ⟨_, .memory _⟩ => True
  | ⟨files, .file path⟩ => (files.steps (Files.replacing path .empty)).2 = none

instance (s : Shelf) : Decidable s.Clear :=
  match s with
  | ⟨_, .memory _⟩ => inferInstanceAs (Decidable True)
  | ⟨_, .file _⟩ => inferInstanceAs (Decidable (_ = none))

/-- The runs that a shelf takes. -/
def Shelf.Takes (s : Shelf) (r : Run) : Prop := s.Clear ∧ s.store.Writable r

instance (s : Shelf) (r : Run) : Decidable (s.Takes r) := inferInstanceAs (Decidable (_ ∧ _))

/-- The runs that a store gives back in some form. -/
def Reads (r : Run) : Store → Prop
  | .memory _ => True
  | .file _ => r.Readable

/-- What a store gives back of a run. -/
def given (r : Run) : Store → Run
  | .memory _ => r
  | .file _ => r.reread

variable {s s' s'' : Shelf} {kept : List Run} {r : Run} {id : String}

theorem id_given (r : Run) (s : Store) : (s.given r).id = r.id := by
  cases s <;> rfl

/-- A shelf that has these runs and gives them back as they are. -/
def Shelf.Serves (kept : List Run) : Shelf → Prop
  | ⟨_, .memory entries⟩ => (∀ e ∈ entries, e.1 = e.2.id) ∧ entries.map (·.2) = kept
  | ⟨files, .file path⟩ => files.Rooted ∧ files.Steady path ∧
    (Store.runs files (.file path)).outcome.1 = .ok kept ∧
      ∀ q ∈ kept, q.Recordable ∧ (Store.file path).Writable q

/-- Shelves that take the same runs and give the same back of them. -/
structure Shelf.Agrees (s s' : Shelf) : Prop where
  takes : ∀ r, s'.Takes r ↔ s.Takes r
  reads : ∀ r, s'.store.Reads r ↔ s.store.Reads r
  given : ∀ r, s'.store.given r = s.store.given r

theorem Shelf.Agrees.refl (s : Shelf) : s.Agrees s :=
  ⟨fun _ => Iff.rfl, fun _ => Iff.rfl, fun _ => rfl⟩

theorem Shelf.Agrees.trans (h : s.Agrees s') (h' : s'.Agrees s'') : s.Agrees s'' :=
  ⟨fun r => (h'.takes r).trans (h.takes r), fun r => (h'.reads r).trans (h.reads r),
    fun r => (h'.given r).trans (h.given r)⟩

theorem clear_of_steps {files made : Files} {path : Path} {bytes : ByteArray}
    (h : files.steps (Files.replacing path bytes) = (made, none)) :
    Shelf.Clear ⟨files, .file path⟩ := by
  have hempty : ∃ made', files.steps (Files.replacing path .empty) = (made', none) :=
    Files.steps_replacing_of_other h
  obtain ⟨made', hmade⟩ := hempty
  exact congrArg Prod.snd hmade

theorem agrees_of_clear_iff {files files' : Files} {path : Path}
    (h : Shelf.Clear ⟨files', .file path⟩ ↔ Shelf.Clear ⟨files, .file path⟩) :
    Shelf.Agrees ⟨files, .file path⟩ ⟨files', .file path⟩ :=
  ⟨fun _ => and_congr_left' h, fun _ => Iff.rfl, fun _ => rfl⟩

/-- What a put comes to for a shelf that has these runs. -/
def Shelf.PutsInto (r : Run) (kept : List Run) (s : Shelf) : Prop :=
  (s.call (.put r)).2.Serves kept ∧ s.Agrees (s.call (.put r)).2

theorem call_put_memory (files : Files) (entries : List (String × Run)) (r : Run) :
    (Shelf.call ⟨files, .memory entries⟩ (.put r)).2 =
      ⟨files, .memory (if levels r < copyLimit then Keyed.set r.id r entries else entries)⟩ := by
  change Shelf.mk (Store.put files r (.memory entries)).files
    (Store.put files r (.memory entries)).store = _
  unfold Store.put
  dsimp only
  split <;> rfl

theorem putsInto_memory {files : Files} {entries : List (String × Run)}
    (h : Shelf.Serves kept ⟨files, .memory entries⟩) (hshallow : levels r < copyLimit) :
    Shelf.PutsInto r (replaceFirst r kept) ⟨files, .memory entries⟩ := by
  obtain ⟨hfiled, hkept⟩ := h
  unfold Shelf.PutsInto
  rw [call_put_memory, if_pos hshallow]
  refine ⟨⟨fun e he => ?_, ?_⟩, fun _ => Iff.rfl, fun _ => Iff.rfl, fun _ => rfl⟩
  · rcases Keyed.eq_or_mem_of_mem_set he with rfl | he
    · rfl
    · exact hfiled e he
  · rw [map_set hfiled, hkept]

theorem call_put_file (files : Files) (path : Path) (r : Run) :
    (Shelf.call ⟨files, .file path⟩ (.put r)).2 =
      ⟨(Store.put files r (.file path)).files, .file path⟩ := by
  change Shelf.mk (Store.put files r (.file path)).files (Store.put files r (.file path)).store = _
  rw [store_put_file]

/-- After a put that went well, a file serves what its record holds of the run, and what was there
besides. -/
theorem putsInto_of_put {files : Files} {path : Path} (h : Shelf.Serves kept ⟨files, .file path⟩)
    (hr : r.Readable) (hput : (Store.put files r (.file path)).fault? = none) :
    Shelf.PutsInto r (replaceFirst r.reread kept) ⟨files, .file path⟩ := by
  obtain ⟨hrooted, -, hkept, hall⟩ := h
  have hruns := runs_put_file_reread hrooted hkept (fun q hq => (hall q hq).1) hr hput
  obtain ⟨kept', files', hkept', hsave, hfiles⟩ := put_file_eq_none_iff.mp hput
  cases hkept.symm.trans hkept'
  obtain ⟨hwrite, hsteps⟩ := save_eq_iff.mp hsave
  obtain ⟨hrooted', hread⟩ := hrooted.read_replacing hsteps
  have hagain : ∃ made, files'.steps (Files.replacing path .empty) = (made, none) :=
    hrooted.steps_replacing_again hsteps
  unfold Shelf.PutsInto
  rw [call_put_file]
  rw [hfiles] at hruns ⊢
  refine ⟨⟨hrooted', Files.steady_of_read hread, hruns, fun q hq => ?_⟩,
    agrees_of_clear_iff (iff_of_true ?_ (clear_of_steps hsteps))⟩
  · rcases mem_replaceFirst hq with rfl | hq
    · have hwritable := hwrite r (mem_replaceFirst_self r kept)
      exact ⟨hr.recordable_reread hwritable.2, writable_reread hr hwritable⟩
    · exact hall q hq
  · obtain ⟨made, hmade⟩ := hagain
    exact clear_of_steps hmade

/-- A put that is refused changes nothing that is read. -/
theorem putsInto_of_fault {files : Files} {path : Path} {f : StoreFault}
    (h : Shelf.Serves kept ⟨files, .file path⟩)
    (hfault : (Store.put files r (.file path)).fault? = some f) :
    Shelf.PutsInto r kept ⟨files, .file path⟩ := by
  obtain ⟨hrooted, hsteady, hkept, hall⟩ := h
  have hunmoved := unmoved_of_put hfault
  unfold Shelf.PutsInto
  rw [call_put_file]
  refine ⟨⟨hunmoved.rooted hrooted, hunmoved.steady hsteady, ?_, hall⟩, agrees_of_clear_iff ?_⟩
  · rw [runs_of_read_eq (hunmoved.read hsteady)]
    exact hkept
  · exact iff_of_eq (congrArg (· = none) (hunmoved.agrees_replacing .empty).1.symm)

theorem call_get_of_runs (h : (s.store.runs s.files).outcome.1 = .ok kept) (id : String) :
    s.call (.get id) = (.found (kept.find? fun q => q.id == id), s) := by
  have hget : (s.store.get s.files id).outcome.1 = .ok (kept.find? fun q => q.id == id) :=
    get_eq_iff.mpr ⟨kept, h, rfl⟩
  change (answerOf .found (s.store.get s.files id).outcome.1, s) = _
  rw [hget]
  rfl

namespace Shelf.Serves

theorem runs (h : s.Serves kept) : (s.store.runs s.files).outcome.1 = .ok kept := by
  obtain ⟨files, entries | path⟩ := s
  · rw [← h.2]
    rfl
  · exact h.2.2.1

theorem reads (h : s.Serves kept) (hr : r ∈ kept) : s.store.Reads r := by
  obtain ⟨files, entries | path⟩ := s
  · trivial
  · exact (h.2.2.2 r hr).1.readable

/-- A run that is put replaces the one of its identifier or comes last, unless the shelf does not
take it. -/
theorem putsInto (h : s.Serves kept) (hr : s.store.Reads r) :
    s.PutsInto r (if s.Takes r then replaceFirst (s.store.given r) kept else kept) := by
  obtain ⟨files, entries | path⟩ := s
  · split
    · rename_i htaken
      exact putsInto_memory h htaken.2
    · rename_i hrefused
      have hdeep : ¬ levels r < copyLimit := fun h => hrefused ⟨trivial, h⟩
      unfold PutsInto
      rw [call_put_memory, if_neg hdeep]
      exact ⟨h, .refl _⟩
  · have ⟨hrooted, hsteady, hkept, hall⟩ := h
    cases hfault : (Store.put files r (.file path)).fault? with
    | none =>
      obtain ⟨_, _, -, hsave, -⟩ := put_file_eq_none_iff.mp hfault
      have htaken : Shelf.Takes ⟨files, .file path⟩ r :=
        ⟨clear_of_steps (save_eq_iff.mp hsave).2, writable_of_put hfault⟩
      rw [if_pos htaken]
      exact putsInto_of_put h hr hfault
    | some f =>
      have hrefused : ¬ Shelf.Takes ⟨files, .file path⟩ r := by
        rintro ⟨hclear, hwritable⟩
        rw [put_of_way hkept ⟨.empty, _, Prod.ext rfl hclear⟩ (fun q hq => (hall q hq).2)
          hwritable] at hfault
        cases hfault
      rw [if_neg hrefused]
      exact putsInto_of_fault h hfault

end Shelf.Serves

/-! One caller. -/

/-- A caller and the run that is kept under its identifier. -/
structure Own where
  caller : Caller
  held : Option Run

/-- The step of a caller, told from what it has and from what is kept for it. -/
def Own.step (s : Shelf) : Own → Own
  | ⟨⟨found?, []⟩, held⟩ => ⟨⟨found?, []⟩, held⟩
  | ⟨⟨none, make :: rest⟩, held⟩ => ⟨⟨some held, make :: rest⟩, held⟩
  | ⟨⟨some found, make :: rest⟩, held⟩ =>
    ⟨⟨none, rest⟩, if s.Takes (make found) then some (s.store.given (make found)) else held⟩

/-- What rounds make of a run, one after another. A round makes no difference if the shelf does not
take what it makes. -/
def produced (s : Shelf) (rounds : List Round) (held : Option Run) : Option Run :=
  rounds.foldl (fun held make =>
    if s.Takes (make held) then some (s.store.given (make held)) else held) held

/-- Without rounds a caller takes no step. -/
theorem iterate_step_of_nil (s : Shelf) {o : Own} (h : o.caller.rounds = []) (k : Nat) :
    (Own.step s)^[k] o = o := by
  refine Function.iterate_fixed ?_ k
  obtain ⟨⟨found?, rounds⟩, held⟩ := o
  cases h
  rfl

/-! All callers. -/

/-- A caller that puts nothing but its own run, and a run that the store gives back in some form if it
has found such a run. -/
def Caller.Minds (s : Store) (id : String) (c : Caller) : Prop :=
  ∀ make ∈ c.rounds, ∀ found : Option Run, (∀ q ∈ found, q.id = id ∧ s.Reads q) →
    (make found).id = id ∧ s.Reads (make found)

namespace Shared

variable {w : Shared} {base : Shelf} {schedule : List String}

/-- What a caller has, and the run that is kept for it. -/
def own (w : Shared) (kept : List Run) (id : String) : Own :=
  ⟨w.callers id, kept.find? fun q => q.id == id⟩

/-- Callers that mind their own runs, beside a shelf that serves them. -/
structure Orderly (base : Shelf) (kept : List Run) (w : Shared) : Prop where
  serves : w.shelf.Serves kept
  agrees : base.Agrees w.shelf
  minds : ∀ id, (w.callers id).Minds base.store id
  found : ∀ id, ∀ found ∈ (w.callers id).found?, ∀ q ∈ found, q.id = id ∧ base.store.Reads q

/-- What is kept under other identifiers stays, and one may be added of a caller with rounds. -/
structure Grows (w : Shared) (kept kept' : List Run) : Prop where
  places : kept.map Run.id <+: kept'.map Run.id
  once : (kept.map Run.id).Nodup → (kept'.map Run.id).Nodup
  new : ∀ r ∈ kept', r.id ∈ kept.map Run.id ∨ (w.callers r.id).rounds ≠ []

theorem grows_refl (w : Shared) (kept : List Run) : Grows w kept kept :=
  ⟨List.prefix_rfl, id, fun _ hr => Or.inl (List.mem_map_of_mem hr)⟩

theorem grows_replaceFirst (hid : r.id = id) (hrounds : (w.callers id).rounds ≠ []) :
    Grows w kept (replaceFirst r kept) := by
  have hids := ids_replaceFirst r kept
  split at hids
  · refine ⟨hids ▸ List.prefix_rfl, fun hnodup => hids ▸ hnodup, fun q hq => Or.inl ?_⟩
    rw [← hids]
    exact List.mem_map_of_mem hq
  · rename_i hnew
    refine ⟨?_, fun hnodup => ?_, fun q hq => ?_⟩
    · rw [hids]
      exact List.prefix_append ..
    · rw [hids, List.nodup_append]
      refine ⟨hnodup, List.nodup_singleton _, fun a ha b hb heq => ?_⟩
      rw [List.mem_singleton.mp hb] at heq
      exact hnew (heq ▸ ha)
    · rcases mem_replaceFirst hq with rfl | hq
      · exact Or.inr (hid ▸ hrounds)
      · exact Or.inl (List.mem_map_of_mem hq)

theorem step_of_between {make : Round} {rest : List Round} {found : Option Run}
    (hcaller : w.callers id = ⟨none, make :: rest⟩)
    (hget : w.shelf.call (.get id) = (.found found, w.shelf)) :
    w.step id = ⟨w.shelf, Function.update w.callers id ⟨some found, make :: rest⟩⟩ := by
  unfold step
  rw [hcaller]
  dsimp only
  rw [hget]

theorem step_of_found {make : Round} {rest : List Round} {found : Option Run}
    (hcaller : w.callers id = ⟨some found, make :: rest⟩) : w.step id =
      ⟨(w.shelf.call (.put (make found))).2, Function.update w.callers id ⟨none, rest⟩⟩ := by
  unfold step
  rw [hcaller]

theorem callers_update (w : Shared) (shelf : Shelf) (id : String) (c : Caller) (other : String) :
    Shared.callers ⟨shelf, Function.update w.callers id c⟩ other =
      if other = id then c else w.callers other := Function.update_apply ..

theorem Orderly.update (h : w.Orderly base kept) {shelf : Shelf} {kept' : List Run} {c : Caller}
    (hserves : shelf.Serves kept') (hagrees : w.shelf.Agrees shelf)
    (hrounds : ∀ make ∈ c.rounds, make ∈ (w.callers id).rounds)
    (hfound : ∀ found ∈ c.found?, ∀ q ∈ found, q.id = id ∧ base.store.Reads q) :
    Orderly base kept' ⟨shelf, Function.update w.callers id c⟩ := by
  refine ⟨hserves, h.agrees.trans hagrees, fun other => ?_, fun other => ?_⟩
  · rw [callers_update]
    split
    · rename_i hother
      rw [hother]
      exact fun make hmake => h.minds id make (hrounds make hmake)
    · exact h.minds other
  · rw [callers_update]
    split
    · rename_i hother
      rw [hother]
      exact hfound
    · exact h.found other

/-- What each caller has after a step of one of them, and what is kept for it. -/
def Advances (base : Shelf) (w : Shared) (kept : List Run) (id : String) (w' : Shared)
    (kept' : List Run) : Prop :=
  ∀ other, w'.own kept' other = if other = id then (w.own kept id).step base else w.own kept other

theorem advances_update {shelf : Shelf} {kept' : List Run} {c : Caller}
    (hself : Own.step base (w.own kept id) = ⟨c, kept'.find? fun q => q.id == id⟩)
    (hothers : ∀ other, other ≠ id →
      (kept'.find? fun q => q.id == other) = kept.find? fun q => q.id == other) :
    Advances base w kept id ⟨shelf, Function.update w.callers id c⟩ kept' := by
  intro other
  unfold own
  rw [callers_update]
  split
  · rename_i hother
    rw [hother]
    exact hself.symm
  · rename_i hother
    rw [hothers other hother]

/-- A step of one caller is a step of its own, and the others have what they had. -/
theorem Orderly.step (h : w.Orderly base kept) (id : String) :
    ∃ kept', (w.step id).Orderly base kept' ∧ Advances base w kept id (w.step id) kept' ∧
      Grows w kept kept' := by
  rcases hcaller : w.callers id with ⟨found?, _ | ⟨make, rest⟩⟩
  · have hstay : w.step id = w := by
      unfold Shared.step
      rw [hcaller]
    rw [hstay]
    refine ⟨kept, h, fun other => ?_, grows_refl w kept⟩
    split
    · rename_i hother
      unfold own
      rw [hother, hcaller]
      rfl
    · rfl
  · cases found? with
    | none =>
      rw [step_of_between hcaller (call_get_of_runs h.serves.runs id)]
      refine ⟨kept, h.update h.serves (.refl _) ?_ ?_, advances_update ?_ fun _ _ => rfl,
        grows_refl w kept⟩
      · rw [hcaller]
        exact fun _ hmake => hmake
      · rintro _ ⟨⟩ q hq
        have hid : (q.id == id) = true := List.find?_some (p := fun q : Run => q.id == id) hq
        exact ⟨beq_iff_eq.mp hid,
          (h.agrees.reads q).mp (h.serves.reads (List.mem_of_find?_eq_some hq))⟩
      · unfold own
        rw [hcaller]
        rfl
    | some found =>
      obtain ⟨hid, hreads⟩ := h.minds id make (by rw [hcaller]; exact List.mem_cons_self) found
        (h.found id found (by rw [hcaller]; rfl))
      obtain ⟨hserves, hagrees⟩ := h.serves.putsInto ((h.agrees.reads _).mpr hreads)
      have hgiven : (w.shelf.store.given (make found)).id = id := (id_given ..).trans hid
      rw [step_of_found hcaller]
      refine ⟨_, h.update hserves hagrees ?_ (fun _ hfound => by cases hfound),
        advances_update ?_ fun other hother => ?_, ?_⟩
      · rw [hcaller]
        exact fun _ hmake => List.mem_cons_of_mem _ hmake
      · have htakes := h.agrees.takes (make found)
        unfold own Own.step
        rw [hcaller]
        dsimp only
        split
        · rename_i htaken
          rw [if_pos (htakes.mpr htaken), find?_replaceFirst_eq, if_pos hgiven, h.agrees.given]
        · rename_i hrefused
          rw [if_neg (mt htakes.mp hrefused)]
      · split
        · rw [find?_replaceFirst_eq, hgiven, if_neg (Ne.symm hother)]
        · rfl
      · split
        · exact grows_replaceFirst hgiven (by rw [hcaller]; exact List.cons_ne_nil make rest)
        · exact grows_refl w kept

theorem Grows.trans {w' : Shared} {kept' kept'' : List Run} (h : Grows w kept kept')
    (h' : Grows w' kept' kept'') (hrounds : ∀ id, (w.callers id).rounds = [] →
      (w'.callers id).rounds = []) : Grows w kept kept'' := by
  refine ⟨h.places.trans h'.places, fun hnodup => h'.once (h.once hnodup), fun r hr => ?_⟩
  rcases h'.new r hr with hold | hnew
  · obtain ⟨q, hq, hid⟩ := List.mem_map.mp hold
    rw [← hid]
    exact h.new q hq
  · exact Or.inr (mt (hrounds r.id) hnew)

theorem after_concat (w : Shared) (schedule : List String) (id : String) :
    w.after (schedule ++ [id]) = (w.after schedule).step id := List.foldl_concat ..

/-- After steps of all callers in any order, each has what its own steps come to. -/
theorem Orderly.after (h : w.Orderly base kept) (schedule : List String) :
    ∃ kept', (w.after schedule).Orderly base kept' ∧ Grows w kept kept' ∧
      ∀ id, (w.after schedule).own kept' id =
        (Own.step base)^[schedule.count id] (w.own kept id) := by
  induction schedule using List.reverseRecOn with
  | nil => exact ⟨kept, h, grows_refl w kept, fun _ => rfl⟩
  | append_singleton schedule id ih =>
    obtain ⟨kept', horderly, hgrows, hown⟩ := ih
    obtain ⟨kept'', horderly', hadvances, hgrows'⟩ := horderly.step id
    rw [after_concat]
    refine ⟨kept'', horderly', hgrows.trans hgrows' fun other hrounds => ?_, fun other => ?_⟩
    · have hstay := iterate_step_of_nil base (o := w.own kept other) hrounds (schedule.count other)
      rw [← hown other] at hstay
      exact (congrArg (fun o : Own => o.caller.rounds) hstay).trans hrounds
    · rw [hadvances other, List.count_append, List.count_singleton]
      split
      · rename_i hother
        rw [hother, hown id, if_pos (beq_self_eq_true id), Function.iterate_succ_apply']
      · rename_i hother
        rw [hown other, if_neg (by simpa using Ne.symm hother), Nat.add_zero]

/-- Nothing has come between the callers: under every identifier there is what the caller with this
run has made of it, as there would be without the steps of the others. Runs without a caller are as
they were, none is lost or twice there, and none comes from anywhere else. -/
structure Undisturbed (w : Shared) (kept : List Run) (schedule : List String) (kept' : List Run) :
    Prop where
  serves : (w.after schedule).shelf.Serves kept'
  own : ∀ id, (kept'.find? fun q => q.id == id) = produced w.shelf
    ((w.callers id).rounds.take (schedule.count id / 2)) (kept.find? fun q => q.id == id)
  alone : ∀ id, ∃ kept'', (w.after (schedule.filter (· == id))).shelf.Serves kept'' ∧
    (w.after (schedule.filter (· == id))).own kept'' id = (w.after schedule).own kept' id
  others : ∀ r ∈ kept, (w.callers r.id).rounds = [] → r ∈ kept'
  places : kept.map Run.id <+: kept'.map Run.id
  once : (kept'.map Run.id).Nodup
  new : ∀ r ∈ kept', r.id ∈ kept.map Run.id ∨ (w.callers r.id).rounds ≠ []

section OddInTheWay

variable {bytes : ByteArray} {odd : Run}
  (hkept : (Store.runs (filed bytes) (.file Toolkit.shelf)).outcome.1 = .ok [odd])
  (hid : odd.id = "odd")

include hkept hid

end OddInTheWay

end Shared

end Runbook.Workflow.Store
