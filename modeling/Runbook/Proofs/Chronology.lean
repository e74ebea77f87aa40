import Mathlib.Data.Int.Order.Basic
import Mathlib.Data.List.Forall2
import Mathlib.Order.Monotone.Defs
import Runbook.Proofs.Lifecycle
import Runbook.Proofs.Retention
import Runbook.Proofs.Documents

/-!
The times in the record of a run, by a clock that never goes back. Whatever is asked of a run, its
visits stay in the order in which they were entered, none of them before the run was made or left
before it was entered, and what is written down of a visit stays. The time of the last update is
the latest of all whenever a call has been carried out. It lags behind only where the judge of
guards has broken a step off in the middle, and until the next call that changes the run.
-/
namespace Runbook

namespace Timestamp

/-- Times of one kind, by their order. -/
instance : LE Timestamp := ⟨fun a b => a.comparable b = true ∧ a.orderKey ≤ b.orderKey⟩

instance : DecidableLE Timestamp := fun a b =>
  inferInstanceAs (Decidable (a.comparable b = true ∧ a.orderKey ≤ b.orderKey))

theorem comparable_iff {a b : Timestamp} :
    a.comparable b = true ↔ a.offset.isSome = b.offset.isSome := beq_iff_eq

instance : Preorder Timestamp where
  le_refl a := ⟨comparable_iff.mpr rfl, le_refl a.orderKey⟩
  le_trans _ _ _ hab hbc :=
    ⟨comparable_iff.mpr ((comparable_iff.mp hab.1).trans (comparable_iff.mp hbc.1)),
      hab.2.trans hbc.2⟩

end Timestamp

/-- Every opening parenthesis takes five levels, and none is closed before they are used up. -/
theorem Guard.readEither_openings (size n : Nat) {depth : Nat} (h : depth ≤ 5 * n) :
    readEither size depth (List.replicate n (.sign .opening)) = .error .tooDeep := by
  induction n generalizing depth with
  | zero =>
    obtain rfl : depth = 0 := by omega
    rfl
  | succ n ih =>
    rcases depth with _ | _ | _ | _ | _ | depth
    · rfl
    · rfl
    · rfl
    · rfl
    · rfl
    · have hinner : readEither size depth (List.replicate n (.sign .opening)) = .error .tooDeep :=
        ih (by omega)
      simp only [List.replicate_succ, readEither, readBoth, readNegation, readComparison, readAtom,
        hinner, bind, Except.bind]

namespace Workflow

/-- What is written down of a visit stays; only the time at which it ends may be added. -/
structure Visit.Kept (v w : Visit) : Prop where
  state : w.state = v.state
  entered : w.entered = v.entered
  exited : ∀ time ∈ v.exited, w.exited = some time

theorem Visit.Kept.refl (v : Visit) : v.Kept v := ⟨rfl, rfl, fun _ h => h⟩

theorem Visit.Kept.trans {u v w : Visit} (huv : u.Kept v) (hvw : v.Kept w) : u.Kept w :=
  ⟨hvw.state.trans huv.state, hvw.entered.trans huv.entered,
    fun time h => hvw.exited time (huv.exited time h)⟩

namespace Run

/-- A run is made before anything is entered, states are entered one after another, and each of them
is left after it was entered. -/
structure Chronological (r : Run) : Prop where
  updated : r.created ≤ r.updated
  created : ∀ v ∈ r.history, r.created ≤ v.entered
  entered : (r.history.map Visit.entered).Pairwise (· ≤ ·)
  exited : ∀ v ∈ r.history, ∀ time ∈ v.exited, v.entered ≤ time

/-- Nothing has happened to a run after a time, the update of its record apart. -/
structure Until (r : Run) (time : Timestamp) : Prop where
  created : r.created ≤ time
  entered : ∀ v ∈ r.history, v.entered ≤ time
  exited : ∀ v ∈ r.history, ∀ t ∈ v.exited, t ≤ time

theorem Until.mono {r : Run} {time later : Timestamp} (h : r.Until time) (hle : time ≤ later) :
    r.Until later :=
  ⟨h.created.trans hle, fun v hv => (h.entered v hv).trans hle,
    fun v hv t ht => (h.exited v hv t ht).trans hle⟩

def UpToDate (r : Run) : Prop := r.Until r.updated

/-- The second record is the first one continued: its first visits are those of the first, in their
places. -/
structure Continues (r r' : Run) : Prop where
  created : r'.created = r.created
  updated : r.updated ≤ r'.updated
  visits : ∀ (i : Nat) (v : Visit), r.history[i]? = some v →
    ∃ w, r'.history[i]? = some w ∧ v.Kept w

namespace Continues

variable {r r' r'' : Run}

/-- Where only the end of the history and the time of the update may differ. -/
theorem of_append (hcreated : r'.created = r.created) (hupdated : r.updated ≤ r'.updated)
    (visits : List Visit) (hhistory : r'.history = r.history ++ visits) : r.Continues r' := by
  refine ⟨hcreated, hupdated, fun i v hv => ⟨v, ?_, Visit.Kept.refl v⟩⟩
  obtain ⟨hi, -⟩ := List.getElem?_eq_some_iff.mp hv
  rw [hhistory, List.getElem?_append_left hi, hv]

theorem refl (r : Run) : r.Continues r :=
  of_append rfl (le_refl _) [] (List.append_nil _).symm

theorem trans (h : r.Continues r') (h' : r'.Continues r'') : r.Continues r'' := by
  refine ⟨h'.created.trans h.created, h.updated.trans h'.updated, fun i v hv => ?_⟩
  obtain ⟨w, hw, hvw⟩ := h.visits i v hv
  obtain ⟨u, hu, hwu⟩ := h'.visits i w hw
  exact ⟨u, hu, hvw.trans hwu⟩

end Continues

section Closing

variable (id : String) (time : Timestamp)

theorem kept_closeFirst (visits : List Visit) :
    List.Forall₂ Visit.Kept visits (closeFirst id time visits) := by
  have hsame : ∀ vs : List Visit, List.Forall₂ Visit.Kept vs vs :=
    fun vs => List.forall₂_same.mpr fun v _ => Visit.Kept.refl v
  induction visits with
  | nil => exact .nil
  | cons v rest ih =>
    unfold closeFirst
    split
    · rename_i hopen
      rw [Bool.and_eq_true, Option.isNone_iff_eq_none] at hopen
      refine .cons ⟨rfl, rfl, fun t ht => ?_⟩ (hsame rest)
      rw [hopen.2] at ht
      cases ht
    · exact .cons (Visit.Kept.refl v) ih

theorem kept_closeVisit (r : Run) :
    List.Forall₂ Visit.Kept r.history (r.closeVisit id time).history := by
  rw [← List.forall₂_reverse_iff]
  unfold closeVisit
  rw [List.reverse_reverse]
  exact kept_closeFirst id time r.history.reverse

theorem map_entered_eq {visits visits' : List Visit} (h : List.Forall₂ Visit.Kept visits visits') :
    visits'.map Visit.entered = visits.map Visit.entered := by
  induction h with
  | nil => rfl
  | cons hkept _ ih => rw [List.map_cons, List.map_cons, hkept.entered, ih]

theorem continues_closeVisit (r : Run) : r.Continues (r.closeVisit id time) := by
  refine ⟨rfl, le_refl _, fun i v hv => ?_⟩
  obtain ⟨hlength, hget⟩ := List.forall₂_iff_get.mp (kept_closeVisit id time r)
  obtain ⟨hi, rfl⟩ := List.getElem?_eq_some_iff.mp hv
  exact ⟨_, List.getElem?_eq_getElem (hlength ▸ hi), hget i hi (hlength ▸ hi)⟩

theorem exists_of_mem_closeVisit {r : Run} {v : Visit} (hv : v ∈ (r.closeVisit id time).history) :
    ∃ w ∈ r.history, v.entered = w.entered ∧ (v.exited = w.exited ∨ v.exited = some time) := by
  obtain ⟨w, hw, hsame⟩ := Later.exists_of_mem_closeFirst (List.mem_reverse.mp hv)
  exact ⟨w, List.mem_reverse.mp hw, hsame⟩

end Closing

end Run

namespace Machine

open Run

variable {host : Host} {d : Definition} {m m' m'' : Machine} {s : State}

/-- The record is in order, and the clock has not gone back behind any of its times. -/
structure Timely (host : Host) (m : Machine) : Prop where
  chronological : m.run.Chronological
  past : m.run.Until (host.clock m.reads)
  updated : m.run.updated ≤ host.clock m.reads

/-- Between the two machines time went on, and the record with it. -/
def Onward (host : Host) (m m' : Machine) : Prop :=
  Timely host m → Timely host m' ∧ m.run.Continues m'.run

namespace Onward

theorem refl (m : Machine) : Onward host m m := fun h => ⟨h, Continues.refl m.run⟩

theorem trans (h : Onward host m m') (h' : Onward host m' m'') : Onward host m m'' := by
  intro htimely
  obtain ⟨hfirst, hcontinues⟩ := h htimely
  obtain ⟨hsecond, hcontinues'⟩ := h' hfirst
  exact ⟨hsecond, hcontinues.trans hcontinues'⟩

theorem openVisit (m : Machine) (id : String) :
    Onward host m (m.mapRun fun r => r.openVisit id (host.clock m.reads)) := by
  intro h
  have hmem : ∀ {P : Visit → Prop}, (∀ v ∈ m.run.history, P v) → P ⟨id, host.clock m.reads, none⟩ →
      ∀ v ∈ (m.run.openVisit id (host.clock m.reads)).history, P v := by
    intro P hold hnew v hv
    rcases List.mem_append.mp hv with hv | hv
    · exact hold v hv
    · rw [List.mem_singleton.mp hv]
      exact hnew
  refine ⟨⟨⟨h.chronological.updated, ?_, ?_, ?_⟩, ⟨h.past.created, ?_, ?_⟩, h.updated⟩,
    Continues.of_append rfl (le_refl _) [⟨id, host.clock m.reads, none⟩] rfl⟩
  · exact hmem h.chronological.created h.past.created
  · change (((m.run.history ++ [_]).map Visit.entered).Pairwise (· ≤ ·))
    rw [List.map_append, List.pairwise_append]
    refine ⟨h.chronological.entered, List.pairwise_singleton .., fun a ha b hb => ?_⟩
    obtain ⟨v, hv, rfl⟩ := List.mem_map.mp ha
    rw [List.mem_singleton.mp hb]
    exact h.past.entered v hv
  · exact hmem h.chronological.exited nofun
  · exact hmem h.past.entered (le_refl _)
  · exact hmem h.past.exited nofun

theorem closeVisit (m : Machine) (id : String) :
    Onward host m (m.mapRun fun r => r.closeVisit id (host.clock m.reads)) := by
  intro h
  have hfrom : ∀ v ∈ (m.run.closeVisit id (host.clock m.reads)).history, ∃ w ∈ m.run.history,
      v.entered = w.entered ∧ (v.exited = w.exited ∨ v.exited = some (host.clock m.reads)) :=
    fun v hv => exists_of_mem_closeVisit id (host.clock m.reads) hv
  refine ⟨⟨⟨h.chronological.updated, ?_, ?_, ?_⟩, ⟨h.past.created, ?_, ?_⟩, h.updated⟩,
    continues_closeVisit id (host.clock m.reads) m.run⟩
  · intro v hv
    obtain ⟨w, hw, hentered, -⟩ := hfrom v hv
    rw [hentered]
    exact h.chronological.created w hw
  · rw [mapRun_run, map_entered_eq (kept_closeVisit id (host.clock m.reads) m.run)]
    exact h.chronological.entered
  · intro v hv time htime
    obtain ⟨w, hw, hentered, hexited | hexited⟩ := hfrom v hv
    · rw [hentered]
      exact h.chronological.exited w hw time (hexited ▸ htime)
    · rw [hexited, Option.mem_some_iff] at htime
      rw [hentered, ← htime]
      exact h.past.entered w hw
  · intro v hv
    obtain ⟨w, hw, hentered, -⟩ := hfrom v hv
    rw [hentered]
    exact h.past.entered w hw
  · intro v hv time htime
    obtain ⟨w, hw, -, hexited | hexited⟩ := hfrom v hv
    · exact h.past.exited w hw time (hexited ▸ htime)
    · rw [hexited, Option.mem_some_iff] at htime
      exact le_of_eq htime.symm

theorem stamp (m : Machine) :
    Onward host m (m.mapRun fun r => { r with updated := host.clock m.reads }) := by
  intro h
  exact ⟨⟨⟨h.past.created, h.chronological.created, h.chronological.entered,
      h.chronological.exited⟩, ⟨h.past.created, h.past.entered, h.past.exited⟩, le_refl _⟩,
    Continues.of_append rfl h.updated [] (List.append_nil _).symm⟩

variable (hsteady : Monotone host.clock)

include hsteady

/-- The clock may be read without a time being written down. -/
theorem untouched (hreads : m.reads ≤ m'.reads) (hcreated : m'.run.created = m.run.created)
    (hupdated : m'.run.updated = m.run.updated) (hhistory : m'.run.history = m.run.history) :
    Onward host m m' := by
  intro h
  have hlater := hsteady hreads
  refine ⟨⟨⟨?_, ?_, ?_, ?_⟩, ⟨?_, ?_, ?_⟩, ?_⟩, Continues.of_append hcreated (by rw [hupdated]) []
    (by rw [hhistory, List.append_nil])⟩
  all_goals simp only [hcreated, hupdated, hhistory]
  · exact h.chronological.updated
  · exact h.chronological.created
  · exact h.chronological.entered
  · exact h.chronological.exited
  · exact h.past.created.trans hlater
  · exact (h.past.mono hlater).entered
  · exact (h.past.mono hlater).exited
  · exact h.updated.trans hlater

theorem mapRun (f : Run → Run) (hcreated : (f m.run).created = m.run.created)
    (hupdated : (f m.run).updated = m.run.updated) (hhistory : (f m.run).history = m.run.history) :
    Onward host m (m.mapRun f) :=
  untouched hsteady (le_refl _) hcreated hupdated hhistory

theorem fail (m : Machine) (f : Failure) : Onward host m (m.fail f) :=
  untouched hsteady (le_refl m.reads) rfl rfl rfl

theorem unmoved (h : Unmoved m m') : Onward host m m' :=
  untouched hsteady h.reads.ge (by rw [h.run_eq]) (by rw [h.run_eq]) (by rw [h.run_eq])

theorem act (state : String) (actions : List Action) (m : Machine) :
    Onward host m (m.act host state actions) := by
  induction actions generalizing m with
  | nil => exact refl m
  | cons a rest ih =>
    have hcarried : Onward host m (m.carried host state a) :=
      untouched hsteady (le_refl m.reads) rfl rfl rfl
    rw [act_cons]
    cases (m.response host state a).outcome.fault? with
    | some message => exact hcarried.trans (fail hsteady _ _)
    | none => exact hcarried.trans (ih _)

theorem enter (s : State) (m : Machine) : Onward host m (m.enter host s) := by
  have hopened : Onward host m (m.opened host s) :=
    (openVisit m s.id).trans (untouched hsteady (Nat.le_succ m.reads) rfl rfl rfl)
  exact hopened.trans (act hsteady s.id s.actions _)

theorem leave (s : State) (m : Machine) : Onward host m (m.leave host s) := by
  have hvacated : Onward host m (m.mapRun fun r => r.vacate s.id) := mapRun hsteady _ rfl rfl rfl
  unfold Machine.leave
  dsimp only
  split
  · exact hvacated
  · refine hvacated.trans ?_
    split
    · exact (closeVisit _ s.id).trans (untouched hsteady (Nat.le_succ m.reads) rfl rfl rfl)
    · exact untouched hsteady (le_refl m.reads) rfl rfl rfl

theorem arriveAt (source : String) (t : State) (m : Machine) :
    Onward host m (m.arriveAt host source t) := by
  have hoccupied : ∀ f : Run → Run, (f m.run).created = m.run.created →
      (f m.run).updated = m.run.updated → (f m.run).history = m.run.history →
      Onward host m (m.mapRun fun r => (f r).occupy t.id) := by
    intro f hcreated hupdated hhistory
    refine mapRun hsteady _ ?_ ?_ ?_ <;> rw [occupy_eq]
    · exact hcreated
    · exact hupdated
    · exact hhistory
  rcases arriveAt_cases host source m t with ⟨-, he⟩ | ⟨-, payload, he⟩ | ⟨-, -, he⟩
  · rw [he]
    exact hoccupied id rfl rfl rfl
  · rw [he]
    exact (hoccupied (fun r => r.awaitJoin t.id source) rfl rfl rfl).trans
      (untouched hsteady (le_refl m.reads) rfl rfl rfl)
  · rw [he]
    exact (hoccupied id rfl rfl rfl).trans (enter hsteady t _)

theorem turned {occupied : List String} {moved : Bool} (hrunning : m.isRunning = true)
    (hturned : Turned host d occupied s m moved m') : Onward host m m' := by
  cases hturned with
  | stays => exact refl m
  | fires =>
    have hfired : Onward host m (m.fire s.id) := untouched hsteady (le_refl m.reads) rfl rfl rfl
    exact hfired.trans (enter hsteady s _)
  | fails hkind hwaits hasked => exact (unmoved hsteady hasked).trans (fail hsteady _ _)
  | @goes asked targets hkind hwaits hasked =>
    have hleft : Onward host m (asked.leave host s) :=
      (unmoved hsteady hasked).trans (leave hsteady s asked)
    exact arriveAll_keeps (P := Onward host m)
      (fun t _ before _ hbefore => hbefore.trans (arriveAt hsteady s.id t before))
      (hasked.isRunning_leave host s hrunning) hleft

theorem conclude (d : Definition) (moved : Bool) (m : Machine) :
    Onward host m (m.conclude d moved) := by
  unfold Machine.conclude
  split
  · exact refl m
  · split
    · exact untouched hsteady (le_refl m.reads) rfl rfl rfl
    · split
      · exact fail hsteady m _
      · exact refl m

theorem touch (m : Machine) : Onward host m (m.touch host) :=
  (stamp m).trans (untouched hsteady (Nat.le_succ m.reads) rfl rfl rfl)

end Onward

/-- A record is up to date right after its update. -/
theorem Timely.upToDate_touch (h : Timely host m) : (m.touch host).run.UpToDate :=
  ⟨h.past.created, h.past.entered, h.past.exited⟩

theorem Alike.updated_eq (h : Alike m m') : m'.run.updated = m.run.updated := by rw [h.run]

theorem enter_updated (host : Host) (m : Machine) (s : State) :
    (m.enter host s).run.updated = m.run.updated := by
  obtain ⟨acted, hacted, he | ⟨message, he⟩⟩ := m.enter_cases host s <;>
    (have hupdated := hacted.updated_eq; rw [he]; exact hupdated)

theorem arriveAt_updated (host : Host) (source : String) (m : Machine) (t : State) :
    (m.arriveAt host source t).run.updated = m.run.updated := by
  rcases arriveAt_cases host source m t with ⟨-, he⟩ | ⟨-, payload, he⟩ | ⟨-, -, he⟩
  · rw [he, mapRun_run, occupy_eq]
  · rw [he, emit_run, mapRun_run, occupy_eq]
    rfl
  · rw [he, enter_updated, mapRun_run, occupy_eq]

/-- Only the end of a step notes the time of the update. -/
theorem updated_turned {occupied : List String} {moved : Bool} (hrunning : m.isRunning = true)
    (hturned : Turned host d occupied s m moved m') : m'.run.updated = m.run.updated := by
  cases hturned with
  | stays => rfl
  | fires => exact enter_updated host (m.fire s.id) s
  | fails hkind hwaits hasked =>
    have hupdated := hasked.updated_eq
    exact hupdated
  | @goes asked targets hkind hwaits hasked =>
    have hleft : (asked.leave host s).run.updated = m.run.updated := by
      rw [leave_run, ← hasked.updated_eq]
      split <;> rfl
    exact arriveAll_keeps (P := fun after => after.run.updated = m.run.updated)
      (fun t _ before _ hbefore => (arriveAt_updated host s.id before t).trans hbefore)
      (hasked.isRunning_leave host s hrunning) hleft

/-- The run is as it was, or its record is up to date. -/
def Renewed (m m' : Machine) : Prop := m'.run = m.run ∨ m'.run.UpToDate

/-- What comes of one step or several. The record is continued by what is left behind even where
they are broken off, and it is up to date where they are taken. -/
inductive Dated (host : Host) (m : Machine) : Except Refusal Machine → Prop
  | taken {after : Machine} (onward : Onward host m after)
      (renewed : Timely host m → Renewed m after) : Dated host m (.ok after)
  | foreign (run workflow definition : String) :
      Dated host m (.error (.foreign run workflow definition))
  | broken {i : Interrupted} (onward : Onward host m i.machine) :
      Dated host m (.error (.interrupted i))

namespace Dated

theorem leftBy {result : Except Refusal Machine} (h : Dated host m result) :
    Onward host m (m.leftBy result) := by
  cases h with
  | taken honward => exact honward
  | foreign => exact .refl m
  | broken honward => exact honward

/-- What comes of steps after one that was taken. -/
theorem after {result : Except Refusal Machine} (h : Dated host m' result)
    (honward : Onward host m m') (hrenewed : Timely host m → Renewed m m') :
    Dated host m result := by
  cases h with
  | taken honward' hrenewed' =>
    refine .taken (honward.trans honward') fun htimely => ?_
    rcases hrenewed' (honward htimely).1 with hsame | hfresh
    · unfold Renewed
      rw [hsame]
      exact hrenewed htimely
    · exact Or.inr hfresh
  | foreign => exact .foreign ..
  | broken honward' => exact .broken (honward.trans honward')

variable (hlinked : d.Linked) (hsteady : Monotone host.clock)

include hlinked hsteady

theorem advance (m : Machine) : Dated host m (m.advance host d) := by
  unfold Machine.advance
  split
  · exact .foreign ..
  · split
    · exact .taken (.untouched hsteady (le_refl m.reads) rfl rfl rfl) fun _ => Or.inl rfl
    · have hturns := moveAll_holds host m.run.current hlinked (P := fun _ => Onward host m)
        (fun _ _ before _ _ h => h.trans (.fail hsteady before _))
        (fun _ _ _ hasked h => h.trans (.unmoved hsteady hasked))
        (fun _ _ _ _ _ _ hrunning hturned h => h.trans (.turned hsteady hrunning hturned))
        m.run.current false (.refl m)
      rcases hturns with ⟨moved, last, -, he, hlast, -⟩ | ⟨why, last, -, he, -, hlast, -⟩
      · have hconcluded := hlast.trans (.conclude hsteady d moved last)
        rw [he]
        exact .taken (hconcluded.trans (.touch hsteady _)) fun htimely =>
          Or.inr (hconcluded htimely).1.upToDate_touch
      · rw [he]
        exact .broken hlast

theorem steps (n : Nat) (m : Machine) : Dated host m (m.steps host d n) := by
  induction n generalizing m with
  | zero => exact .taken (.refl m) fun _ => Or.inl rfl
  | succ n ih =>
    unfold Machine.steps
    split
    · have hstep := advance hlinked hsteady m
      cases hresult : m.advance host d with
      | error refusal =>
        rw [hresult] at hstep
        exact hstep
      | ok next =>
        rw [hresult] at hstep
        cases hstep with
        | taken honward hrenewed => exact (ih next).after honward hrenewed
    · exact .taken (.refl m) fun _ => Or.inl rfl

theorem settle (limit : Int) (m : Machine) : Dated host m (m.settle host d limit) := by
  have hsteps := steps hlinked hsteady limit.toNat m
  unfold Machine.settle
  cases hresult : m.steps host d limit.toNat with
  | error refusal =>
    rw [hresult] at hsteps
    exact hsteps
  | ok last =>
    rw [hresult] at hsteps
    simp only [bind, Except.bind]
    split
    · cases hsteps with
      | taken honward hrenewed =>
        exact .taken (honward.trans (.unmoved hsteady (unmoved_log ..))) hrenewed
    · exact hsteps

end Dated

/-- A call that is not carried out because a step breaks off. -/
def BrokenOff (host : Host) (d : Definition) (m : Machine) (c : Call) : Prop :=
  ∃ i, m.attempt host d c = .error (.step (.interrupted i))

section Calling

variable (hsteady : Monotone host.clock)

include hsteady

/-- A change of status is an update; one that is refused changes nothing. -/
theorem requested_times {m' : Machine} (h : m' = m ∨ ∃ status,
      m'.run = (m.setStatus host status).run ∧ m'.reads = (m.setStatus host status).reads) :
    Onward host m m' ∧ (Timely host m → Renewed m m') := by
  rcases h with rfl | ⟨status, hrun, hreads⟩
  · exact ⟨.refl m', fun _ => Or.inl rfl⟩
  · have hset : Onward host m (m.mapRun fun r => { r with status := status }) :=
      .mapRun hsteady _ rfl rfl rfl
    have htold : Onward host (m.setStatus host status) m' :=
      .untouched hsteady hreads.ge (by rw [hrun]) (by rw [hrun]) (by rw [hrun])
    refine ⟨(hset.trans (.touch hsteady _)).trans htold, fun htimely => Or.inr ?_⟩
    rw [hrun]
    exact (hset htimely).1.upToDate_touch

theorem call_times (hlinked : d.Linked) (m : Machine) (c : Call) :
    Onward host m (m.call host d c) ∧
      (Timely host m → BrokenOff host d m c ∨ Renewed m (m.call host d c)) := by
  have hstepped : ∀ result, Dated host m result → Onward host m (m.leftBy result) ∧
      (Timely host m →
        (∃ i, result.mapError Obstacle.step = .error (.step (.interrupted i))) ∨
          Renewed m (m.leftBy result)) := by
    intro result hdated
    refine ⟨hdated.leftBy, fun htimely => ?_⟩
    cases hdated with
    | taken _ hrenewed => exact Or.inr (hrenewed htimely)
    | foreign => exact Or.inr (Or.inl rfl)
    | broken => exact Or.inl ⟨_, rfl⟩
  have hrequested : ∀ next : Machine, (next = m ∨ ∃ status,
      next.run = (m.setStatus host status).run ∧ next.reads = (m.setStatus host status).reads) →
      Onward host m next ∧ (Timely host m → BrokenOff host d m c ∨ Renewed m next) := by
    intro next h
    obtain ⟨honward, hrenewed⟩ := requested_times hsteady h
    exact ⟨honward, fun htimely => Or.inr (hrenewed htimely)⟩
  cases c with
  | advance => exact hstepped _ (.advance hlinked hsteady m)
  | settle limit => exact hstepped _ (.settle hlinked hsteady limit m)
  | suspend =>
    refine hrequested (m.unlessRefused (m.suspend host)) ?_
    unfold suspend
    split
    · exact Or.inr ⟨.suspended, rfl, rfl⟩
    · exact Or.inl rfl
  | resume =>
    refine hrequested (m.unlessRefused (m.resume host)) ?_
    unfold resume
    split
    · exact Or.inr ⟨.running, rfl, rfl⟩
    · exact Or.inl rfl
  | cancel =>
    refine hrequested (m.unlessRefused (m.cancel host)) ?_
    unfold cancel
    split
    · exact Or.inl rfl
    · split
      · exact Or.inl rfl
      · exact Or.inr ⟨.cancelled, rfl, rfl⟩

theorem onward_after (hlinked : d.Linked) (m : Machine) (calls : List Call) :
    Onward host m (m.after host d calls) := by
  unfold after
  induction calls generalizing m with
  | nil => exact .refl m
  | cons c rest ih => exact (call_times hsteady hlinked m c).1.trans (ih _)

/-- A record stays up to date as long as no call is broken off. -/
theorem upToDate_after (hlinked : d.Linked) (htimely : Timely host m) (hm : m.run.UpToDate)
    (calls : List Call) (hwhole : ∀ c earlier later, calls = earlier ++ c :: later →
      ¬ BrokenOff host d (m.after host d earlier) c) :
    (m.after host d calls).run.UpToDate := by
  induction calls generalizing m with
  | nil => exact hm
  | cons c rest ih =>
    obtain ⟨honward, hrenewed⟩ := call_times hsteady hlinked m c
    have hnext : (m.call host d c).run.UpToDate := by
      rcases (hrenewed htimely).resolve_left (hwhole c [] rest rfl) with hsame | hfresh
      · rw [hsame]
        exact hm
      · exact hfresh
    refine ih (honward htimely).1 hnext fun c' earlier later he => ?_
    exact hwhole c' (c :: earlier) later (by rw [he, List.cons_append])

/-- A run that has just been made is in order. -/
theorem timely_begun {bindings : Fields} {id : String} {reads judged invoked : Nat}
    {initial : State} : Timely host (begun host d bindings id reads judged invoked initial) := by
  have hnext : host.clock reads ≤ host.clock (reads + 1) := hsteady (Nat.le_succ reads)
  exact ⟨⟨le_refl _, nofun, .nil, nofun⟩, ⟨hnext, nofun, nofun⟩, hnext⟩

end Calling

/-- A step that is broken off leaves the time of the last update as it was. -/
theorem updated_of_brokenOff (hlinked : d.Linked) (h : BrokenOff host d m .advance) :
    (m.call host d .advance).run.updated = m.run.updated := by
  obtain ⟨i, hattempt⟩ := h
  obtain ⟨refusal, hadvance, hrefusal⟩ := exists_of_mapError_eq_error hattempt
  cases hrefusal
  change (m.leftBy (m.advance host d)).run.updated = _
  rw [hadvance]
  change i.machine.run.updated = _
  unfold advance at hadvance
  split at hadvance
  · cases hadvance
  · split at hadvance
    · cases hadvance
    · have hturns := moveAll_holds host m.run.current hlinked
        (P := fun _ after => after.run.updated = m.run.updated) (fun _ _ _ _ _ h => h)
        (fun _ _ _ hasked h => hasked.updated_eq.trans h)
        (fun _ _ _ _ _ _ hrunning hturned h => (updated_turned hrunning hturned).trans h)
        m.run.current false rfl
      rcases hturns with ⟨moved, last, -, he, -⟩ | ⟨why, last, -, he, -, hlast, -⟩
      · rw [he] at hadvance
        cases hadvance
      · rw [he] at hadvance
        cases hadvance
        exact hlast

/-- By a clock that never goes back, the record of a run is in order after any calls, also after one
that was broken off, and any more calls continue it. A call that is carried out or refused leaves
the run as it is or brings its record up to date; a step that is broken off does not update it. So
the last update is the latest time of all if no call was broken off. -/
theorem chronological_after {d : Definition} (hv : d.validate.hasErrors = false) {host : Host}
    (hsteady : Monotone host.clock) {bindings : Fields} {id : String} {reads judged invoked : Nat}
    {m : Machine} (hstart : start host d bindings id reads judged invoked = .ok m)
    (calls : List Call) :
    let final := m.after host d calls
    final.run.Chronological ∧
    (∀ more, final.run.Continues (final.after host d more).run) ∧
    (∀ c, BrokenOff host d final c ∨ (final.call host d c).run = final.run ∨
      (final.call host d c).run.UpToDate) ∧
    (BrokenOff host d final .advance →
      (final.call host d .advance).run.updated = final.run.updated) ∧
    ((∀ c earlier later, calls = earlier ++ c :: later →
        ¬ BrokenOff host d (m.after host d earlier) c) → final.run.UpToDate) := by
  intro final
  have hlinked := Definition.linked_of_valid hv
  obtain ⟨initial, -, hadvance⟩ := exists_begun hstart
  have hbegun : Timely host (begun host d bindings id reads judged invoked initial) :=
    timely_begun hsteady
  have hfresh : (begun host d bindings id reads judged invoked initial).run.UpToDate :=
    ⟨le_refl _, nofun, nofun⟩
  have hdated := Dated.advance hlinked hsteady
    (begun host d bindings id reads judged invoked initial)
  rw [hadvance] at hdated
  cases hdated with
  | taken honward hrenewed =>
    have hstarted : Timely host m := (honward hbegun).1
    have hcurrent : m.run.UpToDate := by
      rcases hrenewed hbegun with hsame | hcurrent
      · rw [hsame]
        exact hfresh
      · exact hcurrent
    have hfinal : Timely host final := (onward_after hsteady hlinked m calls hstarted).1
    refine ⟨hfinal.chronological, fun more => (onward_after hsteady hlinked final more hfinal).2,
      fun c => (call_times hsteady hlinked final c).2 hfinal, updated_of_brokenOff hlinked, ?_⟩
    exact upToDate_after hsteady hlinked hstarted hcurrent calls

/-- A host whose clock shows one second more at every reading. -/
def tickingHost : Host := Host.standard (fun n => Timestamp.ofSeconds n) none

theorem monotone_tickingHost : Monotone tickingHost.clock := by
  refine monotone_nat_of_le_succ fun n => ⟨rfl, ?_⟩
  have hsecond : ∀ k : Nat, (tickingHost.clock k).orderKey = k * Timestamp.microsPerSecond := by
    intro k
    change (k : Int) * Timestamp.microsPerSecond - 0 * Timestamp.microsPerSecond = _
    rw [Int.zero_mul, Int.sub_zero]
  rw [hsecond, hsecond, Timestamp.microsPerSecond]
  omega

/-- A guard with more levels than are read. -/
def endlessGuard : String := String.ofList (List.replicate 198 '(')

theorem judge_endlessGuard (bindings : Fields) :
    judge endlessGuard bindings = .error (.interrupted .tooDeep) := by
  have htokens : Guard.tokens endlessGuard = .ok (List.replicate 198 (.sign .opening)) := by
    unfold Guard.tokens endlessGuard
    rw [String.toList_ofList]
    decide +kernel
  have hdeep : Guard.readEither 198 Guard.depthLimit (List.replicate 198 (.sign .opening)) =
      .error .tooDeep := Guard.readEither_openings 198 198 (by decide)
  have hread : Guard.Expression.read endlessGuard = .error .tooDeep := by
    simp only [Guard.Expression.read, htokens, Guard.Expression.ofTokens, Except.mapError, bind,
      Except.bind, List.length_replicate, hdeep]
    rfl
  unfold judge Guard.evaluate Guard.value
  rw [hread]
  rfl

/-- A fork of two branches, the second of which goes on to the join only by a guard that is never
judged. -/
def endlessBranch : Definition where
  name := "stale"
  metadata := ⟨"stale", "", "", some "F"⟩
  states := [⟨startId, .initial, [], "", none⟩, ⟨"F", .fork, [], "", none⟩,
    ⟨"A", .normal, [], "", none⟩, ⟨"B", .normal, [], "", none⟩, ⟨"J", .join, [], "", none⟩,
    ⟨endId, .terminal, [], "", none⟩]
  transitions := [⟨startId, "F", none, none, none⟩, ⟨"F", "A", none, none, none⟩,
    ⟨"F", "B", none, none, none⟩, ⟨"A", "J", none, none, none⟩,
    ⟨"B", "J", some endlessGuard, none, none⟩, ⟨"J", endId, none, none, none⟩]
  regions := []
  notes := []
  distinct := by
    unfold distinctIds
    decide

/-- The ticking host with its answer to the endless guard at hand. -/
theorem tickingHost_eq : tickingHost = ⟨tickingHost.clock, fun _ guard bindings =>
    if guard = endlessGuard then .error (.interrupted .tooDeep) else judge guard bindings,
    tickingHost.invoke⟩ := by
  have hguard : tickingHost.guard = fun _ guard bindings =>
      if guard = endlessGuard then .error (.interrupted .tooDeep) else judge guard bindings := by
    funext asked guard bindings
    change judge guard bindings = _
    split
    · rename_i heq
      rw [heq, judge_endlessGuard]
    · rfl
  rw [← hguard]

/-- The first branch is left at a later time than that of the last update, and the next call makes
good for it. -/
theorem chronological_after_endlessBranch :
    ∃ m, endlessBranch.validate.hasErrors = false ∧ Monotone tickingHost.clock ∧
      start tickingHost endlessBranch [] "run-1" 0 0 0 = .ok m ∧
      let before := m.after tickingHost endlessBranch [.advance]
      let broken := m.after tickingHost endlessBranch [.advance, .advance]
      before.run.UpToDate ∧ BrokenOff tickingHost endlessBranch before .advance ∧
      broken.run.Chronological ∧ before.run.Continues broken.run ∧
      broken.run.updated = before.run.updated ∧ ¬ broken.run.UpToDate ∧
      (broken.call tickingHost endlessBranch .suspend).run.UpToDate := by
  have hv : endlessBranch.validate.hasErrors = false := by decide +kernel
  have htest : succeedsWith (fun m =>
      succeedsWith (fun _ => true) (m.attempt tickingHost endlessBranch .advance) &&
        let broken := m.after tickingHost endlessBranch [.advance, .advance]
        decide (broken.run.updated = Timestamp.ofSeconds 6 ∧
          ⟨"A", Timestamp.ofSeconds 4, some (Timestamp.ofSeconds 7)⟩ ∈ broken.run.history ∧
          broken.run.status = .running ∧
          (broken.call tickingHost endlessBranch .suspend).run.status = .suspended))
      (start tickingHost endlessBranch [] "run-1" 0 0 0) = true := by
    rw [tickingHost_eq]
    decide +kernel
  obtain ⟨m, hstart, htest⟩ := succeedsWith_iff.mp htest
  simp only [Bool.and_eq_true, decide_eq_true_eq] at htest
  obtain ⟨htaken, hupdated, hleft, hrunning, hsuspended⟩ := htest
  obtain ⟨next, hnext, -⟩ := succeedsWith_iff.mp htaken
  have hfirst := chronological_after hv monotone_tickingHost hstart [.advance]
  have hsecond := chronological_after hv monotone_tickingHost hstart [.advance, .advance]
  have hlags : ¬ (m.after tickingHost endlessBranch [.advance, .advance]).run.UpToDate := by
    intro hcurrent
    have hle := hcurrent.exited _ hleft _ rfl
    rw [hupdated] at hle
    exact absurd hle (by decide)
  have hbefore : (m.after tickingHost endlessBranch [.advance]).run.UpToDate := by
    refine hfirst.2.2.2.2 fun c earlier later he hbroken => ?_
    cases earlier with
    | nil =>
      cases he
      obtain ⟨i, hi⟩ := hbroken
      rw [show m.after tickingHost endlessBranch [] = m from rfl, hnext] at hi
      cases hi
    | cons other rest => simp at he
  have hbroken : BrokenOff tickingHost endlessBranch
      (m.after tickingHost endlessBranch [.advance]) .advance := by
    rcases hfirst.2.2.1 .advance with hbroken | hsame | hcurrent
    · exact hbroken
    · exact absurd (hsame ▸ hbefore) hlags
    · exact absurd hcurrent hlags
  refine ⟨m, hv, monotone_tickingHost, hstart, hbefore, hbroken, hsecond.1, hfirst.2.1 [.advance],
    hfirst.2.2.2.1 hbroken, hlags, ?_⟩
  rcases hsecond.2.2.1 .suspend with ⟨i, hi⟩ | hsame | hcurrent
  · obtain ⟨refusal, -, hrefusal⟩ := exists_of_mapError_eq_error hi
    cases hrefusal
  · rw [hsame, hrunning] at hsuspended
    cases hsuspended
  · exact hcurrent

end Machine

end Workflow

end Runbook
