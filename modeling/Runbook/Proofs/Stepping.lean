import Runbook.Proofs.Resumption
import Runbook.Proofs.StoredSteps

/-!
Stepping through the store. A run that is taken on step by step, read from the store and put back
each time, ends as one that takes the same steps in one go.
-/
namespace Runbook

open Workflow

variable {around : Surroundings} {s s' : Session} {id : String} {r : Run} {d : Definition}

/-! What is done. -/

/-- What is done besides writing to the log. -/
def deeds (j : Journal) : Journal :=
  j.filter fun e => match e with
    | .logged _ => false
    | _ => true

theorem deeds_append (j j' : Journal) : deeds (j ++ j') = deeds j ++ deeds j' :=
  List.filter_append ..

theorem deeds_logged (records : List Log.Record) : deeds (records.map .logged) = [] := by
  induction records with
  | nil => rfl
  | cons r rest ih => exact ih

theorem filterMap_deeds {α : Type} {f : Entry → Option α} (h : ∀ r, f (.logged r) = none)
    (j : Journal) : (deeds j).filterMap f = j.filterMap f := by
  induction j with
  | nil => rfl
  | cons e rest ih =>
    cases e with
    | logged r =>
      rw [List.filterMap_cons, h r]
      exact ih
    | _ =>
      change List.filterMap f (_ :: deeds rest) = _
      rw [List.filterMap_cons, List.filterMap_cons, ih]

/-- The clock was read as often in one session as in the other, and the same was done: the same
events, waits and prompt lookups. -/
structure Session.Alike (s s' : Session) : Prop where
  reads : s.reads = s'.reads
  sleeps : s.journal.sleeps = s'.journal.sleeps
  lookups : s.journal.lookups = s'.journal.lookups
  events : s.journal.events = s'.journal.events

theorem Session.alike_of_deeds (hreads : s.reads = s'.reads)
    (hdeeds : deeds s.journal = deeds s'.journal) : s.Alike s' := by
  refine ⟨hreads, ?_, ?_, ?_⟩
  all_goals
    refine (filterMap_deeds (fun _ => rfl) _).symm.trans ?_
    rw [hdeeds]
    exact filterMap_deeds (fun _ => rfl) _

namespace Toolkit

/-! Steps. -/

theorem deeds_following (s : Session) (records : List Log.Record) (m : Machine) :
    deeds ((s.having records).following m).journal = deeds s.journal ++ deeds m.journal := by
  change deeds (s.journal ++ records.map .logged ++ m.journal) = _
  rw [deeds_append, deeds_append, deeds_logged, List.append_nil]

theorem deeds_keeping (s : Session) (records : List Log.Record) (m : Machine) (run : Run) :
    deeds (((s.having records).following m).keeping run).journal =
      deeds s.journal ++ deeds m.journal := by
  refine (deeds_append ..).trans ?_
  rw [deeds_following, deeds_logged, List.append_nil]

/-- Steps of a stored run, each read from the store and put back. -/
def advances (around : Surroundings) (id : String) : Nat → Work Unit
  | 0 => pure ()
  | n + 1 => do
    let _ ← advance around id
    advances around id n

/-- A step of a run that is not running leaves it as it is. -/
theorem eq_log_of_stopped {host : Host} {m first : Machine} (hstopped : m.isRunning = false)
    (h : m.advance host d = .ok first) :
    first = m.log Log.info "Run not advanced" [("status", .text m.run.status.name)] := by
  unfold Machine.advance at h
  split at h
  · cases h
  · rw [hstopped] at h
    cases h
    rfl

/-- A step and then others, taken up again after the first, are those steps in one go. -/
theorem exists_steps_succ {host : Host} (hhost : host.Indifferent) {m first last : Machine}
    {n : Nat} (hnew : m.anew = m) (hfirst : m.advance host d = .ok first)
    (hlast : first.anew.steps host d n = .ok last) :
    ∃ m', m.steps host d (n + 1) = .ok m' ∧ m'.run = last.run ∧ m'.reads = last.reads ∧
      deeds m'.journal = deeds first.journal ++ deeds last.journal := by
  by_cases hrunning : m.isRunning = true
  · have hsteps := Machine.since_steps first.past hhost d n (m := first.anew)
    rw [Machine.since_past, hlast] at hsteps
    refine ⟨last.since first.past, ?_, rfl, rfl, deeds_append ..⟩
    unfold Machine.steps
    rw [if_pos hrunning, hfirst]
    exact hsteps
  · have hstopped : m.isRunning = false := Bool.eq_false_iff.mpr hrunning
    have hjournal : m.journal = [] := congrArg Machine.journal hnew.symm
    have hsame : first.anew = m := by
      rw [eq_log_of_stopped hstopped hfirst]
      exact hnew
    rw [hsame, Machine.steps_of_stopped host d n hstopped] at hlast
    cases hlast
    refine ⟨m, Machine.steps_of_stopped host d (n + 1) hstopped, rfl, rfl, ?_⟩
    rw [eq_log_of_stopped hstopped hfirst]
    change _ = deeds (m.journal ++ _) ++ _
    rw [hjournal]
    rfl

/-- Where all steps through the store go well, the same steps in one go lead to the run that is
stored after the last of them. -/
theorem exists_steps (h : Resumable around id r d s) {n : Nat}
    (hadvances : (advances around id n).run.run s = (.ok (), s')) :
    ∃ m, Machine.steps (s.host around) d n ⟨r, s.reads, 0, 0, []⟩ = .ok m ∧
      Resumable around id m.run d s' ∧ s'.host around = s.host around ∧ m.reads = s'.reads ∧
      deeds s'.journal = deeds s.journal ++ deeds m.journal ∧
      Run.Later (s.host around) d r m.run ∧
      (0 < n → (s.toolkit.store.put s.files m.run).fault? = none) := by
  induction n generalizing s r with
  | zero =>
    cases hadvances
    exact ⟨_, rfl, h, rfl, rfl, (List.append_nil _).symm, Run.Later.refl r, nofun⟩
  | succ n ih =>
    obtain ⟨run, between, hstep, hrest⟩ := exists_of_run_bind_eq_ok hadvances
    rw [advance_eq] at hstep
    obtain ⟨records, first, hfirst, rfl, hput, rfl⟩ := exists_of_takeOn_eq_ok h hstep
    have hlater := Machine.later_advance hfirst
    obtain ⟨last, hsteps, hlast, hhost, hreads, hdeeds, hlaterLast, hputLast⟩ :=
      ih (h.keeping hlater hput) hrest
    obtain ⟨m, hm, hrun, hclock, hdone⟩ :=
      exists_steps_succ (s.indifferent_host around) rfl hfirst hsteps
    refine ⟨m, hm, hrun ▸ hlast, hhost, hclock.trans hreads, ?_, ?_, fun _ => ?_⟩
    · rw [hdeeds, hdone, deeds_keeping, List.append_assoc]
    · rw [hrun]
      exact hlater.trans hlaterLast
    · rw [hrun]
      cases n with
      | zero =>
        cases hsteps
        exact hput
      | succ n =>
        have hwritable := Store.writable_of_put (hputLast (Nat.succ_pos n))
        refine Store.put_of_writable hput hlaterLast.id ?_
        exact (Store.writable_put s.files first.run).mp hwritable

/-- After its steps a run in one go writes to the log at most. -/
theorem exists_settle {host : Host} {m m' : Machine} {n : Nat} (h : m.steps host d n = .ok m') :
    ∃ last, m.settle host d n = .ok last ∧ last.run = m'.run ∧ last.reads = m'.reads ∧
      deeds last.journal = deeds m'.journal := by
  have hsettle : m.settle host d n = if m'.isRunning then
      .ok (m'.log Log.warning "Run still running after step limit" [("max_steps", .int n)])
      else .ok m' := by
    unfold Machine.settle
    rw [Int.toNat_natCast, h]
    rfl
  rw [hsettle]
  split
  · refine ⟨_, rfl, rfl, rfl, ?_⟩
    exact (deeds_append ..).trans (List.append_nil _)
  · exact ⟨_, rfl, rfl, rfl, rfl⟩

/-- Where all of some calls that each take one step go well, the one call that takes so many steps
goes well too, and leaves the same run in the store. -/
theorem settle_ok_of_advances (h : Resumable around id r d s) {n : Nat}
    (hput : n = 0 → (s.toolkit.store.put s.files r).fault? = none)
    (hadvances : (advances around id n).run.run s = (.ok (), s')) :
    ∃ run s'', (settle around id (some n)).run.run s = (.ok run, s'') ∧ s''.Alike s' ∧
      (s'.toolkit.store.get s'.files id).outcome.1 = .ok (some run) ∧
      (s''.toolkit.store.get s''.files id).outcome.1 = .ok (some run) := by
  obtain ⟨m, hm, hlast, -, hreads, hdeeds, hlater, hputLast⟩ := exists_steps h hadvances
  obtain ⟨last, hsettle, hrun, hclock, hdone⟩ := exists_settle hm
  have hputRun : (s.toolkit.store.put s.files last.run).fault? = none := by
    rw [hrun]
    cases n with
    | zero =>
      cases hm
      exact hput rfl
    | succ n => exact hputLast (Nat.succ_pos n)
  obtain ⟨records, htaken⟩ := run_takeOn_of_ok h (f := fun host d m => m.settle host d n) hsettle
    hputRun
  have hkept : Resumable around id last.run d
      (((s.having records).following last).keeping last.run) := h.keeping (hrun ▸ hlater) hputRun
  refine ⟨last.run, _, htaken, Session.alike_of_deeds (hclock.trans hreads) ?_,
    hrun ▸ hlast.found, hkept.found⟩
  rw [deeds_keeping, hdeeds, hdone]

theorem isRunning_of_interrupted {host : Host} {m : Machine} {i : Interrupted}
    (h : m.advance host d = .error (.interrupted i)) : m.isRunning = true := by
  by_contra hstopped
  unfold Machine.advance at h
  rw [Bool.eq_false_iff.mpr hstopped] at h
  split at h <;> cases h

/-- Where the step after some others breaks off, so do all longer runs of steps. -/
theorem steps_of_broken {host : Host} {m last : Machine} {refusal : Machine.Refusal} {n : Nat}
    (hsteps : m.steps host d n = .ok last) (hrunning : last.isRunning = true)
    (hbroken : last.advance host d = .error refusal) (k : Nat) :
    m.steps host d (n + k + 1) = .error refusal := by
  induction n generalizing m with
  | zero =>
    cases hsteps
    unfold Machine.steps
    rw [if_pos hrunning, hbroken]
    rfl
  | succ n ih =>
    have hgoing : m.isRunning = true := by
      by_contra hstopped
      rw [Machine.steps_of_stopped host d (n + 1) (Bool.eq_false_iff.mpr hstopped)] at hsteps
      cases hsteps
      exact hstopped hrunning
    unfold Machine.steps at hsteps
    rw [if_pos hgoing] at hsteps
    obtain ⟨next, hnext, hrest⟩ := bind_eq_ok_iff.mp hsteps
    rw [show n + 1 + k + 1 = n + k + 1 + 1 by omega]
    unfold Machine.steps
    rw [if_pos hgoing, hnext]
    exact ih hrest

/-- Calls that break off do so in one of them, after others that went well. -/
theorem exists_of_advances_eq_error {n : Nat} {f : ToolkitFault}
    (h : (advances around id n).run.run s = (.error f, s')) :
    ∃ before after between, n = before + after + 1 ∧
      (advances around id before).run.run s = (.ok (), between) ∧
      (advance around id).run.run between = (.error f, s') := by
  induction n generalizing s with
  | zero => cases h
  | succ n ih =>
    rcases hfirst : (advance around id).run.run s with ⟨_ | run, next⟩
    · have hall : (advances around id (n + 1)).run.run s = _ := run_bind_of_error hfirst _
      rw [h] at hall
      cases hall
      exact ⟨0, n, s, by omega, rfl, hfirst⟩
    · have hall : (advances around id (n + 1)).run.run s = _ := run_bind_of_ok hfirst _
      rw [h] at hall
      obtain ⟨before, after, between, hn, hbefore, hbroken⟩ := ih hall.symm
      exact ⟨before + 1, after, between, by omega, (run_bind_of_ok hfirst _).trans hbefore, hbroken⟩

/-- Where one of some calls that each take one step breaks off, the one call that takes so many
steps breaks off for the same reason. It leaves the store as it was before the first of them. -/
theorem settle_interrupted_of_advances (h : Resumable around id r d s) {n : Nat}
    {why : Interruption}
    (hadvances : (advances around id n).run.run s = (.error (.interrupted why), s')) :
    ∃ s'', (settle around id (some n)).run.run s = (.error (.interrupted why), s'') ∧
      s''.Alike s' ∧ s''.toolkit = s.toolkit ∧ s''.files = s.files := by
  obtain ⟨before, after, between, rfl, hbefore, hbroken⟩ := exists_of_advances_eq_error hadvances
  obtain ⟨m, hm, hlast, hhost, hreads, hdeeds, -⟩ := exists_steps h hbefore
  rw [advance_eq] at hbroken
  obtain ⟨records, i, hi, rfl, rfl⟩ := exists_of_takeOn_eq_interrupted hlast hbroken
  rw [hhost, ← hreads] at hi
  have hlong : m.advance (s.host around) d =
      .error (.interrupted ⟨i.why, i.machine.since m.past⟩) := by
    have hsince := Machine.since_advance m.past (s.indifferent_host around) d (m := m.anew)
    rw [Machine.since_past] at hsince
    exact hsince.trans (congrArg (Machine.resumed m.past) hi)
  have hsettle : Machine.settle (s.host around) d (before + after + 1 : Nat)
      ⟨r, s.reads, 0, 0, []⟩ = .error (.interrupted ⟨i.why, i.machine.since m.past⟩) := by
    unfold Machine.settle
    rw [Int.toNat_natCast, steps_of_broken hm (isRunning_of_interrupted hlong) hlong after]
    rfl
  obtain ⟨records, htaken⟩ := run_takeOn_of_interrupted h
    (f := fun host d m => m.settle host d (before + after + 1 : Nat)) hsettle
  refine ⟨_, htaken, Session.alike_of_deeds rfl ?_, rfl, rfl⟩
  rw [deeds_following, deeds_following, hdeeds, List.append_assoc]
  exact congrArg (deeds s.journal ++ ·) (deeds_append m.journal i.machine.journal)

/-- Calls that each take one step and the one call that takes so many come to the same. If all of
them go well, so does the one, and it leaves the same run in the store; without any step, the run
has to be one that can be put. If one of them breaks off, so does the one, and for the same reason,
but the store then still holds the run as it was before the first of them. Either way the clock is
read as often, and the same is done. -/
theorem settle_of_advances (h : Resumable around id r d s) (n : Nat)
    (hput : n = 0 → (s.toolkit.store.put s.files r).fault? = none) :
    (∀ s', (advances around id n).run.run s = (.ok (), s') →
      ∃ run s'', (settle around id (some n)).run.run s = (.ok run, s'') ∧ s''.Alike s' ∧
        (s'.toolkit.store.get s'.files id).outcome.1 = .ok (some run) ∧
        (s''.toolkit.store.get s''.files id).outcome.1 = .ok (some run)) ∧
    (∀ why s', (advances around id n).run.run s = (.error (.interrupted why), s') →
      ∃ s'', (settle around id (some n)).run.run s = (.error (.interrupted why), s'') ∧
        s''.Alike s' ∧ (s''.toolkit.store.get s''.files id).outcome.1 = .ok (some r)) := by
  refine ⟨fun s' hs' => settle_ok_of_advances h hput hs', fun why s' hs' => ?_⟩
  obtain ⟨s'', hsettle, halike, htoolkit, hfiles⟩ := settle_interrupted_of_advances h hs'
  refine ⟨s'', hsettle, halike, ?_⟩
  rw [htoolkit, hfiles]
  exact h.found

/-! A run that is kept in a file and takes two steps. -/

/-- Two states that each bind a variable when they are entered. -/
def relay : Definition where
  name := "relay"
  metadata := ⟨"relay", "", "1", some "Fetch"⟩
  states := [⟨startId, .initial, [], "", none⟩,
    ⟨"Fetch", .normal, [.set "stage" "first"], "", none⟩,
    ⟨"Carry", .normal, [.set "stage" "last"], "", none⟩, ⟨endId, .terminal, [], "", none⟩]
  transitions := [⟨startId, "Fetch", none, none, some 3⟩, ⟨"Fetch", "Carry", none, none, some 4⟩,
    ⟨"Carry", endId, none, none, some 5⟩]
  regions := []
  notes := []
  distinct := show [startId, "Fetch", "Carry", endId].Nodup by decide

/-- A clock that goes on by a second each time it is read, and starts again every day. -/
def daily : Surroundings where
  clock := fun n => ⟨(n % 86400 : Nat) * 1000000, some 0⟩
  identifier := fun _ => "run-1"

theorem recordable_daily (n : Nat) : (daily.clock n).Recordable := by
  have hday : n % 86400 < 86400 := Nat.mod_lt n (by decide)
  have hmicros : Timestamp.microsPerDay = 86400000000 := by decide
  refine ⟨?_, ?_, ?_⟩
  · change -719162 * Timestamp.microsPerDay ≤ ((n % 86400 : Nat) : Int) * 1000000
    omega
  · change ((n % 86400 : Nat) : Int) * 1000000 < 2932897 * Timestamp.microsPerDay
    omega
  · intro o ho
    cases ho
    decide

/-- A run of the relay after its start. -/
def relayed : Run where
  id := "run-1"
  workflow := "relay"
  status := .running
  current := ["Fetch"]
  pending := []
  history := [⟨"Fetch", daily.clock 1, none⟩]
  bindings := [("stage", .text "first")]
  failure := none
  created := daily.clock 0
  updated := daily.clock 2

theorem recordable_relayed : relayed.Recordable where
  created := recordable_daily 0
  updated := recordable_daily 2
  visits := by
    intro v hv
    rw [List.mem_singleton.mp hv]
    exact ⟨recordable_daily 1, nofun⟩
  pending := List.nodup_nil
  bindings := Value.sound_record.mpr ⟨by decide, by
    intro f hf
    rw [List.mem_singleton.mp hf]
    trivial⟩
  durable := rfl

def shelf : Path := ⟨true, ["runs"]⟩

/-- Files with one file, at the root. -/
def filed (bytes : ByteArray) : Files := ⟨[(["runs"], .file bytes)], []⟩

theorem read_filed (bytes : ByteArray) : (filed bytes).read shelf = .ok bytes := by
  have hlocate : (filed bytes).locate shelf = .ok ["runs"] := rfl
  refine bind_eq_ok_iff.mpr ⟨_, hlocate, rfl⟩

theorem rooted_filed (bytes : ByteArray) : (filed bytes).Rooted := by
  intro location hsome
  match location with
  | [] | [_] => rfl
  | _ :: name :: rest =>
    change (Files.find? _ _).isSome = true at hsome
    rw [filed, Files.find?, if_neg (by simp)] at hsome
    cases hsome

theorem steps_filed (bytes bytes' : ByteArray) :
    (filed bytes).steps (Files.replacing shelf bytes') = (filed bytes', none) := by
  have hroot : (filed bytes).isDirectory ⟨true, []⟩ = true := rfl
  exact Files.steps_replacing_iff.mpr ⟨filed bytes, Files.makeDirectories_of_isDirectory hroot,
    ["runs.tmp"], ["runs"], rfl, nofun, rfl, rfl, nofun, rfl⟩

/-- A session whose store is a file with one run of the relay. -/
def shelved : Session where
  toolkit := { Toolkit.new ⟨true, []⟩ ⟨true, []⟩ ".toolsmith" 100 (.file shelf) with
    registry := [("relay", relay)]
    loaded := true }
  files := filed (Store.textOf [relayed]).toUTF8
  reads := 3
  named := 1
  journal := []

theorem whole_relayed : relayed.record.Whole := by
  unfold Value.Whole
  decide +kernel

theorem runs_shelved : (Store.runs shelved.files (.file shelf)).outcome.1 = .ok [relayed] := by
  have hread : (Run.read relayed.record.collapse).toOption = some relayed := by
    rw [Value.collapse_of_sound recordable_relayed.sound_record,
      recordable_relayed.read_record whole_relayed]
    rfl
  change (Store.runs (filed _) (.file shelf)).outcome.1 = _
  rw [Store.runs_of_read (read_filed _)]
  · rw [List.filterMap_cons, hread, List.filterMap_nil]
  · rw [List.forall_mem_singleton]
    exact recordable_relayed.bindings
  · decide

theorem resumable_shelved : Resumable daily "run-1" relayed relay shelved where
  loaded := rfl
  workflow := rfl
  found := Store.get_eq_iff.mpr ⟨[relayed], runs_shelved, rfl⟩
  suits := .file (rooted_filed _) recordable_daily (by decide) rfl

theorem put_shelved {q : Run} (hid : q.id = "run-1") (hq : (Store.file shelf).Writable q) :
    (shelved.toolkit.store.put shelved.files q).fault? = none := by
  have hone : Store.replaceFirst q [relayed] = [q] := if_pos hid.symm
  refine Store.put_file_of_save runs_shelved (Store.save_eq_iff.mpr ⟨?_, steps_filed _ _⟩)
  rw [hone, List.forall_mem_singleton]
  exact hq

/-- Whether a file takes a run, as a test. -/
def isWritable (r : Run) : Bool :=
  decide (Store.levels r < Store.recordLimit) && r.record.texts.all fun s => !Text.hasHalves s

theorem writable_of_isWritable {q : Run} {path : Path} (h : isWritable q = true) :
    (Store.file path).Writable q := by
  obtain ⟨hlevels, htexts⟩ := Bool.and_eq_true_iff.mp h
  refine ⟨of_decide_eq_true hlevels, fun s hs => ?_⟩
  exact (Bool.not_eq_true' _).mp (List.all_eq_true.mp htexts s hs)

/-- Both steps of the relay go well, so the one call that takes both does. -/
theorem settle_of_advances_shelved :
    ∃ s' run s'', (advances daily "run-1" 2).run.run shelved = (.ok (), s') ∧
      (settle daily "run-1" (some 2)).run.run shelved = (.ok run, s'') ∧ s''.Alike s' ∧
      (s'.toolkit.store.get s'.files "run-1").outcome.1 = .ok (some run) ∧
      (s''.toolkit.store.get s''.files "run-1").outcome.1 = .ok (some run) := by
  have htest : succeedsWith (fun m => isWritable m.run &&
      succeedsWith (fun m' => isWritable m'.run) (m.anew.advance (shelved.host daily) relay))
      (Machine.advance (shelved.host daily) relay ⟨relayed, shelved.reads, 0, 0, []⟩) = true := by
    decide +kernel
  obtain ⟨first, hfirst, htest⟩ := succeedsWith_iff.mp htest
  obtain ⟨hwritable, htest⟩ := Bool.and_eq_true_iff.mp htest
  obtain ⟨last, hlast, hwritableLast⟩ := succeedsWith_iff.mp htest
  have hlater := Machine.later_advance hfirst
  have hput := put_shelved hlater.id (writable_of_isWritable hwritable)
  obtain ⟨records, hone⟩ := run_takeOn_of_ok resumable_shelved hfirst hput
  have hfaithful := hlater.recordable (Host.retains_standard recordable_daily (by decide))
    recordable_relayed
  have hrooted : shelved.files.Rooted := rooted_filed _
  have hputLast := Store.put_put_file hrooted runs_shelved
    (List.forall_mem_singleton.mpr recordable_relayed) hfaithful hput
    (writable_of_isWritable hwritableLast)
  rw [← Session.put_keeping (s := shelved) rfl records first first.run last.run] at hputLast
  rw [← Session.host_keeping shelved records first first.run] at hlast
  obtain ⟨records', htwo⟩ := run_takeOn_of_ok (resumable_shelved.keeping hlater hput)
    (f := fun host d m => m.advance host d) hlast hputLast
  have hadvances : (advances daily "run-1" 2).run.run shelved = (.ok (), _) :=
    (run_bind_of_ok hone _).trans (run_bind_of_ok htwo _)
  obtain ⟨run, s'', hsettle⟩ :=
    (settle_of_advances resumable_shelved 2 nofun).1 _ hadvances
  exact ⟨_, run, s'', hadvances, hsettle⟩

end Toolkit

end Runbook
