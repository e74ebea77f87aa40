import Runbook.Proofs.Documents
import Runbook.Proofs.Stepping

/-!
What is read from a file of runs, whatever bytes it holds. Bytes that are no JSON count as no runs,
and so does a value that is no list; of a list the records count that are valid. But there are bytes
that are not read at all: those that are no text, and a text with a number that is too long or with
values that are nested too deeply. Runs with and without an offset of their times are kept together
and found, but not listed.
-/
namespace Runbook.Workflow.Store

open Toolkit (shelf filed read_filed rooted_filed steps_filed isWritable writable_of_isWritable)

variable {files : Files} {path : Path} {bytes : ByteArray} {kept : List Run} {f : StoreFault}

/-- The runs that a file holds by its bytes. -/
inductive Holds (bytes : ByteArray) : List Run → Prop
  | noJson {s : String} (text : Files.text? bytes = some s)
      (read : Json.read s = .error .malformed) : Holds bytes []
  | noList {s : String} {v : Value} (text : Files.text? bytes = some s) (read : Json.read s = .ok v)
      (other : ∀ items, v ≠ .list items) : Holds bytes []
  | records {s : String} {items : List Value} (text : Files.text? bytes = some s)
      (read : Json.read s = .ok (.list items)) :
      Holds bytes (items.filterMap fun v => (Run.read v).toOption)

/-- Why the bytes of a file are not read. -/
inductive Unread (bytes : ByteArray) : StoreFault → Prop
  | notText (text : Files.text? bytes = none) : Unread bytes .notText
  | tooManyDigits {s : String} {n : Nat} (text : Files.text? bytes = some s)
      (read : Json.read s = .error (.tooManyDigits n)) : Unread bytes (.tooManyDigits n)
  | tooDeep {s : String} (text : Files.text? bytes = some s)
      (read : Json.read s = .error .tooDeep) : Unread bytes .tooDeep

/-- Any bytes hold runs or are not read. -/
theorem exists_holds_or_unread (bytes : ByteArray) :
    (∃ kept, Holds bytes kept) ∨ ∃ f, Unread bytes f := by
  cases htext : Files.text? bytes with
  | none => exact Or.inr ⟨_, .notText htext⟩
  | some s =>
    cases hread : Json.read s with
    | error fault =>
      cases fault with
      | malformed => exact Or.inl ⟨_, .noJson htext hread⟩
      | tooManyDigits n => exact Or.inr ⟨_, .tooManyDigits htext hread⟩
      | tooDeep => exact Or.inr ⟨_, .tooDeep htext hread⟩
    | ok v =>
      cases v with
      | list items => exact Or.inl ⟨_, .records htext hread⟩
      | _ => exact Or.inl ⟨_, .noList htext hread nofun⟩

/-! The runs of a file. -/

theorem runs_eq_readRuns {s : String} (hfile : files.read path = .ok bytes)
    (htext : Files.text? bytes = some s) : Store.runs files (.file path) = readRuns path s := by
  unfold Store.runs
  dsimp only
  rw [hfile]
  dsimp only
  rw [htext]

theorem runs_of_holds (hfile : files.read path = .ok bytes) (h : Holds bytes kept) :
    (Store.runs files (.file path)).outcome.1 = .ok kept := by
  cases h with
  | noJson htext hread =>
    rw [runs_eq_readRuns hfile htext, readRuns, hread]
    rfl
  | @noList s v htext hread hother =>
    rw [runs_eq_readRuns hfile htext, readRuns, hread]
    cases v with
    | list items => exact absurd rfl (hother items)
    | _ => rfl
  | @records s items htext hread =>
    obtain ⟨records, hrecords⟩ := readRecords_eq path items []
    rw [runs_eq_readRuns hfile htext, readRuns, hread]
    unfold Log.Recorded.outcome
    dsimp only
    rw [hrecords]

theorem runs_of_unread (hfile : files.read path = .ok bytes) (h : Unread bytes f) :
    (Store.runs files (.file path)).outcome.1 = .error f := by
  cases h with
  | notText htext =>
    unfold Store.runs
    dsimp only
    rw [hfile]
    dsimp only
    rw [htext]
    rfl
  | tooManyDigits htext hread =>
    rw [runs_eq_readRuns hfile htext, readRuns, hread]
    rfl
  | tooDeep htext hread =>
    rw [runs_eq_readRuns hfile htext, readRuns, hread]
    rfl

/-! Listings. -/

/-- A listing of runs that are kept: all of them, by the times at which they were made, and those of
one time in the order in which they are kept. -/
structure InOrder (kept rs : List Run) : Prop where
  all : rs.Perm kept
  ordered : rs.Pairwise fun a b => a.created.orderKey ≤ b.created.orderKey
  stable : ∀ time, rs.filter (fun r => r.created.orderKey == time) =
    kept.filter fun r => r.created.orderKey == time

/-- The times at which runs were made have an order: all of them have an offset, or none has. -/
def OneKind (kept : List Run) : Prop :=
  (∀ r ∈ kept, r.created.offset.isSome) ∨ ∀ r ∈ kept, r.created.offset = none

theorem inOrder_mergeSort (kept : List Run) :
    InOrder kept (kept.mergeSort fun a b => decide (a.created.orderKey ≤ b.created.orderKey)) := by
  have htrans : ∀ a b c : Run, decide (a.created.orderKey ≤ b.created.orderKey) = true →
      decide (b.created.orderKey ≤ c.created.orderKey) = true →
      decide (a.created.orderKey ≤ c.created.orderKey) = true := by
    intro a b c hab hbc
    rw [decide_eq_true_eq] at *
    exact hab.trans hbc
  have htotal : ∀ a b : Run, (decide (a.created.orderKey ≤ b.created.orderKey) ||
      decide (b.created.orderKey ≤ a.created.orderKey)) = true := by
    intro a b
    rw [Bool.or_eq_true, decide_eq_true_eq, decide_eq_true_eq]
    exact le_total _ _
  have hperm := List.mergeSort_perm kept fun a b =>
    decide (a.created.orderKey ≤ b.created.orderKey)
  refine ⟨hperm, ?_, fun time => ?_⟩
  · exact (List.pairwise_mergeSort htrans htotal kept).imp of_decide_eq_true
  · -- Runs of one time are in order already, so the sort keeps them as they stand.
    have htime : (kept.filter fun r => r.created.orderKey == time).Pairwise fun a b =>
        decide (a.created.orderKey ≤ b.created.orderKey) = true := by
      refine List.pairwise_iff_forall_sublist.mpr fun hsub => ?_
      obtain ⟨ha, hb⟩ := List.forall_mem_cons.mp fun r hr => (List.mem_filter.mp (hsub.subset hr)).2
      rw [List.forall_mem_singleton] at hb
      rw [decide_eq_true_eq, beq_iff_eq.mp ha, beq_iff_eq.mp hb]
    have hsub := (List.sublist_mergeSort htrans htotal htime List.filter_sublist).filter
      fun r => r.created.orderKey == time
    rw [List.filter_filter] at hsub
    simp only [Bool.and_self] at hsub
    exact (hsub.eq_of_length (hperm.filter _).length_eq.symm).symm

theorem listing_of_oneKind (h : OneKind kept) : ∃ rs, listing kept = .ok rs ∧ InOrder kept rs := by
  refine ⟨_, listing_of_inOrder? (if_pos ?_), inOrder_mergeSort kept⟩
  rw [Bool.or_eq_true, List.all_eq_true, List.all_eq_true]
  exact h.imp id fun hnone r hr => Option.isNone_iff_eq_none.mpr (hnone r hr)

theorem listing_of_not_oneKind (h : ¬ OneKind kept) : listing kept = .error .unordered := by
  have hnone : inOrder? kept = none := if_neg fun hall => h ?_
  · unfold listing
    rw [hnone]
  rw [Bool.or_eq_true, List.all_eq_true, List.all_eq_true] at hall
  exact hall.imp id fun hnone r hr => Option.isNone_iff_eq_none.mp (hnone r hr)

/-- Whatever bytes a file of runs holds, they hold runs or are not read. The runs that they hold are
found, each the first one with its identifier, and listed in the order of the times at which they
were made, unless these have no order. Where the bytes are not read, nothing is found or listed, for
the same reason. -/
theorem found_and_listed_of_bytes (hfile : files.read path = .ok bytes) :
    ((∃ kept, Holds bytes kept) ∨ ∃ f, Unread bytes f) ∧
    (∀ kept, Holds bytes kept →
      (∀ id, (Store.get files id (.file path)).outcome.1 =
        .ok (kept.find? fun r => r.id == id)) ∧
      (OneKind kept → ∃ rs, (Store.list files (.file path)).outcome.1 = .ok rs ∧ InOrder kept rs) ∧
      (¬ OneKind kept → (Store.list files (.file path)).outcome.1 = .error .unordered)) ∧
    ∀ f, Unread bytes f →
      (∀ id, (Store.get files id (.file path)).outcome.1 = .error f) ∧
      (Store.list files (.file path)).outcome.1 = .error f := by
  refine ⟨exists_holds_or_unread bytes, fun kept hkept => ?_, fun f hf => ?_⟩
  · have hruns := runs_of_holds hfile hkept
    refine ⟨fun id => ?_, fun hkind => ?_, fun hmixed => ?_⟩
    · rw [outcome_get, hruns]
      rfl
    · obtain ⟨rs, hlisting, hrs⟩ := listing_of_oneKind hkind
      refine ⟨rs, ?_, hrs⟩
      rw [outcome_list, hruns]
      exact hlisting
    · rw [outcome_list, hruns]
      exact listing_of_not_oneKind hmixed
  · have hruns := runs_of_unread hfile hf
    refine ⟨fun id => ?_, ?_⟩
    · rw [outcome_get, hruns]
      rfl
    · rw [outcome_list, hruns]
      rfl

/-- A list of a number and a record. -/
def strayNumber : String :=
  "[7, \x7b\"run_id\": \"r\", \"workflow_name\": \"w\", " ++
    "\"created_at\": \"2024-01-01T00:00:00Z\", \"updated_at\": \"2024-01-01T00:00:00Z\"\x7d]"

/-- The number is left out and the record counts; a file of one byte that begins no text is not
read. -/
theorem found_and_listed_of_strays :
    (filed strayNumber.toUTF8).read shelf = .ok strayNumber.toUTF8 ∧
      (∃ r, r.id = "r" ∧
        (Store.get (filed strayNumber.toUTF8) "r" (.file shelf)).outcome.1 = .ok (some r) ∧
        (Store.list (filed strayNumber.toUTF8) (.file shelf)).outcome.1 = .ok [r]) ∧
      (filed ⟨#[0xff]⟩).read shelf = .ok ⟨#[0xff]⟩ ∧
      (∀ id, (Store.get (filed ⟨#[0xff]⟩) id (.file shelf)).outcome.1 = .error .notText) ∧
      (Store.list (filed ⟨#[0xff]⟩) (.file shelf)).outcome.1 = .error .notText := by
  have htext : Files.text? strayNumber.toUTF8 = some strayNumber :=
    Files.text?_toUTF8 (by decide +kernel)
  have htest : succeedsWith (fun kept => kept.length == 1 && kept.all fun r =>
      r.id == "r" && r.created.offset.isSome) (readRuns shelf strayNumber).outcome.1 = true := by
    decide +kernel
  rw [ ← runs_eq_readRuns (read_filed strayNumber.toUTF8) htext] at htest
  obtain ⟨hsome, hkeeps, -⟩ := found_and_listed_of_bytes (read_filed strayNumber.toUTF8)
  obtain ⟨kept, hkept⟩ | ⟨f, hf⟩ := hsome
  · rw [runs_of_holds (read_filed _) hkept] at htest
    obtain ⟨hone, hrun⟩ := Bool.and_eq_true_iff.mp htest
    obtain ⟨r, rfl⟩ := List.length_eq_one_iff.mp (beq_iff_eq.mp hone)
    obtain ⟨hid, hoffset⟩ := Bool.and_eq_true_iff.mp
      (List.all_eq_true.mp hrun r List.mem_cons_self)
    obtain ⟨hget, hlist, -⟩ := hkeeps [r] hkept
    obtain ⟨rs, hrs, horder⟩ := hlist (Or.inl (List.forall_mem_singleton.mpr hoffset))
    obtain rfl := List.perm_singleton.mp horder.all
    obtain ⟨-, -, hunread⟩ := found_and_listed_of_bytes (read_filed ⟨#[0xff]⟩)
    obtain ⟨hget', hlist'⟩ := hunread .notText (.notText (by decide +kernel))
    refine ⟨read_filed _, ⟨r, beq_iff_eq.mp hid, ?_, hrs⟩, read_filed _, hget', hlist'⟩
    rw [hget "r", List.find?_cons, hid]
  · rw [runs_of_unread (read_filed _) hf] at htest
    cases htest

/-! Files that are written line by line. -/

/-- Two runs that a file takes, and the record of the first, which is called odd, is read back as
another run. -/
structure Renamed (odd r odd' : Run) : Prop where
  id : odd.id = "odd"
  other : r.id = "run-1"
  writable : ∀ q ∈ [odd, r], (Store.file shelf).Writable q
  read : Run.read odd.record.collapse = .ok odd'
  back : odd'.id = "odd"
  changed : odd' ≠ odd

/-- Whatever is put for the other run, the one called odd is changed by it. -/
theorem Renamed.get_put {odd r odd' q : Run} (h : Renamed odd r odd')
    (hkept : (Store.runs (filed bytes) (.file shelf)).outcome.1 = .ok [odd, r])
    (hid : q.id = "run-1") (hsound : (Value.record q.bindings).Sound)
    (hwritable : (Store.file shelf).Writable q) :
    (put (filed bytes) q (.file shelf)).fault? = none ∧
      (Store.get (filed bytes) "odd" (.file shelf)).outcome.1 = .ok (some odd) ∧
      (Store.get (put (filed bytes) q (.file shelf)).files "odd" (.file shelf)).outcome.1 =
        .ok (some odd') := by
  have hreplaced : replaceFirst q [odd, r] = [odd, q] := by
    rw [replaceFirst, if_neg (by rw [h.id, hid]; decide), replaceFirst,
      if_pos (h.other.trans hid.symm)]
  have hput : (put (filed bytes) q (.file shelf)).fault? = none :=
    put_of_way hkept ⟨bytes, _, steps_filed bytes bytes⟩ h.writable hwritable
  have hruns := runs_put_file_eq (rooted_filed bytes) hkept hsound hput
  rw [hreplaced, List.filterMap_cons, h.read] at hruns
  refine ⟨hput, get_eq_iff.mpr ⟨_, hkept, ?_⟩, get_eq_iff.mpr ⟨_, hruns, ?_⟩⟩
  · simp [h.id]
  · simp [h.back, Except.toOption]

end Runbook.Workflow.Store
