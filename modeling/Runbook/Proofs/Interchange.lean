import Runbook.Proofs.Puts

/-!
The two stores in each other's place. A store in a file and one in memory answer every sequence of
calls in the same way, if the runs are of a kind that both hold: texts without halves, integers that
are not too long, variables that are not nested too deeply, and times with offsets of whole minutes.
What they answer is the run that was put last, or all of these in the order of their times.
-/
namespace Runbook.Workflow

/-- A run that both stores hold. Its times can be recorded and the first of them has a place in the
order of all; no text in it has halves; its variables are values of JSON and not nested too deeply.
-/
structure Run.Portable (r : Run) : Prop where
  aware : r.created.offset.isSome
  created : r.created.Recordable
  updated : r.updated.Recordable
  visits : ∀ v ∈ r.history, v.entered.Recordable ∧ ∀ t ∈ v.exited, t.Recordable
  pending : (Keyed.keys r.pending).Nodup
  sound : (Value.record r.bindings).Sound
  legible : (Value.record r.bindings).Legible
  whole : (Value.record r.bindings).Whole
  texts : r.record.Whole
  shallow : Store.levels r < Store.recordLimit

theorem Run.Portable.recordable {r : Run} (h : r.Portable) : r.Recordable :=
  ⟨h.created, h.updated, h.visits, h.pending, h.sound, storable_eq_self h.legible h.whole⟩

namespace Store

/-! Calls. -/

inductive Request where
  | put (r : Run)
  | get (id : String)
  | list

inductive Answer where
  | done
  | found (r : Option Run)
  | listed (rs : List Run)
  | refused (f : StoreFault)

/-- What a store is asked to give, as an answer. -/
def answerOf {α : Type} (given : α → Answer) : Except StoreFault α → Answer
  | .ok a => given a
  | .error f => .refused f

/-- A store, and the files that it may use. -/
structure Shelf where
  files : Files
  store : Store

namespace Shelf

/-- What a call answers, and what there is afterwards. -/
def call (s : Shelf) : Request → Answer × Shelf
  | .put r =>
    let p := put s.files r s.store
    (match p.fault? with | none => .done | some f => .refused f, ⟨p.files, p.store⟩)
  | .get id => (answerOf .found (s.store.get s.files id).outcome.1, s)
  | .list => (answerOf .listed (s.store.list s.files).outcome.1, s)

/-- What there is after some calls. -/
def after (s : Shelf) (calls : List Request) : Shelf :=
  calls.foldl (fun s c => (s.call c).2) s

end Shelf

/-- The runs that some calls put. -/
def putsOf (calls : List Request) : List Run :=
  calls.filterMap fun | .put r => some r | _ => none

/-- What a call is to answer after some puts. -/
def Answers (puts : List Run) : Request → Answer → Prop
  | .put _, a => a = .done
  | .get id, a => a = .found (latest? puts id)
  | .list, a => ∃ rs, a = .listed rs ∧ Lists puts rs

variable {puts : List Run} {c : Request} {a a' : Answer} {r : Run}

/-- A call has one answer. -/
theorem Answers.unique (h : Answers puts c a) (h' : Answers puts c a') : a = a' := by
  cases c with
  | put r => exact h.trans h'.symm
  | get id => exact h.trans h'.symm
  | list =>
    obtain ⟨rs, rfl, hrs⟩ := h
    obtain ⟨rs', rfl, hrs'⟩ := h'
    rw [hrs.unique hrs']

theorem putsOf_append (calls more : List Request) :
    putsOf (calls ++ more) = putsOf calls ++ putsOf more := List.filterMap_append ..

theorem mem_putsOf {calls : List Request} : r ∈ putsOf calls ↔ .put r ∈ calls := by
  unfold putsOf
  rw [List.mem_filterMap]
  constructor
  · rintro ⟨c, hc, hput⟩
    cases c with
    | put q =>
      cases hput
      exact hc
    | get id => cases hput
    | list => cases hput
  · exact fun h => ⟨.put r, h, rfl⟩

/-! One call. -/

/-- A run that is put is kept unless there is a fault. -/
theorem Shelf.call_put_eq_done_iff {s : Shelf} :
    (s.call (.put r)).1 = .done ↔ (Store.put s.files r s.store).fault? = none := by
  unfold call
  dsimp only
  cases (Store.put s.files r s.store).fault? with
  | none => exact iff_of_true rfl rfl
  | some f => exact iff_of_false nofun nofun

/-- A shelf that keeps just what some puts leave, and on which more can be put. -/
def Shelf.Keeps (puts : List Run) : Shelf → Prop
  | ⟨_, .memory entries⟩ => (∀ e ∈ entries, e.1 = e.2.id) ∧ entries.map (·.2) = keptAfter puts
  | ⟨files, .file path⟩ => files.Rooted ∧
    (Store.runs files (.file path)).outcome.1 = .ok (keptAfter puts) ∧
      ∃ bytes g, files.steps (Files.replacing path bytes) = (g, none)

theorem Shelf.Keeps.runs {s : Shelf} (h : s.Keeps puts) :
    (s.store.runs s.files).outcome.1 = .ok (keptAfter puts) := by
  obtain ⟨files, entries | path⟩ := s
  · rw [← h.2]
    rfl
  · exact h.2.1

theorem list_eq_ok {files : Files} {s : Store} {kept rs : List Run}
    (hruns : (s.runs files).outcome.1 = .ok kept) (horder : inOrder? kept = some rs) :
    (s.list files).outcome.1 = .ok rs := by
  rw [outcome_list, hruns]
  exact listing_of_inOrder? horder

theorem map_set {entries : List (String × Run)} (h : ∀ e ∈ entries, e.1 = e.2.id) (r : Run) :
    (Keyed.set r.id r entries).map (·.2) = replaceFirst r (entries.map (·.2)) := by
  induction entries with
  | nil => rfl
  | cons e rest ih =>
    obtain ⟨hfirst, hrest⟩ := List.forall_mem_cons.mp h
    rw [Keyed.set, List.map_cons, replaceFirst, ← hfirst]
    split
    · rfl
    · rw [List.map_cons, ih hrest]

theorem Shelf.Keeps.put {s : Shelf} (h : s.Keeps puts) (hputs : ∀ q ∈ puts, q.Portable)
    (hr : r.Portable) : (Store.put s.files r s.store).fault? = none ∧
      Shelf.Keeps (puts ++ [r]) ⟨(Store.put s.files r s.store).files,
        (Store.put s.files r s.store).store⟩ := by
  obtain ⟨files, entries | path⟩ := s
  · obtain ⟨hkeys, hkept⟩ := h
    have hshallow : levels r < copyLimit := Nat.lt_trans hr.shallow (by decide)
    have hput : Store.put files r (.memory entries) =
        ⟨files, .memory (Keyed.set r.id r entries), [], none⟩ := if_pos hshallow
    rw [hput]
    refine ⟨rfl, fun e he => ?_, ?_⟩
    · rcases Keyed.eq_or_mem_of_mem_set he with rfl | he
      · rfl
      · exact hkeys e he
    · rw [map_set hkeys, hkept, keptAfter_concat]
  · obtain ⟨hrooted, hkept, bytes, g, hsteps⟩ := h
    have hall : ∀ q ∈ replaceFirst r (keptAfter puts), q.Portable := by
      intro q hq
      rcases mem_replaceFirst hq with rfl | hq
      · exact hr
      · exact hputs q (mem_of_mem_keptAfter hq)
    obtain ⟨g', hsteps'⟩ : ∃ g', files.steps (Files.replacing path
        (textOf (replaceFirst r (keptAfter puts))).toUTF8) = (g', none) :=
      Files.steps_replacing_of_other hsteps
    have hsave : save files path (replaceFirst r (keptAfter puts)) = (g', none) :=
      save_eq_iff.mpr ⟨fun q hq => ⟨(hall q hq).shallow, (hall q hq).texts⟩, hsteps'⟩
    have hput := put_file_of_save hkept hsave
    obtain ⟨-, hrooted'⟩ := get_put (s := .file path) hrooted hr.recordable hput
    obtain ⟨kept, files', hkept', hsave', hfiles⟩ := put_file_eq_none_iff.mp hput
    obtain ⟨g'', hsteps''⟩ := hrooted.steps_replacing_again (save_eq_iff.mp hsave').2
    rw [store_put_file] at hrooted' ⊢
    refine ⟨hput, hrooted', ?_, .empty, g'', ?_⟩
    · rw [keptAfter_concat]
      exact runs_put_file hrooted hkept (fun q hq => (hputs q (mem_of_mem_keptAfter hq)).recordable)
        hr.recordable hput
    · rw [hfiles]
      exact hsteps''

theorem Shelf.Keeps.call {s : Shelf} (h : s.Keeps puts) (hputs : ∀ q ∈ puts, q.Portable)
    (hc : ∀ r, c = .put r → r.Portable) :
    Answers puts c (s.call c).1 ∧ (s.call c).2.Keeps (puts ++ putsOf [c]) := by
  cases c with
  | put r =>
    obtain ⟨hfault, hkeeps⟩ := h.put hputs (hc r rfl)
    exact ⟨Shelf.call_put_eq_done_iff.mpr hfault, hkeeps⟩
  | get id =>
    have hget : (s.store.get s.files id).outcome.1 = .ok (latest? puts id) :=
      get_eq_iff.mpr ⟨_, h.runs, find?_keptAfter puts id⟩
    have hsame : puts ++ putsOf [.get id] = puts := List.append_nil puts
    rw [hsame]
    refine ⟨?_, h⟩
    change answerOf .found (s.store.get s.files id).outcome.1 = .found (latest? puts id)
    rw [hget]
    rfl
  | list =>
    have haware : (keptAfter puts).all (fun r => r.created.offset.isSome) = true :=
      List.all_eq_true.mpr fun q hq => (hputs q (mem_of_mem_keptAfter hq)).aware
    have hlist := list_eq_ok h.runs (if_pos (by rw [haware, Bool.true_or]))
    have hsame : puts ++ putsOf [.list] = puts := List.append_nil puts
    rw [hsame]
    refine ⟨⟨_, ?_, lists_keptAfter puts⟩, h⟩
    change answerOf .listed (s.store.list s.files).outcome.1 = _
    rw [hlist]
    rfl

/-! All calls. -/

theorem Shelf.after_concat (s : Shelf) (calls : List Request) (c : Request) :
    s.after (calls ++ [c]) = ((s.after calls).call c).2 := List.foldl_concat ..

theorem Shelf.Keeps.after {s : Shelf} {calls : List Request} (h : s.Keeps [])
    (hcalls : ∀ r, .put r ∈ calls → r.Portable) : (s.after calls).Keeps (putsOf calls) := by
  induction calls using List.reverseRecOn with
  | nil => exact h
  | append_singleton calls c ih =>
    have hbefore : ∀ r, .put r ∈ calls → r.Portable := fun r hr =>
      hcalls r (List.mem_append_left _ hr)
    rw [Shelf.after_concat, putsOf_append]
    refine ((ih hbefore).call (fun q hq => hbefore q (mem_putsOf.mp hq)) fun r hr => ?_).2
    exact hcalls r (hr ▸ List.mem_append_right _ (List.mem_singleton_self _))

/-- Lists in one another. -/
def nested : Nat → Value
  | 0 => .null
  | n + 1 => .list [nested n]

end Store

end Runbook.Workflow
