import Runbook.Proofs.Agenda
import Runbook.Proofs.Calls

/-!
Machines that were taken up again. A host that does not look at how often it was asked answers a
machine with a past as it answers one without, so the two do the same from there on, and what one
has done before stays in front of what it does.
-/
namespace Runbook.Workflow

/-- The host does not look at how often it was asked. -/
structure Host.Indifferent (host : Host) : Prop where
  guard : ∀ n n', host.guard n = host.guard n'
  invoke : ∀ n n', host.invoke n = host.invoke n'

theorem Host.indifferent_standard (clock : Nat → Timestamp) (prompts : PromptSource) :
    (Host.standard clock prompts).Indifferent := ⟨fun _ _ => rfl, fun _ _ => rfl⟩

namespace Machine

/-- What was asked and done before a machine was taken up. -/
structure Past where
  judged : Nat
  invoked : Nat
  journal : Journal

/-- The same machine with a past. -/
def since (p : Past) (m : Machine) : Machine :=
  { m with
    judged := p.judged + m.judged
    invoked := p.invoked + m.invoked
    journal := p.journal ++ m.journal }

variable {host : Host} (p : Past) (m : Machine)

/-- A machine that is taken up again after what another has done. -/
def anew : Machine := ⟨m.run, m.reads, 0, 0, []⟩

def past : Past := ⟨m.judged, m.invoked, m.journal⟩

theorem since_past : m.anew.since m.past = m := by
  unfold since anew past
  simp only [Nat.add_zero, List.append_nil]

theorem since_run : (m.since p).run = m.run := rfl

theorem since_isRunning : (m.since p).isRunning = m.isRunning := rfl

theorem since_note (entries : Journal) : (m.since p).note entries = (m.note entries).since p := by
  unfold note since
  simp only [List.append_assoc]

theorem since_emit (kind : EventKind) (state : Option String) (payload : Fields) :
    (m.since p).emit kind state payload = (m.emit kind state payload).since p :=
  since_note ..

theorem since_log (level : Int) (message : String) (extra : Fields) :
    (m.since p).log level message extra = (m.log level message extra).since p :=
  since_note ..

theorem since_mapRun (f : Run → Run) : (m.since p).mapRun f = (m.mapRun f).since p := rfl

theorem since_touch : (m.since p).touch host = (m.touch host).since p := rfl

theorem since_fail (f : Failure) : (m.since p).fail f = (m.fail f).since p := by
  unfold fail
  simp only [since_mapRun, since_run, since_log, since_emit]

theorem since_complete : (m.since p).complete = m.complete.since p := by
  unfold complete
  simp only [since_mapRun, since_run, since_log, since_emit]

theorem since_carried (h : host.Indifferent) (state : String) (a : Action) :
    (m.since p).response host state a = m.response host state a ∧
      (m.since p).carried host state a = (m.carried host state a).since p := by
  have hresponse : (m.since p).response host state a = m.response host state a := by
    unfold response
    rw [h.invoke (m.since p).invoked m.invoked]
    rfl
  refine ⟨hresponse, ?_⟩
  unfold carried
  rw [hresponse, ← since_note]
  rfl

theorem since_act (h : host.Indifferent) (state : String) (actions : List Action) :
    (m.since p).act host state actions = (m.act host state actions).since p := by
  induction actions generalizing m with
  | nil => rfl
  | cons a rest ih =>
    obtain ⟨hresponse, hcarried⟩ := since_carried p m h state a
    rw [act_cons, act_cons, hresponse, hcarried]
    cases (m.response host state a).outcome.fault? with
    | some message => exact since_fail ..
    | none => exact ih _

theorem since_enter (h : host.Indifferent) (s : State) :
    (m.since p).enter host s = (m.enter host s).since p := by
  unfold enter
  dsimp only
  rw [← since_act _ _ h, ← since_emit]
  rfl

theorem since_leave (s : State) : (m.since p).leave host s = (m.leave host s).since p := by
  unfold leave
  dsimp only
  by_cases hpseudo : s.kind.isPseudo = true
  · rw [if_pos hpseudo, if_pos hpseudo]
    rfl
  · rw [if_neg hpseudo, if_neg hpseudo, ← since_emit]
    by_cases hopen : (m.mapRun fun r => r.vacate s.id).run.hasOpenVisit s.id = true
    · have hopen' : ((m.since p).mapRun fun r => r.vacate s.id).run.hasOpenVisit s.id = true :=
        hopen
      rw [if_pos hopen, if_pos hopen']
      rfl
    · have hopen' : ¬((m.since p).mapRun fun r => r.vacate s.id).run.hasOpenVisit s.id = true :=
        hopen
      rw [if_neg hopen, if_neg hopen']
      rfl

theorem since_arriveAt (h : host.Indifferent) (source : String) (t : State) :
    (m.since p).arriveAt host source t = (m.arriveAt host source t).since p := by
  unfold arriveAt
  split
  · rfl
  · rw [← since_emit]
    rfl
  · rw [← since_enter _ _ h]
    rfl

theorem since_fire (join : String) : (m.since p).fire join = (m.fire join).since p := by
  unfold fire
  rw [← since_log]
  rfl

theorem since_conclude (d : Definition) (moved : Bool) :
    (m.since p).conclude d moved = (m.conclude d moved).since p := by
  unfold conclude
  rw [since_isRunning, since_run]
  split
  · rfl
  · split
    · exact since_complete ..
    · split
      · exact since_fail ..
      · rfl

/-- What a computation comes to on a machine with a past. -/
def onward {α : Type} (f : α → α) : Except Interrupted α → Except Interrupted α
  | .ok a => .ok (f a)
  | .error i => .error ⟨i.why, i.machine.since p⟩

theorem onward_bind {α β : Type} {f : α → α} {g : β → β} {x : Except Interrupted α}
    {k k' : α → Except Interrupted β} (h : ∀ a, k' (f a) = onward p g (k a)) :
    (onward p f x >>= k') = onward p g (x >>= k) := by
  cases x with
  | error i => rfl
  | ok a => exact h a

variable {m} in
theorem since_arrive (h : host.Indifferent) (d : Definition) (source : String)
    (targets : List String) : (m.since p).arrive host d source targets =
      onward p (since p) (m.arrive host d source targets) := by
  induction targets generalizing m with
  | nil => rfl
  | cons target rest ih =>
    unfold arrive
    cases d.state? target with
    | none => rfl
    | some s =>
      simp only [since_arriveAt _ _ h, since_isRunning]
      split
      · exact ih
      · rfl

/-- What comes of a choice on a machine with a past. -/
abbrev sincePair {α : Type} (q : α × Machine) : α × Machine := (q.1, q.2.since p)

variable {m} in
theorem since_select (h : host.Indifferent) (state : String) (fallback : Option String)
    (exits : List Transition) : select host state fallback exits (m.since p) =
      onward p (sincePair p) (select host state fallback exits m) := by
  induction exits generalizing fallback m with
  | nil =>
    cases fallback with
    | none =>
      change Except.ok (none, (m.since p).fail (.stuck state)) = _
      rw [since_fail]
      rfl
    | some target => rfl
  | cons t rest ih =>
    rw [select_cons, select_cons]
    cases t.guard with
    | none => exact ih _
    | some guard =>
      have hguard : host.guard (m.since p).judged = host.guard m.judged := h.guard _ _
      let asked : Machine := { m with judged := m.judged + 1 }
      simp only [hguard, since_run]
      rcases host.guard m.judged guard m.run.bindings with (message | why) | (_ | _)
      · change Except.ok (none, (asked.since p).fail (.guardError state message)) = _
        rw [since_fail]
        rfl
      · rfl
      · exact ih (m := asked) fallback
      · rfl

theorem since_targets (h : host.Indifferent) (d : Definition) (s : State) :
    (m.since p).targets host d s = onward p (sincePair p) (m.targets host d s) := by
  unfold targets
  split
  · rfl
  · rw [since_select p h]
    exact onward_bind p fun _ => rfl

theorem since_move (h : host.Indifferent) (d : Definition) (occupied : List String) (s : State) :
    (m.since p).move host d occupied s = onward p (sincePair p) (m.move host d occupied s) := by
  have hawaits : (m.since p).awaits s = m.awaits s := rfl
  unfold move
  rw [hawaits]
  split
  · rfl
  · split
    · split
      · rw [since_fire, since_enter _ _ h]
        rfl
      · rfl
    · rw [since_targets _ _ h]
      rcases m.targets host d s with i | ⟨_ | targets, asked⟩
      · rfl
      · rfl
      · change ((asked.since p).leave host s).arrive host d s.id targets >>= _ =
          onward p (sincePair p) ((asked.leave host s).arrive host d s.id targets >>= _)
        rw [since_leave, since_arrive p h]
        exact onward_bind p fun _ => rfl

variable {m} in
theorem since_moveAll (h : host.Indifferent) (d : Definition) (occupied ids : List String)
    (moved : Bool) : (m.since p).moveAll host d occupied ids moved =
      onward p (sincePair p) (m.moveAll host d occupied ids moved) := by
  induction ids generalizing m moved with
  | nil => rfl
  | cons id rest ih =>
    unfold moveAll
    rw [since_isRunning]
    split
    · rfl
    · cases d.state? id with
      | none =>
        change Except.ok (moved, (m.since p).fail (.unknownState id)) = _
        rw [since_fail]
        rfl
      | some s =>
        change ((m.since p).move host d occupied s >>= _) = _
        rw [since_move _ _ h]
        exact onward_bind p fun _ => ih _

/-- A machine with a past, or one that was broken off with it. -/
def resumed : Except Refusal Machine → Except Refusal Machine
  | .ok m => .ok (m.since p)
  | .error (.interrupted i) => .error (.interrupted ⟨i.why, i.machine.since p⟩)
  | .error r => .error r

variable {m} in
/-- A step does the same on a machine with a past. -/
theorem since_advance (h : host.Indifferent) (d : Definition) :
    (m.since p).advance host d = resumed p (m.advance host d) := by
  unfold advance
  rw [since_run, since_isRunning]
  split
  · rfl
  · split
    · exact congrArg Except.ok (since_log ..)
    · rw [since_moveAll p h]
      rcases m.moveAll host d m.run.current m.run.current false with i | ⟨moved, last⟩
      · rfl
      · change Except.ok (((last.since p).conclude d moved).touch host) = _
        rw [since_conclude, since_touch]
        rfl

variable {m} in
theorem since_steps (h : host.Indifferent) (d : Definition) (n : Nat) :
    (m.since p).steps host d n = resumed p (m.steps host d n) := by
  induction n generalizing m with
  | zero => rfl
  | succ n ih =>
    unfold steps
    rw [since_isRunning]
    split
    · rw [since_advance p h]
      rcases m.advance host d with (_ | _) | next
      · rfl
      · rfl
      · exact ih
    · rfl

end Machine

end Runbook.Workflow
