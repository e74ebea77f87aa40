/-!
Computations that may fail, read backwards from their success: what a sequence of steps has come
through, what a fold keeps, and a test of the value that a computation gives. Those that keep a
state besides are read in the same way.
-/
namespace Runbook

variable {ε δ α β : Type}

theorem bind_eq_ok_iff {x : Except ε α} {f : α → Except ε β} {b : β} :
    (x >>= f) = .ok b ↔ ∃ a, x = .ok a ∧ f a = .ok b := by
  cases x with
  | error e => simp [bind, Except.bind]
  | ok a => simp [bind, Except.bind]

theorem bind_eq_error_iff {x : Except ε α} {f : α → Except ε β} {e : ε} :
    (x >>= f) = .error e ↔ x = .error e ∨ ∃ a, x = .ok a ∧ f a = .error e := by
  cases x with
  | error e => simp [bind, Except.bind]
  | ok a => simp [bind, Except.bind]

theorem mapError_eq_ok_iff {x : Except ε α} {f : ε → δ} {a : α} :
    x.mapError f = .ok a ↔ x = .ok a := by
  cases x with
  | error e => exact ⟨nofun, nofun⟩
  | ok b =>
    constructor
    · intro h
      cases h
      rfl
    · intro h
      cases h
      rfl

theorem map_eq_ok_iff {x : Except ε α} {f : α → β} {b : β} :
    x.map f = .ok b ↔ ∃ a, x = .ok a ∧ f a = b := by
  cases x with
  | error e => simp [Except.map]
  | ok a => simp [Except.map]

theorem map_eq_error_iff {x : Except ε α} {f : α → β} {e : ε} :
    x.map f = .error e ↔ x = .error e := by
  cases x with
  | error e => simp [Except.map]
  | ok a => simp [Except.map]

theorem exists_of_mapError_eq_error {x : Except ε α} {f : ε → δ} {e : δ}
    (h : x.mapError f = .error e) : ∃ cause, x = .error cause ∧ f cause = e := by
  cases x with
  | error cause =>
    cases h
    exact ⟨cause, rfl, rfl⟩
  | ok a => cases h

/-- What every step of a fold keeps, a fold that succeeds keeps. -/
theorem foldlM_keeps_of_mem {P : β → Prop} {step : β → α → Except ε β} {items : List α}
    (hstep : ∀ b, ∀ a ∈ items, ∀ b', P b → step b a = .ok b' → P b') {b b' : β}
    (hb : P b) (h : items.foldlM step b = .ok b') : P b' := by
  induction items generalizing b with
  | nil =>
    cases h
    exact hb
  | cons a rest ih =>
    rw [List.foldlM_cons, bind_eq_ok_iff] at h
    obtain ⟨next, hnext, hrest⟩ := h
    refine ih (fun b a ha => hstep b a (List.mem_cons_of_mem _ ha)) ?_ hrest
    exact hstep b a (List.mem_cons_self ..) next hb hnext

/-- What every successful step keeps, a successful fold keeps. -/
theorem foldlM_keeps {P : β → Prop} {step : β → α → Except ε β}
    (hstep : ∀ b a b', P b → step b a = .ok b' → P b') {items : List α} {b b' : β}
    (hb : P b) (h : items.foldlM step b = .ok b') : P b' :=
  foldlM_keeps_of_mem (fun b a _ => hstep b a) hb h

/-- A fold that succeeds has come through all its beginnings. -/
theorem exists_foldlM_take {step : β → α → Except ε β} {items : List α} {b b' : β}
    (h : items.foldlM step b = .ok b') (count : Nat) :
    ∃ next, (items.take count).foldlM step b = .ok next := by
  rw [ ← List.take_append_drop count items, List.foldlM_append, bind_eq_ok_iff] at h
  obtain ⟨next, hnext, -⟩ := h
  exact ⟨next, hnext⟩

/-- A fold ends with the first step that fails. -/
theorem foldlM_concat_of_error {step : β → α → Except ε β} {before : List α} {a : α} {b b' : β}
    {e : ε} (hbefore : before.foldlM step b = .ok b') (hstep : step b' a = .error e) :
    (before ++ [a]).foldlM step b = .error e := by
  rw [List.foldlM_append, hbefore]
  change ([a].foldlM step b') = .error e
  rw [List.foldlM_cons]
  exact bind_eq_error_iff.mpr (Or.inl hstep)

/-- A step that goes well is the beginning of a fold. -/
theorem foldlM_cons_of_ok {step : β → α → Except ε β} {a : α} {rest : List α} {b b' b'' : β}
    (hstep : step b a = .ok b') (hrest : rest.foldlM step b' = .ok b'') :
    (a :: rest).foldlM step b = .ok b'' := by
  rw [List.foldlM_cons, hstep]
  exact hrest

/-- A fold that fails has a first step that fails. -/
theorem exists_of_foldlM_eq_error {step : β → α → Except ε β} {items : List α} {b : β} {e : ε}
    (h : items.foldlM step b = .error e) :
    ∃ before a after b', items = before ++ a :: after ∧ before.foldlM step b = .ok b' ∧
      step b' a = .error e := by
  induction items generalizing b with
  | nil => cases h
  | cons a rest ih =>
    rw [List.foldlM_cons, bind_eq_error_iff] at h
    rcases h with h | ⟨next, hnext, h⟩
    · exact ⟨[], a, rest, b, rfl, rfl, h⟩
    · obtain ⟨before, a', after, b', rfl, hbefore, hstep⟩ := ih h
      exact ⟨a :: before, a', after, b', rfl, foldlM_cons_of_ok hnext hbefore, hstep⟩

/-- Whether a computation succeeds with a value that passes a test. -/
def succeedsWith (test : α → Bool) : Except ε α → Bool
  | .ok a => test a
  | .error _ => false

theorem succeedsWith_iff {test : α → Bool} {x : Except ε α} :
    succeedsWith test x = true ↔ ∃ a, x = .ok a ∧ test a = true := by
  cases x <;> simp [succeedsWith]

/-! Computations that keep a state, whether they go well or not. -/

section Stateful

variable {σ : Type} {x : ExceptT ε (StateM σ) α} {s s' : σ}

theorem run_bind_of_ok {a : α} (h : x.run.run s = (.ok a, s')) (f : α → ExceptT ε (StateM σ) β) :
    (x >>= f).run.run s = (f a).run.run s' := by
  rw [ExceptT.run_bind, StateT.run_bind, h]
  rfl

theorem run_bind_of_error {e : ε} (h : x.run.run s = (.error e, s'))
    (f : α → ExceptT ε (StateM σ) β) : (x >>= f).run.run s = (.error e, s') := by
  rw [ExceptT.run_bind, StateT.run_bind, h]
  rfl

theorem run_map_of_ok {a : α} (h : x.run.run s = (.ok a, s')) (f : α → β) :
    (f <$> x).run.run s = (.ok (f a), s') := by
  rw [map_eq_pure_bind, run_bind_of_ok h]
  rfl

theorem run_map_of_error {e : ε} (h : x.run.run s = (.error e, s')) (f : α → β) :
    (f <$> x).run.run s = (.error e, s') := by
  rw [map_eq_pure_bind, run_bind_of_error h]

theorem exists_of_run_bind_eq_ok {f : α → ExceptT ε (StateM σ) β} {b : β}
    (h : (x >>= f).run.run s = (.ok b, s')) :
    ∃ a between, x.run.run s = (.ok a, between) ∧ (f a).run.run between = (.ok b, s') := by
  rcases hx : x.run.run s with ⟨_ | a, between⟩
  · rw [run_bind_of_error hx] at h
    cases h
  · rw [run_bind_of_ok hx] at h
    exact ⟨a, between, rfl, h⟩

theorem run_adapt (x : ExceptT ε (StateM σ) α) (f : ε → δ) (s : σ) :
    (x.adapt f).run.run s = ((x.run.run s).1.mapError f, (x.run.run s).2) := rfl

theorem run_adapt_eq_ok_iff {f : ε → δ} {a : α} :
    (x.adapt f).run.run s = (.ok a, s') ↔ x.run.run s = (.ok a, s') := by
  rw [run_adapt, Prod.mk.injEq, mapError_eq_ok_iff, Prod.ext_iff]

theorem run_tryCatch (x handle) : (tryCatch x handle : ExceptT ε (StateM σ) α).run = (do
    match ← x.run with
    | .ok a => pure (.ok a)
    | .error e => (handle e).run : StateM σ (Except ε α)) := rfl

theorem run_tryCatch_of_ok {a : α} (h : x.run.run s = (.ok a, s'))
    (handle : ε → ExceptT ε (StateM σ) α) : (tryCatch x handle).run.run s = (.ok a, s') := by
  rw [run_tryCatch, StateT.run_bind, h]
  rfl

theorem run_tryCatch_of_error {e : ε} (h : x.run.run s = (.error e, s'))
    (handle : ε → ExceptT ε (StateM σ) α) :
    (tryCatch x handle).run.run s = (handle e).run.run s' := by
  rw [run_tryCatch, StateT.run_bind, h]
  rfl

end Stateful

end Runbook
