import Runbook.Proofs.Drafting
import Runbook.Proofs.Validity

/-!
The pseudostates of a definition that was read from a document. Markers only make choices, forks
and joins, so the initial and terminal kinds belong to the two reserved identifiers; and no arrow
can point to the initial one, since nobody can write its identifier. Both facts hold of the empty
draft, and every statement and every action entry keeps them.
-/
namespace Runbook.Workflow

/-- The two pseudo kinds go with the reserved identifiers. -/
def State.ReservedId (s : State) : Prop :=
  (s.kind = .initial → s.id = startId) ∧ (s.kind = .terminal → s.id = endId)

namespace Draft

structure ReservedIds (d : Draft) : Prop where
  states : ∀ s ∈ d.states, s.ReservedId
  targets : ∀ t ∈ d.transitions, t.target ≠ startId

variable {d d' : Draft}

theorem ReservedIds.declare (h : d.ReservedIds) (id : String) : (d.declare id).ReservedIds := by
  unfold Draft.declare
  split
  · exact h
  · refine ⟨?_, h.targets⟩
    intro s hs
    rcases List.mem_append.mp hs with hs | hs
    · exact h.states s hs
    · rw [List.mem_singleton.mp hs]
      exact ⟨nofun, nofun⟩

theorem ReservedIds.declarePseudo (h : d.ReservedIds) {id : String} {kind : StateKind}
    (hinitial : kind = .initial → id = startId) (hterminal : kind = .terminal → id = endId) :
    (d.declarePseudo id kind).ReservedIds := by
  unfold Draft.declarePseudo
  split
  · exact h
  · refine ⟨?_, h.targets⟩
    intro s hs
    rcases List.mem_append.mp hs with hs | hs
    · exact h.states s hs
    · rw [List.mem_singleton.mp hs]
      exact ⟨hinitial, hterminal⟩

theorem ReservedIds.modifyState (h : d.ReservedIds) (id : String) {f : State → State}
    (hf : ∀ s : State, s.ReservedId → (f s).ReservedId) : (d.modifyState id f).ReservedIds := by
  refine ⟨?_, h.targets⟩
  intro s hs
  obtain ⟨before, hbefore, rfl⟩ := List.mem_map.mp hs
  split
  · exact hf before (h.states before hbefore)
  · exact h.states before hbefore

theorem ReservedIds.draw (h : d.ReservedIds) {line : Nat} {source target : Endpoint}
    {guard label : Option String} (htarget : target.Unreserved) :
    (d.draw line source target guard label).ReservedIds := by
  have hbegun : (d.begun line source).ReservedIds := by
    cases source <;> exact ⟨h.states, h.targets⟩
  have hsource : ((d.begun line source).declareSource source).ReservedIds := by
    cases source with
    | pseudo => exact hbegun.declarePseudo (fun _ => rfl) nofun
    | state id => exact hbegun.declare id
  have hboth : (d.linking line source target).ReservedIds := by
    cases target with
    | pseudo => exact hsource.declarePseudo nofun (fun _ => rfl)
    | state id => exact hsource.declare id
  refine ⟨hboth.states, ?_⟩
  intro t ht
  rcases List.mem_append.mp ht with ht | ht
  · exact hboth.targets t ht
  · rw [List.mem_singleton.mp ht]
    cases target with
    | pseudo => exact (by decide : endId ≠ startId)
    | state id => exact (htarget id rfl).1

theorem reservedId_of_not_pseudo {s : State} (h : s.kind.isPseudo = false) : s.ReservedId := by
  constructor <;> intro hk <;> simp [hk, StateKind.isPseudo] at h

theorem ReservedIds.marked (h : d.ReservedIds) {id : String} {kind : StateKind}
    (hkind : kind.isPseudo = false) : (d.marked id kind).ReservedIds :=
  h.modifyState id fun _ _ => reservedId_of_not_pseudo hkind

theorem ReservedIds.describe (h : d.ReservedIds) (id text : String) :
    (d.describe id text).ReservedIds :=
  (h.declare id).modifyState id fun _ hs => hs

theorem ReservedIds.gains (h : d.ReservedIds) {line : Nat} (hd : Gains line d d') :
    d'.ReservedIds := by
  cases hd with
  | aside notes openNote => exact ⟨h.states, h.targets⟩
  | description hid text => exact h.describe _ text
  | arrow hsource htarget hfirst => exact h.draw htarget
  | marker hid hfree hmarks =>
    rename_i id kind
    have hdeclared := h.declare id
    cases hmarks with
    | choice => exact hdeclared.marked rfl
    | fork =>
      have hmarked : ((d.declare id).marked id .fork).ReservedIds := hdeclared.marked rfl
      exact ⟨hmarked.states, hmarked.targets⟩
    | join hopen =>
      have hmarked : ((d.declare id).marked id .join).ReservedIds := hdeclared.marked rfl
      refine ReservedIds.modifyState ⟨?_, ?_⟩ id fun _ hs => hs
      · exact hmarked.states
      · exact hmarked.targets

theorem reservedIds_ofLines {fenced : Bool} {diagram actions : List NumberedLine}
    (hd : ofLines fenced diagram actions = .ok d) : d.ReservedIds := by
  refine ofLines_keeps ⟨nofun, nofun⟩ (fun _ _ _ h hgains => h.gains hgains) ?_ hd
  exact fun _ id action _ h => h.modifyState id fun _ hs => hs

end Draft

theorem mem_of_mem_putIn {s t : State} {states : List State} (h : s ∈ t.putIn states) :
    s = t ∨ s ∈ states := by
  induction states with
  | nil => exact Or.inl (List.mem_singleton.mp h)
  | cons first rest ih =>
    unfold State.putIn at h
    split at h
    · rcases List.mem_cons.mp h with rfl | h
      · exact Or.inl rfl
      · exact Or.inr (List.mem_cons_of_mem _ h)
    · rcases List.mem_cons.mp h with rfl | h
      · exact Or.inr (List.mem_cons_self ..)
      · rcases ih h with rfl | h
        · exact Or.inl rfl
        · exact Or.inr (List.mem_cons_of_mem _ h)

theorem mem_of_mem_collectStates {s : State} {states : List State}
    (h : s ∈ collectStates states) : s ∈ states := by
  have along : ∀ (rest collected : List State),
      s ∈ rest.foldl (fun acc t => State.putIn t acc) collected → s ∈ collected ∨ s ∈ rest := by
    intro rest
    induction rest with
    | nil => exact fun _ hs => Or.inl hs
    | cons t rest ih =>
      intro collected hs
      rcases ih _ hs with hs | hs
      · rcases mem_of_mem_putIn hs with rfl | hs
        · exact Or.inr (List.mem_cons_self ..)
        · exact Or.inl hs
      · exact Or.inr (List.mem_cons_of_mem _ hs)
  rcases along states [] h with h | h
  · simp at h
  · exact h

namespace Definition

variable {d : Definition} {text : String} {name : Option String}

/-- A definition that was read is what some lines of a document have come to. -/
theorem exists_draft_of_parse (h : parse text name = .ok d) :
    ∃ fenced diagram actions draft header,
      Draft.ofLines fenced diagram actions = .ok draft ∧ d = ofDraft name header draft := by
  unfold parse at h
  simp only [bind_eq_ok_iff, mapError_eq_ok_iff] at h
  obtain ⟨layout, -, header, -, body, -, draft, hdraft, hd⟩ := h
  cases hd
  exact ⟨body.fenced, body.diagram, body.actions, draft, header, hdraft, rfl⟩

theorem reservedId_of_parse (h : parse text name = .ok d) {s : State} (hs : s ∈ d.states) :
    s.ReservedId := by
  obtain ⟨fenced, diagram, actions, draft, header, hdraft, rfl⟩ := exists_draft_of_parse h
  exact (Draft.reservedIds_ofLines hdraft).states s (mem_of_mem_collectStates hs)

/-- No transition leads back to the initial state. -/
theorem target_ne_startId_of_parse (h : parse text name = .ok d) {t : Transition}
    (ht : t ∈ d.transitions) : t.target ≠ startId := by
  obtain ⟨fenced, diagram, actions, draft, header, hdraft, rfl⟩ := exists_draft_of_parse h
  exact (Draft.reservedIds_ofLines hdraft).targets t ht

/-- What a definition keeps to that was read from a document and has no error. -/
structure Sound (d : Definition) : Prop where
  valid : d.validate.hasErrors = false
  reserved : ∀ s ∈ d.states, s.ReservedId
  onward : ∀ t ∈ d.transitions, t.target ≠ startId

theorem sound_of_parse (h : parse text name = .ok d) (hv : d.validate.hasErrors = false) :
    d.Sound :=
  ⟨hv, fun _ hs => reservedId_of_parse h hs, fun _ ht => target_ne_startId_of_parse h ht⟩

theorem Sound.kind_ne_initial (h : d.Sound) {a : String} {t : State} (hleads : d.Leads a t.id)
    (ht : d.state? t.id = some t) : t.kind ≠ .initial := by
  obtain ⟨transition, htransition, -, htarget⟩ := hleads
  intro hkind
  have hid : t.id = startId := (h.reserved t (mem_of_state? ht).1).1 hkind
  exact h.onward transition htransition (htarget.trans hid)

end Definition

end Runbook.Workflow
