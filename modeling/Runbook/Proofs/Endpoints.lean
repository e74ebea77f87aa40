import Runbook.Proofs.Pseudostates

/-!
The endpoints of a definition that was read from a document. An arrow declares both of its
endpoints where it is drawn, and nothing that comes after it takes a state back. So the transitions
of every definition that was read join declared states.
-/
namespace Runbook.Workflow

namespace Draft

/-- Every transition of a draft joins declared states. -/
def Linked (d : Draft) : Prop := ∀ t ∈ d.transitions, t.source ∈ d.ids ∧ t.target ∈ d.ids

variable {d d' : Draft} {line : Nat}

/-- No line takes a state back. -/
theorem Gains.mem_ids (hd : Gains line d d') {id : String} (hid : id ∈ d.ids) : id ∈ d'.ids := by
  cases hd with
  | aside => exact hid
  | description _ text =>
    rw [ids_describe, mem_addNew]
    exact Or.inl hid
  | arrow =>
    change id ∈ (d.linking _ _ _).ids
    rw [ids_linking, mem_addNew, mem_addNew]
    exact Or.inl (Or.inl hid)
  | marker _ _ hmarks =>
    rw [hmarks.ids, mem_addNew]
    exact Or.inl hid

/-- A line that adds a transition declares both of its ends. -/
theorem Gains.mem_transitions (hd : Gains line d d') {t : Transition} (ht : t ∈ d'.transitions) :
    t ∈ d.transitions ∨ t.source ∈ d'.ids ∧ t.target ∈ d'.ids := by
  cases hd with
  | aside => exact Or.inl ht
  | description hid text =>
    rename_i id
    obtain ⟨states, hstates⟩ := exists_states_describe d id text
    rw [hstates] at ht
    exact Or.inl ht
  | arrow hsource htarget hfirst =>
    rename_i source target guard label
    obtain ⟨states, hstates⟩ := exists_states_draw d line source target guard label
    rw [hstates] at ht
    rcases List.mem_append.mp ht with ht | ht
    · exact Or.inl ht
    · right
      rw [List.mem_singleton.mp ht]
      change sourceId source ∈ (d.linking line source target).ids ∧
        targetId target ∈ (d.linking line source target).ids
      rw [ids_linking, mem_addNew, mem_addNew, mem_addNew]
      exact ⟨Or.inl (Or.inr rfl), Or.inr rfl⟩
  | marker _ _ hmarks =>
    obtain ⟨states, openForks, regions, rfl⟩ := hmarks.exists_eq
    exact Or.inl ht

theorem Linked.gains (h : d.Linked) (hd : Gains line d d') : d'.Linked := by
  intro t ht
  rcases hd.mem_transitions ht with hold | hnew
  · obtain ⟨hsource, htarget⟩ := h t hold
    exact ⟨hd.mem_ids hsource, hd.mem_ids htarget⟩
  · exact hnew

theorem linked_ofLines {fenced : Bool} {diagram actions : List NumberedLine}
    (hd : ofLines fenced diagram actions = .ok d) : d.Linked := by
  refine ofLines_keeps nofun (fun _ _ _ h hgains => h.gains hgains) ?_ hd
  intro before id action _ h t ht
  rw [ids_withAction]
  exact h t ht

end Draft

theorem mem_ids_collectStates {states : List State} {id : String}
    (h : id ∈ states.map State.id) : id ∈ (collectStates states).map State.id := by
  suffices hfold : ∀ collected : List State,
      id ∈ collected.map State.id ∨ id ∈ states.map State.id →
      id ∈ (states.foldl (fun acc s => State.putIn s acc) collected).map State.id from
    hfold [] (Or.inr h)
  clear h
  induction states with
  | nil =>
    intro collected hcase
    exact hcase.resolve_right List.not_mem_nil
  | cons s rest ih =>
    intro collected hcase
    apply ih
    rw [State.mem_ids_putIn]
    rcases hcase with hold | hnew
    · exact Or.inl (Or.inr hold)
    · rcases List.mem_cons.mp hnew with hself | hrest
      · exact Or.inl (Or.inl hself)
      · exact Or.inr hrest

/-- A definition that was read joins declared states, whether or not it is valid. -/
theorem Definition.linked_of_parse {d : Definition} {text : String} {name : Option String}
    (h : Definition.parse text name = .ok d) : d.Linked := by
  obtain ⟨fenced, diagram, actions, draft, header, hdraft, rfl⟩ := exists_draft_of_parse h
  have hlinked := Draft.linked_ofLines hdraft
  have hdeclares : ∀ id ∈ draft.ids, (ofDraft name header draft).declares id = true := by
    intro id hid
    obtain ⟨s, hs, rfl⟩ := List.mem_map.mp (mem_ids_collectStates hid)
    exact declares_iff.mpr ⟨s, state?_of_mem hs⟩
  intro t ht
  obtain ⟨hsource, htarget⟩ := hlinked t ht
  exact ⟨hdeclares t.source hsource, hdeclares t.target htarget⟩

end Runbook.Workflow
