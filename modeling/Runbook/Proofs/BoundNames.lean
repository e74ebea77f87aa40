import Runbook.Proofs.Pseudostates
import Runbook.Proofs.Notation
import Runbook.Proofs.Retention

/-!
The actions of a definition that was read from a document. No statement of the diagram gives a state
an action, so each action was read from an entry of the action list. The variable that such an
action binds has a name of word characters and points, which are no halves of surrogate pairs.
-/
namespace Runbook

open Text

/-- The characters for halves lie beyond all that are letters. -/
theorem Text.isHalf_of_lt {c : Char} (h : c.toNat < 0x100000) : isHalf c = false := by
  unfold isHalf halfCode?
  rw [Nat.sub_eq_zero_of_le h.le]
  rfl

theorem Text.isHalf_of_isWord {c : Char} (h : isWord c = true) : isHalf c = false := by
  have hbound : ∀ r ∈ wordRanges, r.2 < 0x100000 := by decide +kernel
  refine isHalf_of_lt ?_
  unfold isWord at h
  dsimp only at h
  split at h
  · omega
  · obtain ⟨r, hr, hin⟩ := List.any_eq_true.mp h
    have hlast := hbound r hr
    simp only [Bool.and_eq_true, decide_eq_true_eq] at hin
    omega

namespace Workflow

/-! What is read as an action. -/

namespace Action

theorem isHalf_of_isIdentStartAnyCase {c : Char} (h : isIdentStartAnyCase c = true) :
    isHalf c = false := by
  simp only [isIdentStartAnyCase, isCaseVariant, Bool.or_eq_true, beq_iff_eq] at h
  rcases h with h | ((rfl | rfl) | rfl) | rfl
  · have hident := isIdentChar_iff.mp (isIdentChar_of_isIdentStart h)
    exact isHalf_of_lt (by omega)
  all_goals decide

theorem isHalf_of_isVariableChar {c : Char} (h : isVariableChar c = true) : isHalf c = false := by
  rcases Bool.or_eq_true_iff.mp h with h | h
  · exact isHalf_of_isWord h
  · rw [beq_iff_eq.mp h]
    decide

/-- A name of characters that are no halves has none. -/
theorem hasHalves_ofList {cs : List Char} (h : ∀ c ∈ cs, isHalf c = false) :
    hasHalves (String.ofList cs) = false := by
  unfold hasHalves
  rw [String.toList_ofList]
  exact List.any_eq_false.mpr fun c hc => by rw [h c hc]; decide

theorem hasHalves_of_readSet? {cs : List Char} {a : Action} (h : readSet? cs = some a) :
    ∀ name ∈ a.binds?, hasHalves name = false := by
  unfold readSet? at h
  obtain ⟨body, -, h⟩ := Option.bind_eq_some_iff.mp h
  obtain ⟨first, -, h⟩ := Option.bind_eq_some_iff.mp h
  obtain ⟨_, hfirst, h⟩ := Option.bind_eq_some_iff.mp h
  have hstart : isIdentStartAnyCase first = true := by
    by_contra hno
    unfold guard at hfirst
    rw [if_neg hno] at hfirst
    cases hfirst
  dsimp only at h
  split at h
  · obtain ⟨-, -, h⟩ := Option.bind_eq_some_iff.mp h
    cases h
    rintro name ⟨⟩
    refine hasHalves_ofList (List.forall_mem_cons.mpr
      ⟨isHalf_of_isIdentStartAnyCase hstart, fun c hc => ?_⟩)
    exact isHalf_of_isVariableChar (List.mem_takeWhile_imp hc)
  · cases h

theorem binds?_of_readLog? {cs : List Char} {a : Action} (h : readLog? cs = some a) :
    a.binds? = none := by
  unfold readLog? at h
  obtain ⟨body, -, h⟩ := Option.bind_eq_some_iff.mp h
  split at h
  · cases h
    rfl
  · obtain ⟨-, -, h⟩ := Option.bind_eq_some_iff.mp h
    cases h
    rfl

theorem binds?_of_readWait? {cs : List Char} {a : Action} (h : readWait? cs = some a) :
    a.binds? = none := by
  unfold readWait? at h
  obtain ⟨body, -, h⟩ := Option.bind_eq_some_iff.mp h
  dsimp only at h
  obtain ⟨-, -, h⟩ := Option.bind_eq_some_iff.mp h
  obtain ⟨-, -, h⟩ := Option.bind_eq_some_iff.mp h
  obtain ⟨seconds, -, h⟩ := Option.bind_eq_some_iff.mp h
  cases h
  rfl

theorem isHalf_of_readArrow? {cs result : List Char} (h : readArrow? cs = some result) :
    ∀ c ∈ result, isHalf c = false := by
  unfold readArrow? at h
  split at h
  · split at h
    · split at h
      · rename_i hname
        obtain ⟨hstart, hmore⟩ := Bool.and_eq_true_iff.mp hname
        cases h
        exact List.forall_mem_cons.mpr ⟨isHalf_of_isIdentStartAnyCase hstart,
          fun c hc => isHalf_of_isWord (List.all_eq_true.mp hmore c hc)⟩
      · cases h
    · cases h
  · cases h

theorem isHalf_of_splitArrow? {cs arguments : List Char} {result : Option (List Char)}
    (h : splitArrow? cs = some (arguments, result)) :
    ∀ name ∈ result, ∀ c ∈ name, isHalf c = false := by
  induction cs generalizing arguments with
  | nil =>
    unfold splitArrow? at h
    split at h
    · rename_i hread
      cases h
      rintro name ⟨⟩
      exact isHalf_of_readArrow? hread
    · cases h
      nofun
  | cons c rest ih =>
    unfold splitArrow? at h
    split at h
    · rename_i hread
      cases h
      rintro name ⟨⟩
      exact isHalf_of_readArrow? hread
    · dsimp only at h
      split at h
      · cases h
      · obtain ⟨⟨before, found⟩, hrest, h⟩ := Option.map_eq_some_iff.mp h
        cases h
        exact ih hrest

theorem isHalf_of_readPrompt? {cs arguments : List Char} {name : String}
    {result : Option (List Char)} (h : readPrompt? cs = some (name, arguments, result)) :
    ∀ bound ∈ result, ∀ c ∈ bound, isHalf c = false := by
  unfold readPrompt? at h
  obtain ⟨body, -, h⟩ := Option.bind_eq_some_iff.mp h
  obtain ⟨body, -, h⟩ := Option.bind_eq_some_iff.mp h
  split at h
  · dsimp only at h
    obtain ⟨-, -, h⟩ := Option.bind_eq_some_iff.mp h
    split at h
    · obtain ⟨⟨found, after⟩, hsplit, h⟩ := Option.bind_eq_some_iff.mp h
      cases h
      exact isHalf_of_splitArrow? hsplit
    · cases h
  · cases h

theorem hasHalves_of_promptAction {line : Option Int} {name : String} {arguments : List Char}
    {result : Option (List Char)} {a : Action} (h : promptAction line name arguments result = .ok a)
    (hresult : ∀ bound ∈ result, ∀ c ∈ bound, isHalf c = false) :
    ∀ bound ∈ a.binds?, hasHalves bound = false := by
  unfold promptAction at h
  dsimp only at h
  split at h
  · cases h
    rintro bound ⟨⟩
    cases result with
    | none => decide
    | some chars => exact hasHalves_ofList (hresult chars rfl)
  · cases h

/-- The variable that an action from a text binds has no halves in its name. -/
theorem hasHalves_of_read {line : Option Int} {s : String} {a : Action}
    (h : Action.read line s = .ok a) : ∀ name ∈ a.binds?, hasHalves name = false := by
  unfold Action.read at h
  dsimp only at h
  split at h
  · rename_i action hread
    cases h
    rcases Option.or_eq_some_iff.mp hread with hlog | ⟨-, hread⟩
    · rw [binds?_of_readLog? hlog]
      nofun
    · rcases Option.or_eq_some_iff.mp hread with hset | ⟨-, hwait⟩
      · exact hasHalves_of_readSet? hset
      · rw [binds?_of_readWait? hwait]
        nofun
  · split at h
    · rename_i hprompt
      exact hasHalves_of_promptAction h (isHalf_of_readPrompt? hprompt)
    · cases h

end Action

namespace Draft

/-- Every action of a draft was read. -/
def Stated (d : Draft) : Prop :=
  ∀ s ∈ d.states, ∀ a ∈ s.actions, ∃ line text, Action.read line text = .ok a

variable {d d' : Draft}

theorem stated_append {added : State} (h : d.Stated) (hstates : d'.states = d.states ++ [added])
    (hnone : added.actions = []) : d'.Stated := by
  intro s hs a ha
  rw [hstates] at hs
  rcases List.mem_append.mp hs with hs | hs
  · exact h s hs a ha
  · rw [List.mem_singleton.mp hs, hnone] at ha
    cases ha

theorem Stated.declare (h : d.Stated) (id : String) : (d.declare id).Stated := by
  unfold Draft.declare
  split
  · exact h
  · exact stated_append h rfl rfl

theorem Stated.declarePseudo (h : d.Stated) (id : String) (kind : StateKind) :
    (d.declarePseudo id kind).Stated := by
  unfold Draft.declarePseudo
  split
  · exact h
  · exact stated_append h rfl rfl

/-- Changing a state adds no actions but such as were read. -/
theorem Stated.modifyState (h : d.Stated) (id : String) {f : State → State}
    (hf : ∀ s : State, ∀ a ∈ (f s).actions, a ∈ s.actions ∨
      ∃ line text, Action.read line text = .ok a) : (d.modifyState id f).Stated := by
  intro s hs a ha
  obtain ⟨before, hbefore, rfl⟩ := List.mem_map.mp hs
  split at ha
  · exact (hf before a ha).elim (h before hbefore a) fun hread => hread
  · exact h before hbefore a ha

theorem Stated.describe (h : d.Stated) (id text : String) : (d.describe id text).Stated :=
  (h.declare id).modifyState id fun _ _ ha => Or.inl ha

theorem Stated.draw (h : d.Stated) {line : Nat} (source target : Endpoint)
    (guard label : Option String) : (d.draw line source target guard label).Stated := by
  have hbegun : (d.begun line source).Stated := by
    cases source <;> exact h
  have hsource : ((d.begun line source).declareSource source).Stated := by
    cases source with
    | pseudo => exact hbegun.declarePseudo startId .initial
    | state id => exact hbegun.declare id
  change (((d.begun line source).declareSource source).declareTarget target).Stated
  cases target with
  | pseudo => exact hsource.declarePseudo endId .terminal
  | state id => exact hsource.declare id

theorem Stated.marked (h : d.Stated) (id : String) (kind : StateKind) : (d.marked id kind).Stated :=
  h.modifyState id fun _ _ ha => Or.inl ha

theorem Stated.gains (h : d.Stated) {line : Nat} (hd : Gains line d d') : d'.Stated := by
  cases hd with
  | aside notes openNote => exact h
  | description hid text => exact h.describe _ text
  | arrow => exact h.draw _ _ _ _
  | marker hid hfree hmarks =>
    rename_i id kind
    have hmarked := (h.declare id).marked id kind
    cases hmarks with
    | choice => exact hmarked
    | fork => exact hmarked
    | join hopen =>
      refine Stated.modifyState ?_ id fun _ _ ha => Or.inl ha
      exact hmarked

theorem stated_ofLines {fenced : Bool} {diagram actions : List NumberedLine}
    (hd : ofLines fenced diagram actions = .ok d) : d.Stated := by
  refine ofLines_keeps nofun (fun _ _ _ h hgains => h.gains hgains) ?_ hd
  intro before id action hread h
  refine h.modifyState id fun s a ha => ?_
  rcases List.mem_append.mp ha with ha | ha
  · exact Or.inl ha
  · rw [List.mem_singleton.mp ha]
    exact Or.inr hread

end Draft

namespace Definition

variable {d : Definition} {content : String} {name : Option String}

/-- Every action of a definition that was read was itself read. -/
theorem exists_read_of_parse (h : parse content name = .ok d) {s : State} (hs : s ∈ d.states)
    {a : Action} (ha : a ∈ s.actions) : ∃ line text, Action.read line text = .ok a := by
  obtain ⟨fenced, diagram, actions, draft, header, hdraft, rfl⟩ := exists_draft_of_parse h
  exact Draft.stated_ofLines hdraft s (mem_of_mem_collectStates hs) a ha

/-- The variables of a definition that was read have no halves in their names. -/
theorem hasHalves_of_parse (h : parse content name = .ok d) : ∀ s ∈ d.states, ∀ a ∈ s.actions,
    ∀ bound ∈ a.binds?, hasHalves bound = false := by
  intro s hs a ha
  obtain ⟨line, text, hread⟩ := exists_read_of_parse h hs ha
  exact Action.hasHalves_of_read hread

end Definition

end Workflow

end Runbook
