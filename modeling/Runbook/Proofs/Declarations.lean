import Mathlib.Data.List.Nodup
import Runbook.Proofs.Success
import Runbook.Workflow.Draft

/-!
What a draft declares, by look-up. An operation on a draft changes the state under one identifier
and leaves the others alone, and identifiers keep the order of their first mention. A statement that
goes well is told in these terms once: an arrow and each kind of marker by the draft they lead to and
by what they ask for, so that nothing else has to open them.
-/
namespace Runbook.Workflow.Draft

open Definition (addNew)

variable {d d' : Draft} {id other : String}

def ids (d : Draft) : List String := d.states.map State.id

/-- The kind of the state under an identifier. -/
def kind? (d : Draft) (id : String) : Option StateKind := (d.state? id).map State.kind

theorem mem_of_state? {s : State} (h : d.state? id = some s) : s ∈ d.states ∧ s.id = id := by
  unfold state? at h
  have hid := List.find?_some h
  exact ⟨List.mem_of_find?_eq_some h, by simpa using hid⟩

theorem mem_ids_of_state? {s : State} (h : d.state? id = some s) : id ∈ d.ids := by
  obtain ⟨hmem, rfl⟩ := mem_of_state? h
  exact List.mem_map_of_mem hmem

theorem not_mem_ids_of_state?_eq_none (h : d.state? id = none) : id ∉ d.ids := by
  intro hid
  obtain ⟨s, hs, rfl⟩ := List.mem_map.mp hid
  exact absurd (List.find?_eq_none.mp h s hs) (by simp)

theorem state?_eq_none_iff : d.state? id = none ↔ id ∉ d.ids := by
  refine ⟨not_mem_ids_of_state?_eq_none, fun h => ?_⟩
  rw [Option.eq_none_iff_forall_ne_some]
  intro s hs
  exact h (mem_ids_of_state? hs)

theorem exists_of_mem_ids (h : id ∈ d.ids) : ∃ s, d.state? id = some s :=
  Option.ne_none_iff_exists'.mp (mt state?_eq_none_iff.mp (not_not_intro h))

theorem exists_state_of_kind? {kind : StateKind} (h : d.kind? id = some kind) :
    ∃ s, d.state? id = some s ∧ s.kind = kind := by
  unfold kind? at h
  rw [Option.map_eq_some_iff] at h
  exact h

section Operations

/-- What a state is when it is declared. -/
def newborn (d : Draft) (id : String) : State := ⟨id, .normal, [], "", d.region⟩

theorem state?_append (added : State) (hstates : d'.states = d.states ++ [added])
    (hnew : d.state? added.id = none) :
    d'.state? other = if other = added.id then some added else d.state? other := by
  unfold state? at hnew ⊢
  rw [hstates, List.find?_append]
  split
  · rename_i hother
    rw [hother, hnew]
    simp
  · rename_i hother
    have hlast : [added].find? (fun s => s.id == other) = none := by simp [Ne.symm hother]
    rw [hlast, Option.or_none]

theorem state?_declare :
    (d.declare id).state? other =
      if other = id then some ((d.state? id).getD (d.newborn id)) else d.state? other := by
  unfold declare
  split
  · rename_i s hs
    split
    · rename_i hother
      rw [hother, hs, Option.getD_some]
    · rfl
  · rename_i hnone
    rw [hnone, Option.getD_none]
    exact state?_append (d.newborn id) rfl hnone

theorem state?_declarePseudo {kind : StateKind} :
    (d.declarePseudo id kind).state? other =
      if other = id then some ((d.state? id).getD ⟨id, kind, [], "", none⟩)
      else d.state? other := by
  unfold declarePseudo
  split
  · rename_i s hs
    split
    · rename_i hother
      rw [hother, hs, Option.getD_some]
    · rfl
  · rename_i hnone
    rw [hnone, Option.getD_none]
    exact state?_append ⟨id, kind, [], "", none⟩ rfl hnone

/-- Changing a state under its identifier changes what is found there and nothing else. -/
theorem state?_modifyState {f : State → State} (hf : ∀ s : State, (f s).id = s.id) :
    (d.modifyState id f).state? other =
      if other = id then (d.state? id).map f else d.state? other := by
  have hsame : ∀ s : State, (if s.id = id then f s else s).id = s.id := by
    intro s
    split
    · exact hf s
    · rfl
  have hfind : (d.modifyState id f).state? other =
      (d.state? other).map fun s => if s.id = id then f s else s := by
    unfold modifyState state?
    rw [List.find?_map]
    congr 1
    apply congrArg (List.find? · d.states)
    funext s
    rw [Function.comp_apply, hsame]
  rw [hfind]
  cases hs : d.state? other with
  | none =>
    split
    · rename_i hother
      rw [ ← hother, hs]
      rfl
    · rfl
  | some s =>
    have hid := (mem_of_state? hs).2
    split
    · rename_i hother
      rw [ ← hother, hs, Option.map_some, Option.map_some, if_pos hid]
    · rename_i hother
      rw [Option.map_some, if_neg (fun h => hother (hid.symm.trans h))]

/-- A draft with a state marked. -/
def marked (d : Draft) (id : String) (kind : StateKind) : Draft :=
  d.modifyState id fun s => { s with kind := kind }

theorem state?_marked {kind : StateKind} :
    (d.marked id kind).state? other =
      if other = id then (d.state? id).map fun s => { s with kind := kind } else d.state? other :=
  state?_modifyState fun _ => rfl

theorem ids_append (added : State) (hstates : d'.states = d.states ++ [added]) :
    d'.ids = d.ids ++ [added.id] := by
  unfold ids
  rw [hstates, List.map_append]
  rfl

theorem ids_declare : (d.declare id).ids = addNew d.ids id := by
  unfold declare addNew
  split
  · rename_i s hs
    rw [if_pos (List.contains_iff_mem.mpr (mem_ids_of_state? hs))]
  · rename_i hnone
    rw [if_neg (mt List.contains_iff_mem.mp (state?_eq_none_iff.mp hnone))]
    exact ids_append (d.newborn id) rfl

theorem ids_declarePseudo {kind : StateKind} : (d.declarePseudo id kind).ids = addNew d.ids id := by
  unfold declarePseudo addNew
  split
  · rename_i s hs
    rw [if_pos (List.contains_iff_mem.mpr (mem_ids_of_state? hs))]
  · rename_i hnone
    rw [if_neg (mt List.contains_iff_mem.mp (state?_eq_none_iff.mp hnone))]
    exact ids_append ⟨id, kind, [], "", none⟩ rfl

theorem ids_modifyState {f : State → State} (hf : ∀ s : State, (f s).id = s.id) :
    (d.modifyState id f).ids = d.ids := by
  unfold modifyState ids
  rw [List.map_map]
  refine List.map_congr_left fun s _ => ?_
  rw [Function.comp_apply]
  split
  · exact hf s
  · rfl

theorem ids_marked {kind : StateKind} : (d.marked id kind).ids = d.ids :=
  ids_modifyState fun _ => rfl

theorem mem_addNew {ids : List String} : other ∈ addNew ids id ↔ other ∈ ids ∨ other = id := by
  unfold addNew
  split
  · rename_i hold
    refine ⟨Or.inl, fun h => h.elim (fun hmem => hmem) ?_⟩
    rintro rfl
    exact List.contains_iff_mem.mp hold
  · simp

theorem nodup_addNew {ids : List String} (h : ids.Nodup) (id : String) :
    (addNew ids id).Nodup := by
  unfold addNew
  split
  · exact h
  · rename_i hnew
    have hmem : id ∉ ids := mt List.contains_iff_mem.mpr hnew
    rw [List.nodup_append]
    refine ⟨h, List.nodup_singleton id, ?_⟩
    rintro a ha b hb rfl
    exact hmem (List.mem_singleton.mp hb ▸ ha)

theorem ids_declareSource (e : Endpoint) : (d.declareSource e).ids = addNew d.ids (sourceId e) := by
  cases e with
  | pseudo => exact ids_declarePseudo
  | state id => exact ids_declare

theorem ids_declareTarget (e : Endpoint) : (d.declareTarget e).ids = addNew d.ids (targetId e) := by
  cases e with
  | pseudo => exact ids_declarePseudo
  | state id => exact ids_declare

end Operations

section Statements

variable {line : Nat}

/-- A draft that notes the line of the initial transition, if it is one. -/
def begun (d : Draft) (line : Nat) : Endpoint → Draft
  | .pseudo => { d with initialLine := some line }
  | .state _ => d

/-- A draft with the endpoints of an arrow declared. -/
def linking (d : Draft) (line : Nat) (source target : Endpoint) : Draft :=
  ((d.begun line source).declareSource source).declareTarget target

theorem exists_states_declare (d : Draft) (id : String) :
    ∃ states, d.declare id = { d with states := states } := by
  unfold declare
  split
  · exact ⟨d.states, rfl⟩
  · exact ⟨_, rfl⟩

theorem exists_states_describe (d : Draft) (id text : String) :
    ∃ states, d.describe id text = { d with states := states } := by
  obtain ⟨states, hstates⟩ := exists_states_declare d id
  unfold describe
  rw [hstates]
  exact ⟨_, rfl⟩

theorem exists_states_declarePseudo (d : Draft) (id : String) (kind : StateKind) :
    ∃ states, d.declarePseudo id kind = { d with states := states } := by
  unfold declarePseudo
  split
  · exact ⟨d.states, rfl⟩
  · exact ⟨_, rfl⟩

theorem exists_states_declareSource (d : Draft) (e : Endpoint) :
    ∃ states, d.declareSource e = { d with states := states } := by
  cases e with
  | pseudo => exact exists_states_declarePseudo d startId .initial
  | state id => exact exists_states_declare d id

theorem exists_states_declareTarget (d : Draft) (e : Endpoint) :
    ∃ states, d.declareTarget e = { d with states := states } := by
  cases e with
  | pseudo => exact exists_states_declarePseudo d endId .terminal
  | state id => exact exists_states_declare d id

/-- To declare the endpoints of an arrow changes nothing but the states, and the line of the initial
transition. -/
theorem exists_states_linking (d : Draft) (line : Nat) (source target : Endpoint) :
    ∃ states, d.linking line source target = { d.begun line source with states := states } := by
  obtain ⟨first, hfirst⟩ := exists_states_declareSource (d.begun line source) source
  obtain ⟨second, hsecond⟩ :=
    exists_states_declareTarget ((d.begun line source).declareSource source) target
  refine ⟨second, ?_⟩
  unfold linking
  rw [hsecond, hfirst]

/-- A draft with an arrow. -/
def draw (d : Draft) (line : Nat) (source target : Endpoint) (guard label : Option String) :
    Draft :=
  let linked := d.linking line source target
  { linked with transitions := linked.transitions ++
    [⟨sourceId source, targetId target, guard, label, some line⟩] }

theorem exists_states_draw (d : Draft) (line : Nat) (source target : Endpoint)
    (guard label : Option String) :
    ∃ states, d.draw line source target guard label =
      { d.begun line source with
        states := states
        transitions := d.transitions ++
          [⟨sourceId source, targetId target, guard, label, some line⟩] } := by
  obtain ⟨states, hstates⟩ := exists_states_linking d line source target
  refine ⟨states, ?_⟩
  unfold draw
  rw [hstates]
  cases source <;> rfl

/-- An arrow is added exactly when its text can be read and no other one comes out of the initial
pseudostate where this one does. -/
theorem addArrow_eq_ok_iff {source target : Endpoint} {rest : String} :
    d.addArrow line source target rest = .ok d' ↔
      ∃ guard label, readExit line rest = .ok (guard, label) ∧
        (source = .pseudo → d.initialLine = none) ∧
        d' = d.draw line source target guard label := by
  have hcheck : ∀ checked, d.checkSource line source = .ok checked ↔
      (source = .pseudo → d.initialLine = none) ∧ checked = d.begun line source := by
    intro checked
    unfold checkSource begun
    cases source with
    | state id => simp [eq_comm]
    | pseudo => cases d.initialLine <;> simp [eq_comm]
  unfold addArrow
  simp only [bind_eq_ok_iff, hcheck]
  constructor
  · rintro ⟨⟨guard, label⟩, hexit, checked, ⟨hfirst, rfl⟩, hd⟩
    cases hd
    exact ⟨guard, label, hexit, hfirst, rfl⟩
  · rintro ⟨guard, label, hexit, hfirst, rfl⟩
    exact ⟨(guard, label), hexit, _, ⟨hfirst, rfl⟩, rfl⟩

/-- A draft with a state marked as a fork, whose region is open. -/
def forked (d : Draft) (line : Nat) (id : String) : Draft :=
  { (d.declare id).marked id .fork with openForks := (id, line) :: d.openForks }

/-- A draft with a state marked as a join, which closes the region of a fork. -/
def joined (d : Draft) (id fork : String) (outer : List (String × Nat)) : Draft :=
  let marked := (d.declare id).marked id .join
  { marked with openForks := outer, regions := d.regions ++ [Region.mk fork id] }.modifyState id
    fun s => { s with region := outer.head?.map Prod.fst }

theorem state?_joined {fork : String} {outer : List (String × Nat)} :
    (d.joined id fork outer).state? other =
      if other = id then (((d.declare id).marked id .join).state? id).map
        fun s => { s with region := outer.head?.map Prod.fst }
      else ((d.declare id).marked id .join).state? other := by
  have hid : ∀ s : State, { s with region := outer.head?.map Prod.fst }.id = s.id := fun _ => rfl
  exact state?_modifyState hid

/-- What a marker of a kind makes of a draft. -/
inductive Marks (line : Nat) (id : String) (d : Draft) : StateKind → Draft → Prop
  | choice : Marks line id d .choice ((d.declare id).marked id .choice)
  | fork : Marks line id d .fork (d.forked line id)
  | join {fork : String} {first : Nat} {outer : List (String × Nat)}
      (hopen : d.openForks = (fork, first) :: outer) :
      Marks line id d .join (d.joined id fork outer)

/-- A marker changes nothing but the states and the regions. -/
theorem Marks.exists_eq {kind : StateKind} (h : Marks line id d kind d') :
    ∃ states openForks regions,
      d' = { d with states := states, openForks := openForks, regions := regions } := by
  obtain ⟨states, hstates⟩ := exists_states_declare d id
  cases h with
  | choice =>
    rw [hstates]
    exact ⟨_, _, _, rfl⟩
  | fork =>
    unfold forked
    rw [hstates]
    exact ⟨_, _, _, rfl⟩
  | join =>
    unfold joined
    rw [hstates]
    exact ⟨_, _, _, rfl⟩

theorem ids_joined {fork : String} {outer : List (String × Nat)} :
    (d.joined id fork outer).ids = ((d.declare id).marked id .join).ids := by
  have hid : ∀ s : State, { s with region := outer.head?.map Prod.fst }.id = s.id := fun _ => rfl
  exact ids_modifyState hid

theorem ids_describe {text : String} : (d.describe id text).ids = addNew d.ids id := by
  have hid : ∀ s : State, { s with description := text }.id = s.id := fun _ => rfl
  exact (ids_modifyState hid).trans ids_declare

theorem Marks.ids {kind : StateKind} (h : Marks line id d kind d') : d'.ids = addNew d.ids id := by
  have hmarked : ∀ kind, ((d.declare id).marked id kind).ids = addNew d.ids id :=
    fun _ => ids_marked.trans ids_declare
  cases h with
  | choice => exact hmarked .choice
  | fork => exact hmarked .fork
  | join => exact ids_joined.trans (hmarked .join)

theorem ids_linking {source target : Endpoint} :
    (d.linking line source target).ids = addNew (addNew d.ids (sourceId source)) (targetId target) := by
  have hbegun : (d.begun line source).ids = d.ids := by
    cases source <;> rfl
  unfold linking
  rw [ids_declareTarget, ids_declareSource, hbegun]

/-- A state may be marked as of a kind. -/
def MayBe (d : Draft) (id : String) (kind : StateKind) : Prop :=
  ∀ present, d.kind? id = some present → present = .normal ∨ present = kind

theorem openForks_declare : (d.declare id).openForks = d.openForks := by
  obtain ⟨states, hstates⟩ := exists_states_declare d id
  rw [hstates]

theorem regions_declare : (d.declare id).regions = d.regions := by
  obtain ⟨states, hstates⟩ := exists_states_declare d id
  rw [hstates]

theorem conflicting_iff {kind : StateKind} :
    (((((d.declare id).state? id).map State.kind).getD .normal ≠ .normal ∧
      (((d.declare id).state? id).map State.kind).getD .normal ≠ kind)) ↔ ¬ d.MayBe id kind := by
  have hpresent : (((d.declare id).state? id).map State.kind).getD .normal =
      (d.kind? id).getD .normal := by
    unfold kind?
    rw [state?_declare, if_pos rfl]
    cases d.state? id <;> rfl
  rw [hpresent]
  unfold MayBe
  cases d.kind? id <;> simp

theorem closeRegion_eq_ok_iff :
    d.closeRegion line id = .ok d' ↔ ∃ fork first outer, d.openForks = (fork, first) :: outer ∧
      d' = { d with openForks := outer, regions := d.regions ++ [Region.mk fork id] }.modifyState id
        fun s => { s with region := outer.head?.map Prod.fst } := by
  unfold closeRegion
  cases hopen : d.openForks with
  | nil => simp
  | cons region outer =>
    constructor
    · intro hd
      cases hd
      exact ⟨region.1, region.2, outer, rfl, rfl⟩
    · rintro ⟨fork, first, outer', heq, rfl⟩
      obtain ⟨rfl, rfl⟩ := List.cons.inj heq
      rfl

theorem kind_of_markerKind? {word : String} {kind : StateKind}
    (h : markerKind? word = some kind) : kind = .choice ∨ kind = .fork ∨ kind = .join := by
  have hmem := List.mem_of_find?_eq_some h
  simpa only [List.mem_cons, List.not_mem_nil, or_false] using hmem

/-- A marker is added exactly when it names a kind that the state may have, and a join's closes the
innermost region. -/
theorem addMarker_eq_ok_iff {word : String} :
    d.addMarker line id word = .ok d' ↔
      ∃ kind, markerKind? word = some kind ∧ d.MayBe id kind ∧ Marks line id d kind d' := by
  unfold addMarker
  cases hkind : markerKind? word with
  | none => simp
  | some kind =>
    simp only [Option.some.injEq, exists_eq_left']
    by_cases hfree : d.MayBe id kind
    · rw [if_neg (mt conflicting_iff.mp (not_not_intro hfree)), and_iff_right hfree]
      rcases kind_of_markerKind? hkind with rfl | rfl | rfl
      · constructor
        · intro hd
          cases hd
          exact .choice
        · rintro ⟨⟩
          rfl
      · have hforked : d.forked line id =
            { (d.declare id).modifyState id (fun s => { s with kind := .fork }) with
              openForks := (id, line) :: (d.declare id).openForks } := by
          rw [openForks_declare]
          rfl
        constructor
        · intro hd
          cases hd
          exact hforked ▸ .fork
        · rintro ⟨⟩
          rw [hforked]
          rfl
      · have hopenForks : ((d.declare id).marked id .join).openForks = d.openForks :=
          openForks_declare
        have hregions : ((d.declare id).marked id .join).regions = d.regions := regions_declare
        refine closeRegion_eq_ok_iff.trans ?_
        constructor
        · rintro ⟨fork, first, outer, hopen, rfl⟩
          have hmarks : Marks line id d .join (d.joined id fork outer) :=
            .join (hopenForks.symm.trans hopen)
          unfold joined at hmarks
          rw [ ← hregions] at hmarks
          exact hmarks
        · rintro ⟨⟩
          rename_i fork first outer hopen
          refine ⟨fork, first, outer, hopenForks.trans hopen, ?_⟩
          unfold joined
          rw [ ← hregions]
          rfl
    · rw [if_pos (conflicting_iff.mpr hfree)]
      simp [hfree]

end Statements

/-- What a state with several unguarded exits is refused for, unless it is a fork. -/
def exitFault? (d : Draft) (id : String) : Option DocumentFault :=
  match d.unguardedExits id with
  | exits@(_ :: second :: _) =>
    if d.isFork id then none
    else some ⟨.ambiguousExits id exits.length, second.line.map Int.ofNat, some id, none, none⟩
  | _ => none

theorem checkExits_eq : d.checkExits =
    match d.unguardedSources.findSome? d.exitFault? with
    | none => .ok ()
    | some f => .error f := rfl

/-- A diagram and its action list make a draft exactly when every line can be added, all regions are
closed at the end of the diagram, and no state but a fork has several unguarded exits there. -/
theorem ofLines_eq_ok_iff {fenced : Bool} {diagram actions : List (Nat × String)} :
    ofLines fenced diagram actions = .ok d ↔
      ∃ drawn, empty.addLines fenced diagram = .ok drawn ∧ drawn.openForks = [] ∧
        drawn.checkExits = .ok () ∧ drawn.addActions actions = .ok d := by
  have hclosed : ∀ drawn : Draft, drawn.checkRegions = .ok () ↔ drawn.openForks = [] := by
    intro drawn
    unfold checkRegions
    split
    · rename_i hnil
      simp [hnil]
    · rename_i hcons
      simp [hcons]
  unfold ofLines
  simp only [bind_eq_ok_iff]
  constructor
  · rintro ⟨drawn, hdrawn, _, hregions, _, hexits, hd⟩
    exact ⟨drawn, hdrawn, (hclosed drawn).mp hregions, hexits, hd⟩
  · rintro ⟨drawn, hdrawn, hregions, hexits, hd⟩
    exact ⟨drawn, hdrawn, (), (hclosed drawn).mpr hregions, (), hexits, hd⟩

end Runbook.Workflow.Draft
