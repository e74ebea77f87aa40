import Runbook.Proofs.Drawing
import Runbook.Proofs.Endpoints
import Runbook.Proofs.Regions

/-!
What every definition keeps to that was read from a document. It begins in at most one state, with
one way out and none in, and nothing leads on from its end; only forks have several unguarded exits;
forks and joins are paired by its regions, and states lie in the regions of forks; its transitions
stand in the order of their lines. So validation never reports an endpoint that is not declared, a
second initial state, an ambiguous exit, or a fork without a join on such a definition.
-/
namespace Runbook.Workflow

section Collecting

theorem State.putIn_of_not_mem {s : State} {states : List State}
    (h : s.id ∉ states.map State.id) : s.putIn states = states ++ [s] := by
  induction states with
  | nil => rfl
  | cons first rest ih =>
    rw [List.map_cons, List.mem_cons, not_or] at h
    rw [State.putIn, if_neg (Ne.symm h.1), ih h.2, List.cons_append]

/-- States with distinct identifiers stay as they are. -/
theorem collectStates_of_distinctIds {states : List State} (h : distinctIds states) :
    collectStates states = states := by
  suffices hfold : ∀ collected : List State, ((collected ++ states).map State.id).Nodup →
      states.foldl (fun acc s => State.putIn s acc) collected = collected ++ states from hfold [] h
  clear h
  induction states with
  | nil => simp
  | cons s rest ih =>
    intro collected hnodup
    have hnew : s.id ∉ collected.map State.id := by
      rw [List.map_append, List.map_cons, List.nodup_append] at hnodup
      intro hmem
      exact hnodup.2.2 s.id hmem s.id (List.mem_cons_self ..) rfl
    rw [List.foldl_cons, State.putIn_of_not_mem hnew, ih, List.append_assoc]
    · rfl
    · rwa [List.append_assoc]

end Collecting

namespace Draft

variable {d d' : Draft}

theorem nodup_ids_gains {line : Nat} (h : d.ids.Nodup) (hd : Gains line d d') : d'.ids.Nodup := by
  cases hd with
  | aside notes openNote => exact h
  | description hid text =>
    rename_i id
    have hids : (d.describe id text).ids = Definition.addNew d.ids id := ids_describe
    exact hids ▸ nodup_addNew h id
  | arrow hsource htarget hfirst =>
    rename_i source target guard label
    change (d.linking line source target).ids.Nodup
    rw [ids_linking]
    exact nodup_addNew (nodup_addNew h _) _
  | marker hid hfree hmarks => exact hmarks.ids ▸ nodup_addNew h _

theorem nodup_ids_ofLines {fenced : Bool} {diagram actions : List (Nat × String)}
    (hd : ofLines fenced diagram actions = .ok d) : d.ids.Nodup := by
  refine ofLines_keeps List.nodup_nil (fun _ _ _ h hgains => nodup_ids_gains h hgains) ?_ hd
  intro before id action _ h
  rwa [ids_withAction]

section Ends

/-- The initial pseudostate is declared once the line of the transition out of it is noted, and that
transition is the only one; nothing leads on from the terminal pseudostate. -/
structure Begins (d : Draft) : Prop where
  exits : (d.transitions.filter fun t => t.source == startId).length =
    if d.initialLine.isSome then 1 else 0
  initial : d.kind? startId = if d.initialLine.isSome then some .initial else none
  sources : ∀ t ∈ d.transitions, t.source ≠ endId

theorem Begins.of_eq (h : d.Begins) (htransitions : d'.transitions = d.transitions)
    (hline : d'.initialLine = d.initialLine) (hkind : d'.kind? startId = d.kind? startId) :
    d'.Begins := by
  refine ⟨?_, ?_, ?_⟩
  · rw [htransitions, hline]
    exact h.exits
  · rw [hkind, hline]
    exact h.initial
  · rw [htransitions]
    exact h.sources

theorem kind?_describe {id other text : String} :
    (d.describe id text).kind? other = (d.declare id).kind? other := by
  have hid : ∀ s : State, { s with description := text }.id = s.id := fun _ => rfl
  exact kind?_modifyState hid fun _ => rfl

theorem kind?_declarePseudo_of_ne {id other : String} {kind : StateKind} (hne : other ≠ id) :
    (d.declarePseudo id kind).kind? other = d.kind? other := by
  unfold kind?
  rw [state?_declarePseudo, if_neg hne]

theorem kind?_startId_of_marks {line : Nat} {id : String} {kind : StateKind} (hid : id ≠ startId)
    (h : Marks line id d kind d') : d'.kind? startId = d.kind? startId := by
  have hmarked : ∀ kind, ((d.declare id).marked id kind).kind? startId = d.kind? startId := by
    intro kind
    rw [kind?_marked_declare, if_neg (Ne.symm hid)]
  cases h with
  | choice => exact hmarked .choice
  | fork => exact hmarked .fork
  | join hopen => exact kind?_joined.trans (hmarked .join)

theorem kind?_startId_of_declareTarget {target : Endpoint} (htarget : target.Unreserved) :
    (d.declareTarget target).kind? startId = d.kind? startId := by
  cases target with
  | pseudo => exact kind?_declarePseudo_of_ne (by decide)
  | state id =>
    change (d.declare id).kind? startId = d.kind? startId
    rw [kind?_declare, if_neg (Ne.symm (htarget id rfl).1)]

theorem Begins.draw (h : d.Begins) {line : Nat} {source target : Endpoint}
    {guard label : Option String} (hsource : source.Unreserved) (htarget : target.Unreserved)
    (hfirst : source = .pseudo → d.initialLine = none) :
    (d.draw line source target guard label).Begins := by
  obtain ⟨states, hstates⟩ := exists_states_draw d line source target guard label
  have htransitions : (d.draw line source target guard label).transitions = d.transitions ++
      [⟨sourceId source, targetId target, guard, label, some line⟩] := by
    rw [hstates]
  have hline : (d.draw line source target guard label).initialLine =
      (d.begun line source).initialLine := by
    rw [hstates]
  have hkind : (d.draw line source target guard label).kind? startId =
      ((d.begun line source).declareSource source).kind? startId :=
    kind?_startId_of_declareTarget htarget
  refine ⟨?_, ?_, ?_⟩
  · rw [htransitions, hline, List.filter_append, List.length_append, h.exits]
    cases source with
    | pseudo =>
      rw [hfirst rfl]
      rfl
    | state id =>
      have hne : (id == startId) = false := by
        rw [beq_eq_false_iff_ne]
        exact (hsource id rfl).1
      have hlast : [Transition.mk id (targetId target) guard label (some line)].filter
          (fun t => t.source == startId) = [] := by simp [hne]
      change _ + ([Transition.mk id (targetId target) guard label (some line)].filter
        fun t => t.source == startId).length = _
      rw [hlast]
      rfl
  · rw [hkind, hline]
    cases source with
    | pseudo =>
      have hnone : d.kind? startId = none := by
        rw [h.initial, hfirst rfl]
        rfl
      change ((d.begun line .pseudo).declarePseudo startId .initial).kind? startId = some .initial
      unfold kind? at hnone ⊢
      rw [Option.map_eq_none_iff] at hnone
      have hbegun : (d.begun line .pseudo).state? startId = none := hnone
      rw [state?_declarePseudo, if_pos rfl, hbegun]
      rfl
    | state id =>
      change (d.declare id).kind? startId = _
      rw [kind?_declare, if_neg (Ne.symm (hsource id rfl).1)]
      exact h.initial
  · rw [htransitions]
    intro t ht
    rcases List.mem_append.mp ht with ht | ht
    · exact h.sources t ht
    · rw [List.mem_singleton.mp ht]
      cases source with
      | pseudo => exact (by decide : startId ≠ endId)
      | state id => exact (hsource id rfl).2

theorem Begins.gains {line : Nat} (h : d.Begins) (hd : Gains line d d') : d'.Begins := by
  cases hd with
  | aside notes openNote => exact ⟨h.exits, h.initial, h.sources⟩
  | description hid text =>
    rename_i id
    obtain ⟨states, hstates⟩ := exists_states_describe d id text
    have hkind : (d.describe id text).kind? startId = d.kind? startId := by
      rw [kind?_describe, kind?_declare, if_neg (Ne.symm hid)]
    refine h.of_eq ?_ ?_ hkind
    all_goals rw [hstates]
  | arrow hsource htarget hfirst => exact h.draw hsource htarget hfirst
  | marker hid hfree hmarks =>
    have hkind := kind?_startId_of_marks hid hmarks
    obtain ⟨states, openForks, regions, rfl⟩ := hmarks.exists_eq
    exact h.of_eq rfl rfl hkind

theorem begins_ofLines {fenced : Bool} {diagram actions : List (Nat × String)}
    (hd : ofLines fenced diagram actions = .ok d) : d.Begins := by
  refine ofLines_keeps ⟨rfl, rfl, nofun⟩ (fun _ _ _ h hgains => h.gains hgains) ?_ hd
  exact fun before id action _ h => h.of_eq rfl rfl kind?_withAction

end Ends

/-- Only forks have several unguarded exits where that is checked. -/
theorem length_unguardedExits_of_checkExits (h : d.checkExits = .ok ()) {id : String}
    (hid : d.kind? id ≠ some .fork) : (d.unguardedExits id).length ≤ 1 := by
  by_contra hlong
  obtain ⟨first, second, rest, hexits⟩ :
      ∃ first second rest, d.unguardedExits id = first :: second :: rest := by
    match hexits : d.unguardedExits id with
    | [] => simp [hexits] at hlong
    | [t] => simp [hexits] at hlong
    | first :: second :: rest => exact ⟨first, second, rest, rfl⟩
  have hsource : id ∈ d.unguardedSources := by
    have hmem : first ∈ d.unguardedExits id := hexits ▸ List.mem_cons_self ..
    unfold unguardedExits at hmem
    rw [List.mem_filter, Bool.and_eq_true, beq_iff_eq] at hmem
    obtain ⟨hfirst, hfrom, hunguarded⟩ := hmem
    unfold unguardedSources
    rw [Definition.mem_foldl_addNew]
    right
    exact List.mem_map.mpr ⟨first, List.mem_filter.mpr ⟨hfirst, hunguarded⟩, hfrom⟩
  have hfork : d.isFork id = false := by
    unfold isFork
    rw [beq_eq_false_iff_ne]
    exact hid
  unfold checkExits at h
  simp only at h
  split at h
  · rename_i hnone
    have hfault := List.findSome?_eq_none_iff.mp hnone id hsource
    rw [hexits] at hfault
    simp [hfork] at hfault
  · cases h

/-- Action entries leave the kinds and the exits of states alone. -/
theorem length_unguardedExits_le {fenced : Bool} {diagram actions : List (Nat × String)}
    (hd : ofLines fenced diagram actions = .ok d) {id : String} (hid : d.kind? id ≠ some .fork) :
    (d.unguardedExits id).length ≤ 1 := by
  obtain ⟨drawn, -, -, hexits, hactions⟩ := ofLines_eq_ok_iff.mp hd
  have hsame : (∀ other, d.kind? other = drawn.kind? other) ∧
      d.transitions = drawn.transitions := by
    refine foldlM_keeps (P := fun d => (∀ other, d.kind? other = drawn.kind? other) ∧
      d.transitions = drawn.transitions) ?_ ⟨fun _ => rfl, rfl⟩ hactions
    intro before line after ⟨hkind, htransitions⟩ hstep
    rcases exists_of_addAction hstep with rfl | ⟨entry, text, action, -, rfl⟩
    · exact ⟨hkind, htransitions⟩
    · exact ⟨fun other => kind?_withAction.trans (hkind other), htransitions⟩
  have hcount : d.unguardedExits id = drawn.unguardedExits id := by
    unfold unguardedExits
    rw [hsame.2]
  rw [hcount]
  exact length_unguardedExits_of_checkExits hexits (hsame.1 id ▸ hid)

end Draft

/-- What every definition keeps to that was read from a document. -/
structure Definition.WellDrawn (d : Definition) : Prop where
  /-- Transitions join declared states. -/
  linked : d.Linked
  oneInitial : (d.ofKind .initial).length ≤ 1
  oneTerminal : (d.ofKind .terminal).length ≤ 1
  /-- There is one way out of the initial state, and the metadata name where it leads. -/
  initial : ∀ s ∈ d.states, s.kind = .initial → s.id = startId ∧ d.incoming s.id = [] ∧
    ∃ t, d.outgoing s.id = [t] ∧ d.metadata.initialState = some t.target
  noInitial : d.ofKind .initial = [] → d.metadata.initialState = none
  terminal : ∀ s ∈ d.states, s.kind = .terminal → s.id = endId ∧ d.outgoing s.id = []
  exits : ∀ s ∈ d.states, s.kind ≠ .fork → d.unguardedCount s.id ≤ 1
  forks : ∀ s ∈ d.states, s.kind = .fork → ∃ r ∈ d.regions, r.fork = s.id
  joins : ∀ s ∈ d.states, s.kind = .join → ∃ r ∈ d.regions, r.join = s.id
  regions : ∀ r ∈ d.regions, (∃ s ∈ d.states, s.id = r.fork ∧ s.kind = .fork) ∧
    ∃ s ∈ d.states, s.id = r.join ∧ s.kind = .join
  inner : ∀ s ∈ d.states, ∀ fork ∈ s.region, ∃ f ∈ d.states, f.id = fork ∧ f.kind = .fork
  /-- Transitions stand in the order of their lines, at most one to a line. -/
  lines : ∃ numbers : List Nat, d.transitions.map Transition.line = numbers.map some ∧
    numbers.Pairwise (· < ·)

section Lines

open Draft

/-- The lines that transitions are drawn on, in their order. -/
theorem Draft.exists_numbers_drawn (inside : Bool) (lines : List NumberedLine) :
    ∃ numbers : List Nat, (drawn inside lines).map (fun e => e.2.2) = numbers.map some ∧
      numbers.Sublist (lines.map Prod.fst) := by
  induction lines generalizing inside with
  | nil => exact ⟨[], rfl, .slnil⟩
  | cons line rest ih =>
    obtain ⟨numbers, hnumbers, hsublist⟩ := ih (insideAfter inside line)
    rw [drawn, List.map_append, hnumbers, List.map_cons]
    have hnone : ∃ more : List Nat, numbers.map some = more.map some ∧
        more.Sublist (line.1 :: rest.map Prod.fst) := ⟨numbers, rfl, hsublist.cons _⟩
    split
    · exact hnone
    · unfold drawnBy
      split
      · exact ⟨line.1 :: numbers, rfl, hsublist.cons_cons _⟩
      · exact hnone

theorem Draft.exists_lines_of_ofLines {d : Draft} {fenced : Bool}
    {diagram actions : List NumberedLine} (hd : ofLines fenced diagram actions = .ok d)
    (hordered : (diagram.map Prod.fst).Pairwise (· < ·)) :
    ∃ numbers : List Nat, d.transitions.map Transition.line = numbers.map some ∧
      numbers.Pairwise (· < ·) := by
  obtain ⟨numbers, hnumbers, hsublist⟩ := exists_numbers_drawn false diagram
  refine ⟨numbers, ?_, hordered.sublist hsublist⟩
  rw [ ← hnumbers, ← ends_ofLines hd, List.map_map]
  rfl

end Lines

namespace Definition

variable {d : Definition}

/-- States of one kind are at most one, where they all have the same identifier. -/
theorem length_ofKind_le {kind : StateKind} {id : String}
    (h : ∀ s ∈ d.states, s.kind = kind → s.id = id) : (d.ofKind kind).length ≤ 1 := by
  have hdistinct : ((d.ofKind kind).map State.id).Nodup :=
    d.distinct.sublist (List.filter_sublist.map _)
  have hall : ∀ s ∈ d.ofKind kind, s.id = id := by
    intro s hs
    obtain ⟨hmem, hkind⟩ := mem_ofKind.mp hs
    exact h s hmem hkind
  match hstates : d.ofKind kind with
  | [] => exact Nat.zero_le 1
  | [s] => exact le_refl 1
  | first :: second :: rest =>
    rw [hstates] at hdistinct hall
    have hfirst := hall first (List.mem_cons_self ..)
    have hsecond := hall second (List.mem_cons_of_mem _ (List.mem_cons_self ..))
    rw [List.map_cons, List.nodup_cons, List.map_cons, hfirst, hsecond] at hdistinct
    exact absurd (List.mem_cons_self ..) hdistinct.1

variable {name : Option String} {header : Header} {draft : Draft}

theorem states_ofDraft (h : draft.ids.Nodup) : (ofDraft name header draft).states = draft.states :=
  collectStates_of_distinctIds h

theorem state?_ofDraft (h : draft.ids.Nodup) (id : String) :
    (ofDraft name header draft).state? id = draft.state? id := by
  unfold state?
  rw [states_ofDraft h]
  rfl

/-- What is told of a state by its kind in the draft is told of it in the definition. -/
theorem kind?_of_mem_ofDraft (h : draft.ids.Nodup) {s : State}
    (hs : s ∈ (ofDraft name header draft).states) : draft.kind? s.id = some s.kind := by
  unfold Draft.kind?
  have hstate : draft.state? s.id = some s :=
    (state?_ofDraft h s.id).symm.trans (state?_of_mem hs)
  rw [hstate]
  rfl

theorem unguardedCount_ofDraft (id : String) :
    (ofDraft name header draft).unguardedCount id = (draft.unguardedExits id).length := by
  unfold unguardedCount outgoing Draft.unguardedExits
  rw [List.filter_filter]
  congr 1
  apply List.filter_congr
  intro t _
  exact Bool.and_comm ..

/-- One transition leads out of the initial state of a draft, which the metadata name. -/
theorem exists_outgoing_startId (h : draft.Begins) (hinitial : draft.kind? startId = some .initial) :
    ∃ t, (ofDraft name header draft).outgoing startId = [t] ∧
      (ofDraft name header draft).metadata.initialState = some t.target := by
  have hone : (draft.transitions.filter fun t => t.source == startId).length = 1 := by
    have hsome : draft.initialLine.isSome = true := by
      by_contra hnone
      rw [h.initial, if_neg hnone] at hinitial
      cases hinitial
    rw [h.exits, if_pos hsome]
  obtain ⟨t, ht⟩ := List.length_eq_one_iff.mp hone
  refine ⟨t, ht, ?_⟩
  change (draft.transitions.find? fun t => t.source == startId).map Transition.target = _
  rw [ ← List.head?_filter, ht]
  rfl

theorem initialState_of_not_kind? (h : draft.Begins) (hinitial : draft.kind? startId ≠ some .initial) :
    (ofDraft name header draft).metadata.initialState = none := by
  have hnone : draft.initialLine.isSome ≠ true := by
    intro hsome
    rw [h.initial, if_pos hsome] at hinitial
    exact hinitial rfl
  have hexits : draft.transitions.filter (fun t => t.source == startId) = [] := by
    rw [ ← List.length_eq_zero_iff, h.exits, if_neg hnone]
  change (draft.transitions.find? fun t => t.source == startId).map Transition.target = none
  rw [ ← List.head?_filter, hexits]
  rfl

theorem wellDrawn_of_parse {text : String} (h : parse text name = .ok d) : d.WellDrawn := by
  have hlinked := linked_of_parse h
  have hreserved := fun s (hs : s ∈ d.states) => reservedId_of_parse h hs
  have honward := fun t (ht : t ∈ d.transitions) => target_ne_startId_of_parse h ht
  unfold parse at h
  simp only [bind_eq_ok_iff, mapError_eq_ok_iff] at h
  obtain ⟨layout, hlayout, header, -, body, hbody, draft, hdraft, hd⟩ := h
  cases hd
  have hpart : body.diagram <:+: Document.numbered text :=
    (Document.isInfix_splitBody hbody).trans (Document.isSuffix_layout hlayout).isInfix
  have hordered : (body.diagram.map Prod.fst).Pairwise (· < ·) := by
    refine List.Pairwise.sublist (hpart.sublist.map Prod.fst) ?_
    rw [Document.numbers_numbered]
    exact List.pairwise_lt_range'
  have hnodup := Draft.nodup_ids_ofLines hdraft
  have hpaired := Draft.paired_ofLines hdraft
  have hbegins := Draft.begins_ofLines hdraft
  have hkind := fun s (hs : s ∈ (ofDraft name header draft).states) =>
    kind?_of_mem_ofDraft hnodup hs
  have hfound : ∀ id kind, draft.kind? id = some kind →
      ∃ s ∈ (ofDraft name header draft).states, s.id = id ∧ s.kind = kind := by
    intro id kind hid
    obtain ⟨s, hs, hskind⟩ := Draft.exists_state_of_kind? hid
    obtain ⟨hmem, hsid⟩ := Draft.mem_of_state? hs
    exact ⟨s, (states_ofDraft hnodup).symm ▸ hmem, hsid, hskind⟩
  constructor
  case linked => exact hlinked
  case oneInitial => exact length_ofKind_le fun s hs => (hreserved s hs).1
  case oneTerminal => exact length_ofKind_le fun s hs => (hreserved s hs).2
  case initial =>
    intro s hs hinitial
    have hid := (hreserved s hs).1 hinitial
    rw [hid]
    refine ⟨rfl, ?_, ?_⟩
    · unfold incoming
      rw [List.filter_eq_nil_iff]
      intro t ht
      rw [beq_iff_eq]
      exact honward t ht
    · apply exists_outgoing_startId hbegins
      rw [ ← hid, hkind s hs, hinitial]
  case noInitial =>
    intro hnone
    apply initialState_of_not_kind? hbegins
    intro hinitial
    obtain ⟨s, hs, -, hskind⟩ := hfound startId .initial hinitial
    exact List.ne_nil_of_mem (mem_ofKind.mpr ⟨hs, hskind⟩) hnone
  case terminal =>
    intro s hs hterminal
    have hid := (hreserved s hs).2 hterminal
    rw [hid]
    refine ⟨rfl, ?_⟩
    unfold outgoing
    rw [List.filter_eq_nil_iff]
    intro t ht
    rw [beq_iff_eq]
    exact hbegins.sources t ht
  case exits =>
    intro s hs hnotFork
    rw [unguardedCount_ofDraft]
    apply Draft.length_unguardedExits_le hdraft
    rw [hkind s hs]
    exact fun hfork => hnotFork (Option.some.inj hfork)
  case forks =>
    intro s hs hfork
    have hregion := hpaired.forks s.id (by rw [hkind s hs, hfork])
    rw [Draft.openForks_ofLines hdraft] at hregion
    exact List.mem_map.mp (hregion.resolve_left List.not_mem_nil)
  case joins =>
    intro s hs hjoin
    exact List.mem_map.mp (hpaired.joins s.id (by rw [hkind s hs, hjoin]))
  case regions =>
    intro r hr
    obtain ⟨hfork, hjoin⟩ := hpaired.closed r hr
    exact ⟨hfound _ _ hfork, hfound _ _ hjoin⟩
  case inner =>
    intro s hs fork hregion
    apply hfound
    have hstate : draft.state? s.id = some s :=
      (state?_ofDraft hnodup s.id).symm.trans (state?_of_mem hs)
    exact hpaired.inner s.id s fork hstate hregion
  case lines => exact Draft.exists_lines_of_ofLines hdraft hordered

/-- A definition that was read has a fork if it has a join. -/
theorem exists_fork_of_parse {text : String} (h : parse text name = .ok d) {join : State}
    (hmem : join ∈ d.states) (hjoin : join.kind = .join) : ∃ s ∈ d.states, s.kind = .fork := by
  have hdrawn := wellDrawn_of_parse h
  obtain ⟨r, hr, -⟩ := hdrawn.joins join hmem hjoin
  obtain ⟨⟨s, hs, -, hkind⟩, -⟩ := hdrawn.regions r hr
  exact ⟨s, hs, hkind⟩

/-! ### What validation can still find -/

/-- The codes of what the reader of documents has ruled out. -/
def ruledOut : List String :=
  ["undeclared_state", "multiple_initial", "ambiguous_exit", "fork_no_join"]

end Definition

/-- The reader of documents has left it to validation to find this. -/
def Issue.IsLeft : Issue → Prop
  | .undeclared .. | .severalInitial _ | .ambiguousExit .. | .forkWithoutJoin _ => False
  | _ => True

theorem Issue.code_not_mem_ruledOut {i : Issue} (h : i.IsLeft) : i.code ∉ Definition.ruledOut := by
  cases i with
  | undeclared | severalInitial | ambiguousExit | forkWithoutJoin => exact h.elim
  | _ => simp [Issue.code, Definition.ruledOut]

namespace Definition

variable {d : Definition} {name : Option String}

namespace WellDrawn

variable (hd : d.WellDrawn)
include hd

theorem isLeft_of_mem_initialIssues {i : Issue} (hi : i ∈ d.initialIssues) : i.IsLeft := by
  unfold initialIssues at hi
  split at hi
  · rw [List.mem_singleton.mp hi]
    trivial
  · split at hi
    · split at hi
      · rw [List.mem_singleton.mp hi]
        trivial
      · cases hi
    · rw [List.mem_singleton.mp hi]
      trivial
  · rename_i states hnone hone
    have hshort := hd.oneInitial
    match hkinds : d.ofKind .initial with
    | [] => exact absurd hkinds hnone
    | [s] => exact absurd hkinds (hone s)
    | _ :: _ :: _ =>
      rw [hkinds] at hshort
      simp at hshort

theorem referenceIssues_eq_nil : d.referenceIssues = [] := by
  unfold referenceIssues
  rw [List.flatMap_eq_nil_iff]
  intro t ht
  obtain ⟨hsource, htarget⟩ := hd.linked t ht
  simp [hsource, htarget]

theorem isLeft_of_mem_exitIssues {i : Issue} (hi : i ∈ d.exitIssues) : i.IsLeft := by
  obtain ⟨s, hs, hi⟩ := List.mem_flatMap.mp hi
  unfold stateExitIssues at hi
  split at hi
  · cases hi
  · rename_i hkind
    have hnotFork : s.kind ≠ .fork := by
      rintro hfork
      simp [hfork] at hkind
    have hfew : ¬ 1 < d.unguardedCount s.id := not_lt.mpr (hd.exits s hs hnotFork)
    rw [if_neg hfew, List.append_nil] at hi
    split at hi
    · rw [List.mem_singleton.mp hi]
      trivial
    · cases hi

theorem exists_regionOf? {s : State} (hs : s ∈ d.states) (hfork : s.kind = .fork) :
    ∃ r, d.regionOf? s.id = some r := by
  obtain ⟨r, hr, hid⟩ := hd.forks s hs hfork
  rw [ ← Option.isSome_iff_exists]
  unfold regionOf?
  rw [List.find?_isSome]
  exact ⟨r, hr, beq_iff_eq.mpr hid⟩

theorem isLeft_of_mem_forkIssues {i : Issue} (hi : i ∈ d.forkIssues) : i.IsLeft := by
  obtain ⟨s, hs, hi⟩ := List.mem_flatMap.mp hi
  obtain ⟨hmem, hfork⟩ := mem_ofKind.mp hs
  obtain ⟨r, hr⟩ := hd.exists_regionOf? hmem hfork
  have hjoin : d.matchingJoin? s.id ((d.outgoing s.id).map Transition.target) = some r.join := by
    unfold matchingJoin?
    rw [hr]
  unfold forkIssuesOf at hi
  simp only [hjoin] at hi
  rcases List.mem_append.mp hi with hi | hi
  · rcases List.mem_append.mp hi with hi | hi
    · split at hi
      · rw [List.mem_singleton.mp hi]
        trivial
      · cases hi
    · obtain ⟨t, -, rfl⟩ := List.mem_map.mp hi
      trivial
  · obtain ⟨b, -, rfl⟩ := List.mem_map.mp hi
    trivial

omit hd in
theorem isLeft_of_mem_reachabilityIssues {i : Issue} (hi : i ∈ d.reachabilityIssues) :
    i.IsLeft := by
  unfold reachabilityIssues at hi
  split at hi
  · cases hi
  · rcases List.mem_append.mp hi with hi | hi
    · rcases List.mem_append.mp hi with hi | hi
      · obtain ⟨s, -, rfl⟩ := List.mem_map.mp hi
        trivial
      · unfold terminalIssues at hi
        split at hi
        · cases hi
        · rw [List.mem_singleton.mp hi]
          trivial
    · obtain ⟨s, -, rfl⟩ := List.mem_map.mp hi
      trivial

omit hd in
theorem isLeft_of_mem_joinIssues {i : Issue} (hi : i ∈ d.joinIssues) : i.IsLeft := by
  obtain ⟨s, -, hi⟩ := List.mem_flatMap.mp hi
  unfold joinIssuesOf at hi
  rcases List.mem_append.mp hi with hi | hi
  all_goals
    split at hi
    · rw [List.mem_singleton.mp hi]
      trivial
    · cases hi

theorem isLeft_of_mem_issues {i : Issue} (hi : i ∈ d.issues) : i.IsLeft := by
  unfold issues at hi
  rw [hd.referenceIssues_eq_nil, List.append_nil] at hi
  simp only [List.mem_append] at hi
  rcases hi with (((hi | hi) | hi) | hi) | hi
  · exact hd.isLeft_of_mem_initialIssues hi
  · exact isLeft_of_mem_reachabilityIssues hi
  · exact hd.isLeft_of_mem_exitIssues hi
  · exact hd.isLeft_of_mem_forkIssues hi
  · exact isLeft_of_mem_joinIssues hi

end WellDrawn

/-- A definition that was read is well drawn, whether or not validation finds anything else wrong
with it; and it never finds what the reader has ruled out. -/
theorem wellDrawn_and_unreported_of_parse {text : String} (h : parse text name = .ok d) :
    d.WellDrawn ∧ ∀ f ∈ d.validate.findings, f.code ∉ ruledOut := by
  have hdrawn := wellDrawn_of_parse h
  refine ⟨hdrawn, fun f hf => ?_⟩
  obtain ⟨i, hi, rfl⟩ := List.mem_map.mp hf
  exact Issue.code_not_mem_ruledOut (hdrawn.isLeft_of_mem_issues hi)

/-- A fork that is marked before its branches and a join that ends the workflow, with a guard on the
way to it. -/
def haltedAtJoin : List String :=
  ["name: halted", "", "[*] --> F", "state F <<fork>>", "F --> A", "F --> B", "state J <<join>>",
    "A --> J", "B --> J {late}"]

/-- Validation reports what the reader leaves to it, here that the workflow does not end. -/
theorem wellDrawn_of_haltedAtJoin :
    ∃ d, parse (Text.unlines haltedAtJoin) none = .ok d ∧
      d.validate.findings.map Finding.code = ["no_terminal", "dead_end", "join_outgoing"] ∧
      d.WellDrawn ∧ ∀ f ∈ d.validate.findings, f.code ∉ ruledOut := by
  have hunbroken : ∀ l ∈ haltedAtJoin, Text.unbroken l = true := by decide
  have hread : succeedsWith (fun d => d.validate.findings.map Finding.code ==
      ["no_terminal", "dead_end", "join_outgoing"])
      (parseLines ((haltedAtJoin.zipIdx 1).map fun l => (l.2, l.1)) none) = true := by
    decide +kernel
  obtain ⟨d, hparse, hcodes⟩ := succeedsWith_iff.mp hread
  rw [ ← parse_unlines hunbroken] at hparse
  exact ⟨d, hparse, by simpa using hcodes, wellDrawn_and_unreported_of_parse hparse⟩

end Definition

end Runbook.Workflow
