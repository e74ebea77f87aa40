import Runbook.Proofs.Depiction
import Runbook.Proofs.Documents

/-!
Documents that are written for a list of statements and a list of actions. Such a document is read,
and the definition it gives is told by the two lists alone.
-/
namespace Runbook.Workflow

open Text

/-- The lines of an action list are written for some entries. Lines that are no list items may stand
anywhere. -/
inductive ListsActions : List NumberedLine → List (String × Action) → Prop
  | nil : ListsActions [] []
  | passed {line : NumberedLine} {rest : List NumberedLine} {entries : List (String × Action)}
      (hline : (trim line.2.toList).head? ≠ some '-' ∧ (trim line.2.toList).head? ≠ some '*')
      (hrest : ListsActions rest entries) : ListsActions (line :: rest) entries
  | entry {line : NumberedLine} {rest : List NumberedLine} {entries : List (String × Action)}
      {bullet : Char} {gap id gap' gap'' text : List Char} {action : Action}
      (hline : trim line.2.toList = bullet :: (gap ++ (id ++ (gap' ++ ':' :: (gap'' ++ text)))))
      (hbullet : bullet = '-' ∨ bullet = '*') (hgap : Blanks gap ∧ gap ≠ []) (hid : IsIdent id)
      (hgap' : Blanks gap') (hgap'' : Blanks gap'') (htext : Stops isBlank text) (hne : text ≠ [])
      (hbreak : '\n' ∉ text) (haction : Action.read (some line.1) (String.ofList text) = .ok action)
      (hrest : ListsActions rest entries) :
      ListsActions (line :: rest) ((String.ofList id, action) :: entries)

theorem ListsActions.unreserved {lines : List NumberedLine} {entries : List (String × Action)}
    (h : ListsActions lines entries) :
    ∀ entry ∈ entries, entry.1 ≠ startId ∧ entry.1 ≠ endId := by
  induction h with
  | nil => nofun
  | passed _ _ ih => exact ih
  | entry _ _ _ hid _ _ _ _ _ _ _ ih =>
    exact List.forall_mem_cons.mpr ⟨unreserved_of_isIdent hid, ih⟩

/-- The actions a list has for a state, in their order. -/
def actionsFor (entries : List (String × Action)) (id : String) : List Action :=
  (entries.filter fun entry => entry.1 == id).map Prod.snd

namespace Draft

open Sketch

variable {d d' : Draft} {sk : Sketch} {entries : List (String × Action)}

/-- The second draft is the first one with more actions. -/
structure Acts (entries : List (String × Action)) (d d' : Draft) : Prop where
  states : ∀ id, d'.state? id =
    (d.state? id).map fun s => { s with actions := s.actions ++ actionsFor entries id }
  ids : d'.ids = d.ids
  others : ∃ states, d' = { d with states := states }

theorem acts_nil (d : Draft) : Acts [] d d where
  states := by
    intro id
    cases d.state? id <;> simp [actionsFor]
  ids := rfl
  others := ⟨d.states, rfl⟩

theorem Acts.cons {id : String} {action : Action} (h : Acts entries (d.withAction id action) d') :
    Acts ((id, action) :: entries) d d' := by
  refine ⟨fun other => ?_, h.ids.trans ids_withAction, ?_⟩
  · rw [h.states, state?_withAction]
    split
    · rename_i hother
      rw [hother, Option.map_map]
      cases d.state? id with
      | none => rfl
      | some s => simp [actionsFor]
    · rename_i hother
      have hkept : actionsFor ((id, action) :: entries) other = actionsFor entries other := by
        simp [actionsFor, Ne.symm hother]
      rw [hkept]
  · obtain ⟨states, hstates⟩ := h.others
    exact ⟨states, hstates⟩

theorem readEntry?_eq_some (bullet : Char) {gap id gap' gap'' text : List Char}
    (hgap : Blanks gap ∧ gap ≠ []) (hid : IsIdent id) (hgap' : Blanks gap') (hgap'' : Blanks gap'')
    (htext : Stops isBlank text) (hne : text ≠ []) (hbreak : '\n' ∉ text) :
    readEntry? (bullet :: (gap ++ (id ++ (gap' ++ ':' :: (gap'' ++ text))))) =
      some (String.ofList id, text) := by
  have hidStops : Stops isBlank (id ++ (gap' ++ ':' :: (gap'' ++ text))) := by
    obtain ⟨c, tail, rfl, hc, -⟩ := hid
    exact stops_cons.mpr (isBlank_of_isIdentChar (isIdentChar_of_isIdentStart hc))
  have hends : Stops isIdentChar (gap' ++ ':' :: (gap'' ++ text)) := by
    rcases eq_or_ne gap' [] with rfl | hne
    · exact stops_cons.mpr (by decide)
    · exact hgap'.stops_isIdentChar hne _
  have hitem := Statement.dropBlanks?_eq_some_iff.mpr ⟨gap, hgap.1, hgap.2, rfl, hidStops⟩
  have hcolon : Statement.dropText? ":" (trimStart (gap' ++ ':' :: (gap'' ++ text))) =
      some (gap'' ++ text) := by
    rw [trimStart_append hgap', trimStart_of_stops (stops_cons.mpr (by decide))]
    exact Statement.dropText?_eq_some_iff.mpr rfl
  have hwhole : (!text.isEmpty && onOneLine text) = true := by
    unfold onOneLine
    simp [hne, hbreak]
  unfold readEntry?
  refine Option.bind_eq_some_iff.mpr ⟨_, hitem, ?_⟩
  refine Option.bind_eq_some_iff.mpr ⟨_, takeIdent?_eq_some_iff.mpr ⟨rfl, hid, hends⟩, ?_⟩
  refine Option.bind_eq_some_iff.mpr ⟨_, hcolon, ?_⟩
  rw [trimStart_append hgap'', trimStart_of_stops htext]
  dsimp only
  rw [hwhole]
  rfl

/-- The entries of states that are declared are all added. -/
theorem exists_acts {lines : List NumberedLine} (h : ListsActions lines entries)
    (hknown : ∀ entry ∈ entries, ∃ s, d.state? entry.1 = some s ∧ s.kind.isPseudo = false) :
    ∃ d', d.addActions lines = .ok d' ∧ Acts entries d d' := by
  induction h generalizing d with
  | nil => exact ⟨d, rfl, acts_nil d⟩
  | passed hline hrest ih =>
    rename_i line rest entries
    have hstep : d.addAction line = .ok d := by
      unfold addAction
      simp only
      rw [if_pos hline]
    obtain ⟨d', hadd, hacts⟩ := ih hknown
    exact ⟨d', foldlM_cons_of_ok hstep hadd, hacts⟩
  | entry hline hbullet hgap hid hgap' hgap'' htext hne hbreak haction hrest ih =>
    rename_i line rest entries bullet gap id gap' gap'' text action
    obtain ⟨s, hs, hkind⟩ := hknown _ (List.mem_cons_self ..)
    have hitem : ¬ ((trim line.2.toList).head? ≠ some '-' ∧
        (trim line.2.toList).head? ≠ some '*') := by
      rw [hline, List.head?_cons]
      rcases hbullet with rfl | rfl <;> simp
    have hread := readEntry?_eq_some bullet hgap hid hgap' hgap'' htext hne hbreak
    rw [ ← hline] at hread
    have hstep : d.addAction line = .ok (d.withAction (String.ofList id) action) := by
      unfold addAction
      simp only
      rw [if_neg hitem, hread]
      simp only [hs, Option.map_some, Option.getD_some, hkind, Bool.false_eq_true, if_false,
        haction]
      rfl
    have hstill : ∀ entry ∈ entries, ∃ s,
        (d.withAction (String.ofList id) action).state? entry.1 = some s ∧
          s.kind.isPseudo = false := by
      intro entry hentry
      obtain ⟨t, ht, htkind⟩ := hknown entry (List.mem_cons_of_mem _ hentry)
      rw [state?_withAction]
      split
      · rename_i hself
        rw [ ← hself, ht]
        exact ⟨_, rfl, htkind⟩
      · exact ⟨t, ht, htkind⟩
    obtain ⟨d', hadd, hacts⟩ := ih hstill
    exact ⟨d', foldlM_cons_of_ok hstep hadd, hacts.cons⟩

/-- Where no state but a fork has several unguarded exits, there is nothing to find. -/
theorem checkExits_eq_ok (h : ∀ id, d.isFork id = false → (d.unguardedExits id).length ≤ 1) :
    d.checkExits = .ok () := by
  unfold checkExits
  simp only
  split
  · rfl
  · rename_i f hf
    obtain ⟨id, -, hfault⟩ := List.exists_of_findSome?_eq_some hf
    split at hfault
    · rename_i first second rest hexits
      split at hfault
      · cases hfault
      · rename_i hfork
        have hfew := h id (Bool.eq_false_iff.mpr hfork)
        rw [hexits, List.length_cons, List.length_cons] at hfew
        omega
    · cases hfault

/-- The states of a draft are told by their identifiers, in the order these have. -/
theorem Told.states_eq {f : String → State} (h : d.Told f) (hnodup : d.ids.Nodup) :
    d.states = d.ids.map f := by
  have hself : ∀ s ∈ d.states, f s.id = s := by
    intro s hs
    obtain ⟨t, ht⟩ := exists_of_mem_ids (List.mem_map_of_mem hs)
    obtain ⟨hmem, hid⟩ := mem_of_state? ht
    have hsame : t = s := List.inj_on_of_nodup_map hnodup hmem hs hid
    rw [ ← h s.id t ht, hsame]
  unfold ids
  rw [List.map_map]
  exact (List.map_id _).symm.trans (List.map_congr_left fun s hs => (hself s hs).symm)

end Draft

namespace Sketch

variable {sk : Sketch} {entries : List (String × Action)}

/-- A state as it is shown, with its actions. -/
def acting (sk : Sketch) (entries : List (String × Action)) (id : String) : State :=
  { state sk id with actions := actionsFor entries id }

theorem actions_state (id : String) : (state sk id).actions = [] := by
  unfold state
  split
  · rfl
  · split <;> rfl

theorem isPseudo_state {id : String} (hstart : id ≠ startId) (hend : id ≠ endId) :
    (state sk id).kind.isPseudo = false := by
  unfold state
  rw [if_neg hstart, if_neg hend]
  cases mark? sk id with
  | none => rfl
  | some mark => cases mark <;> rfl

theorem kind_of_not_mem {id : String} (h : id ∉ ids sk) : (state sk id).kind ≠ .fork := by
  unfold state
  split
  · nofun
  · split
    · nofun
    · rw [mark?_eq_none h]
      nofun

end Sketch

namespace Draft

open Sketch

variable {d : Draft} {sk : Sketch} {entries : List (String × Action)}

theorem Shows.checkExits (h : Shows sk d) (hcoherent : Coherent sk) : d.checkExits = .ok () := by
  refine checkExits_eq_ok fun id hfork => ?_
  unfold unguardedExits
  rw [h.transitions]
  refine hcoherent.exits id fun hkind => ?_
  by_cases hid : id ∈ Sketch.ids sk
  · obtain ⟨s, hs⟩ := exists_of_mem_ids (h.ids ▸ hid)
    unfold isFork at hfork
    rw [hs, Option.map_some, h.states id s hs, hkind] at hfork
    cases hfork
  · exact kind_of_not_mem hid hkind

/-- A diagram and an action list that are written for two lists make a draft, which the two lists
tell. -/
theorem exists_ofLines {diagram actions : List NumberedLine} (hdiagram : Renders diagram sk)
    (hactions : ListsActions actions entries) (hcoherent : Coherent sk)
    (hknown : ∀ entry ∈ entries, entry.1 ∈ Sketch.ids sk) :
    ∃ d, ofLines true diagram actions = .ok d ∧ d.states = (Sketch.ids sk).map (acting sk entries) ∧
      d.transitions = Sketch.transitions sk ∧ d.regions = Sketch.regions sk ∧
      d.allNotes = Sketch.notes sk := by
  obtain ⟨drawn, hdrawn, hshows⟩ := shows_empty.addLines hdiagram hcoherent
  rw [List.nil_append] at hshows
  have hclosed : drawn.openForks = [] := by
    rw [ ← List.map_eq_nil_iff, hshows.forks]
    exact hcoherent.closed
  have hnamed : ∀ entry ∈ entries, ∃ s, drawn.state? entry.1 = some s ∧
      s.kind.isPseudo = false := by
    intro entry hentry
    obtain ⟨s, hs⟩ := exists_of_mem_ids (hshows.ids ▸ hknown entry hentry)
    refine ⟨s, hs, ?_⟩
    obtain ⟨hstart, hend⟩ := hactions.unreserved entry hentry
    rw [hshows.states entry.1 s hs]
    exact isPseudo_state hstart hend
  obtain ⟨d, hd, hacts⟩ := exists_acts hactions hnamed
  have hids : d.ids = Sketch.ids sk := hacts.ids.trans hshows.ids
  have htold : d.Told (acting sk entries) := by
    intro id s hs
    rw [hacts.states] at hs
    obtain ⟨t, ht, rfl⟩ := Option.map_eq_some_iff.mp hs
    rw [hshows.states id t ht]
    unfold acting
    rw [actions_state, List.nil_append]
  obtain ⟨states, rfl⟩ := hacts.others
  refine ⟨_, ofLines_eq_ok_iff.mpr ⟨drawn, hdrawn, hclosed, hshows.checkExits hcoherent, hd⟩,
    ?_, hshows.transitions, hshows.regions, ?_⟩
  · rw [htold.states_eq (hids ▸ nodup_ids sk), hids]
  · unfold allNotes
    rw [hshows.openNote, hshows.notes]
    exact List.append_nil _

end Draft

/-! ### Whole documents -/

/-- A list is split at the first of its members that is of a class. -/
theorem split_at {α : Type} (p : α → Bool) {before : List α} (x : α) (after : List α)
    (hbefore : ∀ y ∈ before, p y = false) (hx : p x = true) :
    (before ++ x :: after).takeWhile (fun y => !p y) = before ∧
      (before ++ x :: after).dropWhile (fun y => !p y) = x :: after := by
  have hpassed : ∀ y ∈ before, (!p y) = true := by
    intro y hy
    rw [hbefore y hy, Bool.not_false]
  rw [List.takeWhile_append_of_pos hpassed, List.dropWhile_append_of_pos hpassed]
  simp [hx]

namespace Document

/-- A document begins with a header, between two fences or up to the first blank line. -/
inductive Heads (header : Header) : List NumberedLine → List NumberedLine → Prop
  | fenced {blank inner body : List NumberedLine} {opening closing : NumberedLine}
      (hblank : ∀ l ∈ blank, isBlankLine l.2 = true) (hopening : isFence opening.2 = true)
      (hinner : ∀ l ∈ inner, isFence l.2 = false) (hclosing : isFence closing.2 = true)
      (hread : readHeader (inner.map (·.2)) (opening.1 + 1) = .ok header) :
      Heads header (blank ++ opening :: (inner ++ closing :: body)) body
  | bare {blank inner body : List NumberedLine} {first gap : NumberedLine}
      (hblank : ∀ l ∈ blank, isBlankLine l.2 = true) (hfirst : isBlankLine first.2 = false)
      (hfence : isFence first.2 = false) (hinner : ∀ l ∈ inner, isBlankLine l.2 = false)
      (hgap : isBlankLine gap.2 = true)
      (hread : readHeader (first.2 :: inner.map (·.2)) first.1 = .ok header) :
      Heads header (blank ++ first :: (inner ++ gap :: body)) (gap :: body)

/-- What stands behind the diagram: nothing of importance, or a list of actions under its heading.
-/
inductive ActsBehind : List NumberedLine → List (String × Action) → Prop
  | none {lines : List NumberedLine} (hlines : ∀ l ∈ lines, isActionsHeading l.2 = false) :
      ActsBehind lines []
  | listed {between list : List NumberedLine} {heading : NumberedLine}
      {entries : List (String × Action)} (hbetween : ∀ l ∈ between, isActionsHeading l.2 = false)
      (hheading : isActionsHeading heading.2 = true) (hlist : ListsActions list entries) :
      ActsBehind (between ++ heading :: list) entries

/-- The lines of a document are written for a header, a list of statements in a code fence, and a
list of actions. -/
inductive Rendered (header : Header) (sk : Sketch) (entries : List (String × Action)) :
    List NumberedLine → Prop
  | intro {document prose diagram after : List NumberedLine} {opening closing : NumberedLine}
      (hheader : Heads header document (prose ++ opening :: (diagram ++ closing :: after)))
      (hprose : ∀ l ∈ prose, opensDiagram l.2 = false) (hopening : opensDiagram opening.2 = true)
      (hdiagram : Renders diagram sk) (hclosing : closesDiagram closing.2 = true)
      (hafter : ActsBehind after entries) : Rendered header sk entries document

variable {header : Header} {document body : List NumberedLine}

theorem isBlankLine_of_isFence {line : String} (h : isFence line = true) :
    isBlankLine line = false := by
  unfold isFence at h
  unfold isBlankLine
  rw [beq_iff_eq.mp h]
  decide

theorem dropWhile_blank {blank rest : List NumberedLine} {line : NumberedLine}
    (hblank : ∀ l ∈ blank, isBlankLine l.2 = true) (hline : isBlankLine line.2 = false) :
    ((blank ++ line :: rest).dropWhile fun l => isBlankLine l.2) = line :: rest := by
  rw [List.dropWhile_append_of_pos hblank, List.dropWhile_cons_of_neg]
  rw [hline]
  exact Bool.false_ne_true

theorem exists_layout (h : Heads header document body) :
    ∃ l, layout document = .ok l ∧ readHeader l.header l.first = .ok header ∧ l.body = body := by
  unfold layout
  cases h with
  | fenced hblank hopening hinner hclosing hread =>
    rename_i blank inner opening closing
    have hfence := isBlankLine_of_isFence hopening
    rw [dropWhile_blank hblank hfence]
    obtain ⟨htake, hdrop⟩ := split_at (fun l : NumberedLine => isFence l.2) closing body hinner
      hclosing
    simp only [hopening, if_true, htake, hdrop]
    exact ⟨_, rfl, hread, rfl⟩
  | bare hblank hfirst hfence hinner hgap hread =>
    rename_i blank inner body first gap
    rw [dropWhile_blank hblank hfirst]
    obtain ⟨htake, hdrop⟩ := split_at (fun l : NumberedLine => isBlankLine l.2) gap body hinner hgap
    simp only [hfence, Bool.false_eq_true, if_false, htake, hdrop]
    exact ⟨_, rfl, hread, rfl⟩

section Fences

/-- No line of a diagram looks like the end of its fence. -/
theorem closesDiagram_eq_false {line : String} (h : trim line.toList ≠ "\x60\x60\x60".toList) :
    closesDiagram line = false := by
  unfold closesDiagram
  rw [beq_eq_false_iff_ne]
  intro heq
  apply h
  rw [ ← heq, toList_strip]

theorem ne_fence_of_cons {c : Char} {rest : List Char} (h : c ≠ '\x60') :
    c :: rest ≠ "\x60\x60\x60".toList :=
  fun heq => h (List.cons.inj heq).1

theorem ne_fence_of_silentText {cs : List Char} (h : SilentText cs) :
    cs ≠ "\x60\x60\x60".toList := by
  cases h with
  | blank => nofun
  | comment text => exact ne_fence_of_cons (by decide)
  | heading hsigns hone =>
    rename_i signs c _ _ text
    cases signs with
    | nil => exact absurd rfl hone
    | cons sign signs =>
      rw [hsigns sign (List.mem_cons_self ..)]
      exact ne_fence_of_cons (by decide)
  | setsUp h =>
    rintro rfl
    exact absurd h (by decide)

theorem ne_fence_of_noteWords {side : Side} {id : String} {cs : List Char}
    (h : NoteWords side id cs) : cs ≠ "\x60\x60\x60".toList := by
  obtain ⟨c, tail, rfl, hc⟩ := Statement.exists_head_of_noteWords h
  exact ne_fence_of_cons (hc.ne (by decide))

theorem ne_fence_of_written {e : Element} {cs : List Char} (h : e.Written cs) :
    cs ≠ "\x60\x60\x60".toList := by
  obtain ⟨c, tail, rfl, -, -, hc⟩ := Statement.exists_head_of_written h
  exact ne_fence_of_cons hc

theorem closesDiagram_of_renders {lines : List NumberedLine} {sk : Sketch}
    (h : Renders lines sk) : ∀ l ∈ lines, closesDiagram l.2 = false := by
  induction h with
  | nil => nofun
  | silent hline hrest ih =>
    exact List.forall_mem_cons.mpr ⟨closesDiagram_eq_false (ne_fence_of_silentText hline), ih⟩
  | statement hline hplain hrest ih =>
    exact List.forall_mem_cons.mpr ⟨closesDiagram_eq_false (ne_fence_of_written hline), ih⟩
  | block hopening hlines hclosing hrest ih =>
    refine List.forall_mem_cons.mpr ⟨closesDiagram_eq_false (ne_fence_of_noteWords hopening), ?_⟩
    refine List.forall_mem_append.mpr ⟨fun l hl => ?_, List.forall_mem_cons.mpr ⟨?_, ih⟩⟩
    · unfold closesDiagram
      exact beq_eq_false_iff_ne.mpr (hlines l hl).2.2
    · unfold closesDiagram
      rw [beq_eq_false_iff_ne]
      intro heq
      rw [heq] at hclosing
      exact absurd hclosing (by decide)

end Fences

theorem listsActions_of_actsBehind {lines : List NumberedLine} {entries : List (String × Action)}
    (h : ActsBehind lines entries) : ListsActions (afterHeading lines) entries := by
  unfold afterHeading
  cases h with
  | none hlines =>
    have hnone : lines.dropWhile (fun l => !isActionsHeading l.2) = [] := by
      rw [List.dropWhile_eq_nil_iff]
      intro l hl
      rw [hlines l hl]
      rfl
    rw [hnone]
    exact .nil
  | listed hbetween hheading hlist =>
    rename_i between list heading
    rw [(split_at (fun l : NumberedLine => isActionsHeading l.2) heading list hbetween hheading).2]
    exact hlist

theorem splitBody_eq_ok {prose diagram : List NumberedLine} {opening closing : NumberedLine}
    (after : List NumberedLine) (hprose : ∀ l ∈ prose, opensDiagram l.2 = false)
    (hopening : opensDiagram opening.2 = true) (hdiagram : ∀ l ∈ diagram, closesDiagram l.2 = false)
    (hclosing : closesDiagram closing.2 = true) :
    splitBody (prose ++ opening :: (diagram ++ closing :: after)) =
      .ok ⟨true, diagram, afterHeading after⟩ := by
  have hopen := (split_at (fun l : NumberedLine => opensDiagram l.2) opening
    (diagram ++ closing :: after) hprose hopening).2
  obtain ⟨htake, hdrop⟩ := split_at (fun l : NumberedLine => closesDiagram l.2) closing after
    hdiagram hclosing
  unfold splitBody
  rw [hopen]
  simp only [htake, hdrop]

end Document

namespace Sketch

theorem id_state (sk : Sketch) (id : String) : (state sk id).id = id := by
  unfold state
  split
  · rfl
  · split <;> rfl

/-- The definition a header, the statements of a diagram and the entries of an action list come to.
A name that is given wins over the header's. -/
def definition (name : Option String) (header : Header) (entries : List (String × Action))
    (sk : Sketch) : Definition where
  name := (name.filter (· ≠ "")).getD header.name
  metadata := {
    name := header.name
    description := header.description
    version := header.version
    initialState :=
      ((transitions sk).find? fun t => t.source == startId).map Transition.target }
  states := (ids sk).map (acting sk entries)
  transitions := transitions sk
  regions := regions sk
  notes := notes sk
  distinct := by
    have hids : ((ids sk).map (acting sk entries)).map State.id = ids sk := by
      rw [List.map_map]
      exact (List.map_congr_left fun id _ => id_state sk id).trans (List.map_id _)
    unfold distinctIds
    rw [hids]
    exact nodup_ids sk

end Sketch

namespace Definition

open Document

variable {header : Header} {sk : Sketch} {entries : List (String × Action)}

/-- A draft that two lists tell comes to the definition they tell. -/
theorem ofDraft_eq (name : Option String) {draft : Draft}
    (hstates : draft.states = (Sketch.ids sk).map (Sketch.acting sk entries))
    (htransitions : draft.transitions = Sketch.transitions sk)
    (hregions : draft.regions = Sketch.regions sk) (hnotes : draft.allNotes = Sketch.notes sk) :
    ofDraft name header draft = Sketch.definition name header entries sk := by
  have hcollected : collectStates draft.states =
      (Sketch.ids sk).map (Sketch.acting sk entries) := by
    rw [hstates]
    exact collectStates_of_distinctIds (Sketch.definition name header entries sk).distinct
  unfold ofDraft Sketch.definition
  simp only [hcollected, htransitions, hregions, hnotes]
  cases name with
  | none => rfl
  | some n =>
    rcases eq_or_ne n "" with rfl | hne
    · rfl
    · simp [Option.filter, hne]

/-- A document that is written for a header, the statements of a diagram and the entries of an
action list is read as just what these tell. -/
theorem parse_eq_of_rendered {text : String} (name : Option String)
    (h : Rendered header sk entries (numbered text)) (hcoherent : sk.Coherent)
    (hknown : ∀ entry ∈ entries, entry.1 ∈ Sketch.ids sk) :
    parse text name = .ok (Sketch.definition name header entries sk) := by
  obtain ⟨hheader, hprose, hopening, hdiagram, hclosing, hafter⟩ := h
  rename_i prose diagram after opening closing
  obtain ⟨l, hlayout, hread, hbody⟩ := exists_layout hheader
  have hsplit := splitBody_eq_ok after hprose hopening (closesDiagram_of_renders hdiagram) hclosing
  rw [ ← hbody] at hsplit
  obtain ⟨d, hd, hstates, htransitions, hregions, hnotes⟩ :=
    Draft.exists_ofLines hdiagram (listsActions_of_actsBehind hafter) hcoherent hknown
  unfold parse
  simp only [bind_eq_ok_iff, mapError_eq_ok_iff]
  refine ⟨l, hlayout, header, hread, ⟨true, diagram, afterHeading after⟩, hsplit, d, hd, ?_⟩
  rw [ofDraft_eq name hstates htransitions hregions hnotes]
  rfl

/-- The lines of a diagram in which a branch has a note. -/
def slowBranchDiagram : List NumberedLine :=
  [(4, "stateDiagram-v2"), (5, "  [*] --> Split"), (6, "  state Split <<fork>>"),
    (7, "  %% takes long"), (8, "  Split --> Build : go \x7bready\x7d"),
    (9, "  note right of Build"), (10, "    Slow"), (11, "  end note"), (12, "  Build --> Meet"),
    (13, "  state Meet <<Join>>"), (14, "  Meet : all done")]

def slowBranchSketch : Sketch :=
  [(5, .transition .pseudo (.state "Split") none none), (6, .marker "Split" .fork),
    (8, .transition (.state "Split") (.state "Build") (some "ready") (some "go")),
    (9, .block .right "Build" ["Slow"]),
    (12, .transition (.state "Build") (.state "Meet") none none), (13, .marker "Meet" .join),
    (14, .description "Meet" "all done")]

/-- A document with that diagram. -/
def slowBranch : List String :=
  ["name: release", "", "\x60\x60\x60mermaid"] ++ slowBranchDiagram.map (·.2) ++
    ["\x60\x60\x60", "", "## Actions", "- Build: log \"building\""]

theorem renders_slowBranch : Renders slowBranchDiagram slowBranchSketch := by
  have hnone : Blanks [] := nofun
  have hspace : Blanks " ".toList := by decide +kernel
  have hspaces : Blanks " ".toList ∧ " ".toList ≠ [] := ⟨hspace, by decide +kernel⟩
  have hsplit : IsIdent "Split".toList := by decide +kernel
  have hbuild : IsIdent "Build".toList := by decide +kernel
  have hmeet : IsIdent "Meet".toList := by decide +kernel
  have hbare : ExitText none none [] := .plain nofun (.none hnone)
  have hinitial : Element.Written (.transition .pseudo (.state "Split") none none)
      (trim "  [*] --> Split".toList) := by
    have hparts : trim "  [*] --> Split".toList = "[*]".toList ++ (" ".toList ++ ("-->".toList ++
        (" ".toList ++ ("Split".toList ++ [])))) := by decide +kernel
    rw [hparts]
    exact .transition .pseudo hspace hspace (.state hsplit) (Or.inr (stops_nil _)) hbare
  have hfork : Element.Written (.marker "Split" .fork) (trim "  state Split <<fork>>".toList) := by
    have hparts : trim "  state Split <<fork>>".toList = "state".toList ++ (" ".toList ++
        ("Split".toList ++ (" ".toList ++ ("<<".toList ++ ([] ++ ("fork".toList ++
          ([] ++ ">>".toList))))))) := by decide +kernel
    rw [hparts]
    exact .marker hspaces hsplit hspace hnone (List.all_eq_true.mp (by decide +kernel))
      (by decide +kernel) hnone
  have hcomment : SilentText (trim "  %% takes long".toList) := by
    have hparts : trim "  %% takes long".toList = "%%".toList ++ " takes long".toList := by
      decide +kernel
    rw [hparts]
    exact .comment _
  have hlabel : LabelText (some "go") (" : go ".toList ++ []) := by
    have hparts : " : go ".toList ++ [] = " ".toList ++ ':' :: (" ".toList ++
        ("go".toList ++ " ".toList)) := by decide +kernel
    rw [hparts]
    exact .colon hspace hspace hspace (by decide +kernel) (by decide +kernel)
  have hguarded : Element.Written
      (.transition (.state "Split") (.state "Build") (some "ready") (some "go"))
      (trim "  Split --> Build : go \x7bready\x7d".toList) := by
    have hparts : trim "  Split --> Build : go \x7bready\x7d".toList = "Split".toList ++
        (" ".toList ++ ("-->".toList ++ (" ".toList ++ ("Build".toList ++ (" : go ".toList ++
          '\x7b' :: (([] ++ ("ready".toList ++ [])) ++ '\x7d' :: [])))))) := by decide +kernel
    rw [hparts]
    refine .transition (.state hsplit) hspace hspace (.state hbuild) (Or.inr (by decide +kernel)) ?_
    exact .guarded (by decide +kernel) nofun hnone hnone (by decide +kernel) (by decide +kernel)
      (by decide +kernel) hlabel
  have hnote : NoteWords .right "Build" (trim "  note right of Build".toList) := by
    have hparts : trim "  note right of Build".toList = "note".toList ++ (" ".toList ++
        ("right".toList ++ (" ".toList ++ ("of".toList ++ (" ".toList ++ "Build".toList))))) := by
      decide +kernel
    rw [hparts]
    exact .intro (by decide +kernel) hspaces (by decide +kernel) (by decide +kernel) hspaces
      (by decide +kernel) hspaces hbuild
  have hback : Element.Written (.transition (.state "Build") (.state "Meet") none none)
      (trim "  Build --> Meet".toList) := by
    have hparts : trim "  Build --> Meet".toList = "Build".toList ++ (" ".toList ++
        ("-->".toList ++ (" ".toList ++ ("Meet".toList ++ [])))) := by decide +kernel
    rw [hparts]
    exact .transition (.state hbuild) hspace hspace (.state hmeet) (Or.inr (stops_nil _)) hbare
  have hjoin : Element.Written (.marker "Meet" .join) (trim "  state Meet <<Join>>".toList) := by
    have hparts : trim "  state Meet <<Join>>".toList = "state".toList ++ (" ".toList ++
        ("Meet".toList ++ (" ".toList ++ ("<<".toList ++ ([] ++ ("Join".toList ++
          ([] ++ ">>".toList))))))) := by decide +kernel
    rw [hparts]
    exact .marker hspaces hmeet hspace hnone (List.all_eq_true.mp (by decide +kernel))
      (by decide +kernel) hnone
  have hdone : Element.Written (.description "Meet" "all done")
      (trim "  Meet : all done".toList) := by
    have hparts : trim "  Meet : all done".toList = "Meet".toList ++ (" ".toList ++ ':' ::
        (" ".toList ++ "all done".toList)) := by decide +kernel
    rw [hparts]
    exact .description hmeet hspace hspace (by decide +kernel) (by decide +kernel)
  refine .silent (.setsUp (by decide +kernel)) ?_
  refine .statement hinitial (by decide +kernel) (.statement hfork (by decide +kernel) ?_)
  refine .silent hcomment (.statement hguarded (by decide +kernel) ?_)
  have hrest : Renders [(12, "  Build --> Meet"), (13, "  state Meet <<Join>>"),
      (14, "  Meet : all done")] [(12, .transition (.state "Build") (.state "Meet") none none),
        (13, .marker "Meet" .join), (14, .description "Meet" "all done")] :=
    .statement hback (by decide +kernel)
      (.statement hjoin (by decide +kernel) (.statement hdone (by decide +kernel) .nil))
  exact @Renders.block (9, "  note right of Build") (11, "  end note") [(10, "    Slow")] _ .right
    "Build" _ hnote (by decide +kernel) (by decide +kernel) hrest

/-- The document is read as the statements of its diagram and its one action tell. -/
theorem parse_slowBranch : parse (unlines slowBranch) none =
    .ok (Sketch.definition none ⟨"release", "", "1"⟩
      [("Build", .log "building" "info")] slowBranchSketch) := by
  have hentry : ListsActions [(18, "- Build: log \"building\"")]
      [("Build", .log "building" "info")] := by
    have hparts : trim "- Build: log \"building\"".toList = '-' :: (" ".toList ++
        ("Build".toList ++ ([] ++ ':' :: (" ".toList ++ "log \"building\"".toList)))) := by
      decide +kernel
    exact .entry hparts (Or.inl rfl) (by decide +kernel) (by decide +kernel) nofun
      (by decide +kernel) (by decide +kernel) (by decide +kernel) (by decide +kernel)
      (by decide +kernel) .nil
  have hafter : ActsBehind ([(16, "")] ++ (17, "## Actions") :: [(18, "- Build: log \"building\"")])
      [("Build", .log "building" "info")] :=
    .listed (by decide +kernel) (by decide +kernel) hentry
  have hheader : Heads ⟨"release", "", "1"⟩ (numbered (unlines slowBranch))
      ([(2, "")] ++ (3, "\x60\x60\x60mermaid") :: (slowBranchDiagram ++ (15, "\x60\x60\x60") ::
        ([(16, "")] ++ (17, "## Actions") :: [(18, "- Build: log \"building\"")]))) := by
    rw [numbered_unlines (by decide +kernel)]
    exact @Heads.bare _ [] [] _ (1, "name: release") (2, "") nofun (by decide +kernel)
      (by decide +kernel) nofun (by decide +kernel) (by decide +kernel)
  have hrendered : Rendered ⟨"release", "", "1"⟩ slowBranchSketch
      [("Build", .log "building" "info")] (numbered (unlines slowBranch)) :=
    .intro hheader (by decide +kernel) (by decide +kernel) renders_slowBranch (by decide +kernel)
      hafter
  exact parse_eq_of_rendered none hrendered (by decide +kernel) (by decide +kernel)

end Definition

end Runbook.Workflow
