import Runbook.Proofs.Documents
import Runbook.Proofs.Drafting

/-!
Where the transitions of a document come from. Outside the notes every line that draws an arrow
gives the transition between its endpoints, under its own number, and nothing else gives any. Lines
that begin like those that set up the drawing are passed over even where they draw an arrow: a
transition out of a state with such a name is lost without a word.
-/
namespace Runbook.Workflow

open Text

/-- The endpoints of a transition, and the line it is drawn on. -/
def Transition.ends (t : Transition) : String × String × Option Nat := (t.source, t.target, t.line)

namespace Statement

instance (line : String) : Decidable (OpensNote line.toList) :=
  decidable_of_iff ((match read line with | .openNote .. => true | _ => false) = true) (by
    rw [← read_eq_openNote_iff]
    cases read line <;> simp)

end Statement

namespace Draft

open Statement

/-- The transition that a line outside a note gives, if it gives one. -/
def drawnBy (line : NumberedLine) : List (String × String × Option Nat) :=
  match read (strip line.2) with
  | .arrow source target _ => [(sourceId source, targetId target, some line.1)]
  | _ => []

/-- Whether the line after a line is inside a note, given whether that line is. -/
def insideAfter (inside : Bool) (line : NumberedLine) : Bool :=
  if inside then lowered (strip line.2) != "end note"
  else decide (OpensNote (strip line.2).toList)

/-- Whether the line after some lines is inside a note. -/
def insideNote (inside : Bool) (lines : List NumberedLine) : Bool :=
  lines.foldl insideAfter inside

/-- The transitions that lines give, in their order. -/
def drawn (inside : Bool) : List NumberedLine → List (String × String × Option Nat)
  | [] => []
  | line :: rest => (if inside then [] else drawnBy line) ++ drawn (insideAfter inside line) rest

variable {d d' : Draft} {inside : Bool}

theorem drawn_append (before after : List NumberedLine) :
    drawn inside (before ++ after) =
      drawn inside before ++ drawn (insideNote inside before) after := by
  induction before generalizing inside with
  | nil => rfl
  | cons line rest ih =>
    rw [List.cons_append, drawn, drawn, ih, List.append_assoc]
    rfl

/-- Every transition is drawn on one of the lines. -/
theorem exists_line_of_mem_drawn {lines : List NumberedLine} {e : String × String × Option Nat}
    (h : e ∈ drawn inside lines) : ∃ line ∈ lines, e.2.2 = some line.1 := by
  induction lines generalizing inside with
  | nil => cases h
  | cons line rest ih =>
    rcases List.mem_append.mp h with h | h
    · refine ⟨line, List.mem_cons_self .., ?_⟩
      unfold drawnBy at h
      split at h
      · cases h
      · split at h
        · rw [List.mem_singleton.mp h]
        · cases h
    · obtain ⟨other, hother, heq⟩ := ih h
      exact ⟨other, List.mem_cons_of_mem _ hother, heq⟩

/-- The second draft differs from the first neither in its transitions nor in the open note. -/
structure Quiet (d d' : Draft) : Prop where
  transitions : d'.transitions = d.transitions
  openNote : d'.openNote = d.openNote

theorem quiet_describe (d : Draft) (id text : String) : Quiet d (d.describe id text) := by
  obtain ⟨states, hstates⟩ := exists_states_describe d id text
  rw [hstates]
  exact ⟨rfl, rfl⟩

theorem quiet_addMarker {line : Nat} {id word : String} (hd : d.addMarker line id word = .ok d') :
    Quiet d d' := by
  obtain ⟨kind, -, -, hmarks⟩ := addMarker_eq_ok_iff.mp hd
  obtain ⟨states, openForks, regions, rfl⟩ := hmarks.exists_eq
  exact ⟨rfl, rfl⟩

theorem addArrow_eq {line : Nat} {source target : Endpoint} {rest : String}
    (hd : d.addArrow line source target rest = .ok d') :
    d'.transitions.map Transition.ends =
      d.transitions.map Transition.ends ++ [(sourceId source, targetId target, some line)] ∧
    d'.openNote = d.openNote := by
  obtain ⟨guard, label, -, -, rfl⟩ := addArrow_eq_ok_iff.mp hd
  obtain ⟨states, hstates⟩ := exists_states_draw d line source target guard label
  rw [hstates]
  refine ⟨List.map_append, ?_⟩
  cases source <;> rfl

/-- A statement outside a note gives the transition it draws, and opens the note it opens. -/
theorem addStatement_eq {fenced : Bool} {line : NumberedLine} (hopen : d.openNote = none)
    (hd : d.addStatement fenced line.1 (strip line.2) = .ok d') :
    d'.transitions.map Transition.ends = d.transitions.map Transition.ends ++ drawnBy line ∧
      d'.openNote.isSome = decide (OpensNote (strip line.2).toList) := by
  have hquiet : Quiet d d' → drawnBy line = [] →
      (¬ ∃ position id, read (strip line.2) = .openNote position id) →
      d'.transitions.map Transition.ends = d.transitions.map Transition.ends ++ drawnBy line ∧
        d'.openNote.isSome = decide (OpensNote (strip line.2).toList) := by
    intro h hnone hread
    rw [h.transitions, hnone, List.append_nil, h.openNote, hopen]
    exact ⟨rfl, (decide_eq_false (mt read_eq_openNote_iff.mpr hread)).symm⟩
  unfold addStatement at hd
  split at hd
  · rename_i hread
    cases hd
    exact hquiet ⟨rfl, rfl⟩ (by simp [drawnBy, hread]) (by simp [hread])
  · rename_i source target rest hread
    obtain ⟨hends, hkept⟩ := addArrow_eq hd
    rw [hends, hkept, hopen]
    refine ⟨by simp [drawnBy, hread], ?_⟩
    exact (decide_eq_false (mt read_eq_openNote_iff.mpr (by simp [hread]))).symm
  · rename_i hread
    exact hquiet (quiet_addMarker hd) (by simp [drawnBy, hread]) (by simp [hread])
  · rename_i hread
    cases hd
    exact hquiet (quiet_describe d _ _) (by simp [drawnBy, hread]) (by simp [hread])
  · cases hd
  · rename_i hread
    cases hd
    exact hquiet ⟨rfl, rfl⟩ (by simp [drawnBy, hread]) (by simp [hread])
  · rename_i position id hread
    cases hd
    refine ⟨by simp [drawnBy, hread], ?_⟩
    exact (decide_eq_true (read_eq_openNote_iff.mp ⟨position, id, hread⟩)).symm
  · rename_i hread
    split at hd
    · cases hd
    · cases hd
      exact hquiet (quiet_describe d _ _) (by simp [drawnBy, hread]) (by simp [hread])
  · cases hd

/-- A line gives what is drawn on it, and opens or ends a note where it says so. -/
theorem addLine_eq {fenced : Bool} {line : NumberedLine} (hd : d.addLine fenced line = .ok d') :
    d'.transitions.map Transition.ends = d.transitions.map Transition.ends ++
      (if d.openNote.isSome then [] else drawnBy line) ∧
    d'.openNote.isSome = insideAfter d.openNote.isSome line := by
  unfold addLine at hd
  simp only at hd
  split at hd
  · rename_i note hnote
    split at hd
    · rename_i hend
      cases hd
      simp [hnote, insideAfter, hend]
    · rename_i hend
      cases hd
      simp [hnote, insideAfter, hend]
  · rename_i hnone
    obtain ⟨hends, hopen⟩ := addStatement_eq hnone hd
    rw [hends, hopen, hnone]
    exact ⟨rfl, rfl⟩

theorem addLines_eq {fenced : Bool} {lines : List NumberedLine}
    (hd : d.addLines fenced lines = .ok d') :
    d'.transitions.map Transition.ends =
      d.transitions.map Transition.ends ++ drawn d.openNote.isSome lines := by
  induction lines generalizing d with
  | nil =>
    cases hd
    simp [drawn]
  | cons line rest ih =>
    unfold addLines at hd
    rw [List.foldlM_cons, bind_eq_ok_iff] at hd
    obtain ⟨next, hnext, hrest⟩ := hd
    obtain ⟨hends, hopen⟩ := addLine_eq hnext
    rw [ih hrest, hends, hopen, List.append_assoc]
    rfl

/-- The transitions of a draft are what is drawn on the lines of its diagram outside the notes. -/
theorem ends_ofLines {fenced : Bool} {diagram actions : List NumberedLine}
    (hd : ofLines fenced diagram actions = .ok d) :
    d.transitions.map Transition.ends = drawn false diagram := by
  obtain ⟨lined, hlined, -, -, hactions⟩ := ofLines_eq_ok_iff.mp hd
  have hkept : d.transitions = lined.transitions :=
    foldlM_keeps (P := fun d => d.transitions = lined.transitions)
      (fun _ _ _ hb hstep => (transitions_of_addAction hstep).trans hb) rfl hactions
  rw [hkept]
  exact addLines_eq hlined

end Draft

namespace Document

theorem isSuffix_layout {document : List NumberedLine} {l : Layout}
    (h : layout document = .ok l) : l.body <:+ document := by
  unfold layout at h
  split at h
  · cases h
  · rename_i number line rest hdrop
    have hrest : rest <:+ document :=
      (List.suffix_cons ..).trans (hdrop ▸ List.dropWhile_suffix _)
    split at h
    · split at h
      · cases h
      · rename_i fence body hbody
        cases h
        exact ((List.suffix_cons ..).trans (hbody ▸ List.dropWhile_suffix _)).trans hrest
    · cases h
      exact (List.dropWhile_suffix _).trans hrest

theorem isInfix_splitBody {lines : List NumberedLine} {b : Body}
    (h : splitBody lines = .ok b) : b.diagram <:+: lines := by
  unfold splitBody at h
  split at h
  · cases h
    exact (List.takeWhile_prefix _).isInfix
  · rename_i number line rest hdrop
    have hrest : rest <:+ lines :=
      (List.suffix_cons ..).trans (hdrop ▸ List.dropWhile_suffix _)
    split at h
    · cases h
    · cases h
      exact (List.takeWhile_prefix _).isInfix.trans hrest.isInfix

/-- The lines of a document that its diagram stands on. -/
def diagram? (document : List NumberedLine) : Option (List NumberedLine) := do
  let layout ← (layout document).toOption
  let body ← (splitBody layout.body).toOption
  pure body.diagram

theorem diagram?_eq_some {document : List NumberedLine} {l : Layout} {b : Body}
    (hlayout : layout document = .ok l) (hbody : splitBody l.body = .ok b) :
    diagram? document = some b.diagram := by
  simp [diagram?, hlayout, hbody, Except.toOption]

theorem numbers_numbered (text : String) :
    (numbered text).map Prod.fst = List.range' 1 (Text.lines text).length := by
  unfold numbered
  rw [List.map_map]
  exact List.zipIdx_map_snd 1 (Text.lines text)

theorem nodup_numbers (text : String) : ((numbered text).map Prod.fst).Nodup := by
  rw [numbers_numbered]
  exact List.nodup_range'

end Document

namespace Definition

open Statement Draft

/-- What is drawn on one line among others that have other numbers. -/
theorem filter_drawn {inside : Bool} {before after : List NumberedLine} {line : NumberedLine}
    (h : ((before ++ line :: after).map Prod.fst).Nodup) :
    (drawn inside (before ++ line :: after)).filter (fun e => e.2.2 == some line.1) =
      if insideNote inside before then [] else drawnBy line := by
  rw [List.map_append, List.map_cons, List.nodup_append, List.nodup_cons] at h
  obtain ⟨-, ⟨hafter, -⟩, hbefore⟩ := h
  have hother : ∀ (inside : Bool) (others : List NumberedLine),
      line.1 ∉ others.map Prod.fst →
      (drawn inside others).filter (fun e => e.2.2 == some line.1) = [] := by
    intro inside others hnot
    rw [List.filter_eq_nil_iff]
    intro e he heq
    obtain ⟨other, hmem, hnumber⟩ := exists_line_of_mem_drawn he
    rw [hnumber, beq_iff_eq, Option.some.injEq] at heq
    exact hnot (heq ▸ List.mem_map_of_mem hmem)
  have hself : (drawnBy line).filter (fun e => e.2.2 == some line.1) = drawnBy line := by
    unfold drawnBy
    split <;> simp
  have hnot : line.1 ∉ before.map Prod.fst :=
    fun hmem => hbefore line.1 hmem line.1 (List.mem_cons_self ..) rfl
  rw [drawn_append, drawn, List.filter_append, List.filter_append, hother _ _ hnot,
    hother _ _ hafter, List.nil_append, List.append_nil]
  split
  · rfl
  · exact hself

/-- Outside the notes of a document that is read, a line of its diagram that draws an arrow gives
one transition under the line's number, which joins the endpoints of the arrow; but it gives none
where it begins like a line that sets up the drawing. -/
theorem ends_at_line_of_parse {text : String} {name : Option String} {d : Definition}
    (hparse : Definition.parse text name = .ok d) :
    ∃ diagram, Document.diagram? (Document.numbered text) = some diagram ∧
      diagram <:+: Document.numbered text ∧
      ∀ before line after source target, diagram = before ++ line :: after →
        insideNote false before = false → DrawsArrow source target (strip line.2).toList →
        (d.transitions.filter fun t => t.line == some line.1).map Transition.ends =
          if SetsUp (strip line.2).toList then []
          else [(sourceId source, targetId target, some line.1)] := by
  unfold parse at hparse
  simp only [bind_eq_ok_iff, mapError_eq_ok_iff] at hparse
  obtain ⟨layout, hlayout, header, -, body, hbody, draft, hdraft, hd⟩ := hparse
  cases hd
  have hdiagram := Document.diagram?_eq_some hlayout hbody
  have hpart : body.diagram <:+: Document.numbered text :=
    (Document.isInfix_splitBody hbody).trans (Document.isSuffix_layout hlayout).isInfix
  refine ⟨body.diagram, hdiagram, hpart, ?_⟩
  intro before line after source target hsplit houtside hdraws
  have hdistinct : ((before ++ line :: after).map Prod.fst).Nodup := by
    rw [← hsplit]
    exact (Document.nodup_numbers text).sublist (hpart.sublist.map Prod.fst)
  have hdrawn : (drawn false body.diagram).filter (fun e => e.2.2 == some line.1) =
      if insideNote false before then [] else drawnBy line := hsplit ▸ filter_drawn hdistinct
  rw [ ← ends_ofLines hdraft, List.filter_map, houtside, if_neg Bool.false_ne_true]
    at hdrawn
  refine hdrawn.trans ?_
  have hread := read_of_draws hdraws
  unfold drawnBy
  split at hread
  · rename_i hsets
    rw [hread, if_pos hsets]
  · rename_i hsets
    obtain ⟨rest, hread⟩ := hread
    rw [hread, if_neg hsets]

/-- A transition out of a state that is named like the first line of a drawing, behind a note that
holds an arrow. -/
def lostArrow : List String :=
  ["name: lost", "", "[*] --> Idle", "Idle --> Done", "note right of Idle", "Idle --> Nowhere",
    "end note", "stateDiagramSetup --> Idle", "Done --> [*]"]

theorem exists_lost_of_lostArrow :
    ∃ d, parse (Text.unlines lostArrow) none = .ok d ∧ d.validate.hasErrors = false ∧
      DrawsArrow (.state "stateDiagramSetup") (.state "Idle") "stateDiagramSetup --> Idle".toList ∧
      (d.transitions.filter fun t => t.line == some 8).map Transition.ends = [] := by
  have hunbroken : ∀ l ∈ lostArrow, Text.unbroken l = true := by decide
  obtain ⟨d, hparse, hv, -⟩ := exists_read lostArrow (fun _ => true) hunbroken (by decide +kernel)
  have hdraws : DrawsArrow (.state "stateDiagramSetup") (.state "Idle")
      "stateDiagramSetup --> Idle".toList := by
    have hread : Statement.readArrow? "stateDiagramSetup --> Idle".toList =
        some (Statement.arrow (.state "stateDiagramSetup") (.state "Idle") "") := by decide +kernel
    exact draws_of_readArrow? hread
  refine ⟨d, hparse, hv, hdraws, ?_⟩
  obtain ⟨diagram, hdiagram, -, hall⟩ := ends_at_line_of_parse hparse
  rw [numbered_unlines hunbroken] at hdiagram
  have hsplit : diagram = [(2, ""), (3, "[*] --> Idle"), (4, "Idle --> Done"),
      (5, "note right of Idle"), (6, "Idle --> Nowhere"), (7, "end note")] ++
      (8, "stateDiagramSetup --> Idle") :: [(9, "Done --> [*]")] :=
    Option.some.inj (hdiagram.symm.trans (by decide +kernel))
  have hends := hall _ _ _ _ _ hsplit (by decide +kernel) hdraws
  rw [if_pos (by decide +kernel)] at hends
  exact hends

end Definition

end Runbook.Workflow
