import Runbook.Workflow.ActionNotation
import Runbook.Workflow.Definition
import Runbook.Workflow.Statement

/-!
A definition in the making. Each statement of a diagram adds to what is known: states are
declared where they are first mentioned, fork and join markers open and close parallel regions
like brackets, and a note takes in all lines up to its end. Action entries come after the whole
diagram.
-/
namespace Runbook.Workflow

open Text

structure Draft where
  states : List State
  transitions : List Transition
  regions : List Region
  notes : List Note
  /-- Forks whose region is open, the innermost first, with the lines of their markers. -/
  openForks : List (String × Nat)
  /-- The line of the transition out of the initial pseudostate. -/
  initialLine : Option Nat
  /-- The note whose end has not come yet. -/
  openNote : Option Note
  deriving Repr

def Note.addLine (n : Note) (text : String) : Note :=
  { n with text := if n.text.isEmpty then text else n.text ++ "\n" ++ text }

namespace Draft

def empty : Draft := ⟨[], [], [], [], [], none, none⟩

def state? (d : Draft) (id : String) : Option State := d.states.find? fun s => s.id == id

/-- The fork of the innermost open region. -/
def region (d : Draft) : Option String := d.openForks.head?.map (·.1)

/-- Declares a state unless it is declared. -/
def declare (d : Draft) (id : String) : Draft :=
  match d.state? id with
  | some _ => d
  | none => { d with states := d.states ++ [⟨id, .normal, [], "", d.region⟩] }

def declarePseudo (d : Draft) (id : String) (kind : StateKind) : Draft :=
  match d.state? id with
  | some _ => d
  | none => { d with states := d.states ++ [⟨id, kind, [], "", none⟩] }

def modifyState (d : Draft) (id : String) (f : State → State) : Draft :=
  { d with states := d.states.map fun s => if s.id = id then f s else s }

def declareSource (d : Draft) : Endpoint → Draft
  | .pseudo => d.declarePseudo startId .initial
  | .state id => d.declare id

def declareTarget (d : Draft) : Endpoint → Draft
  | .pseudo => d.declarePseudo endId .terminal
  | .state id => d.declare id

def sourceId : Endpoint → String
  | .pseudo => startId
  | .state id => id

def targetId : Endpoint → String
  | .pseudo => endId
  | .state id => id

/-- The pseudostate begins one transition only. -/
def checkSource (d : Draft) (line : Nat) (source : Endpoint) : Except DocumentFault Draft :=
  match source, d.initialLine with
  | .pseudo, some first => .error (.atLine line (.secondInitial first) (some "[*]"))
  | .pseudo, none => .ok { d with initialLine := some line }
  | .state _, _ => .ok d

def addArrow (d : Draft) (line : Nat) (source target : Endpoint) (rest : String) :
    Except DocumentFault Draft := do
  let (guard, label) ← readExit line rest
  let d ← d.checkSource line source
  let d := (d.declareSource source).declareTarget target
  pure { d with transitions := d.transitions ++
    [⟨sourceId source, targetId target, guard, label, some line⟩] }

def markerKind? (word : String) : Option StateKind :=
  let name := lowered word
  [StateKind.choice, .fork, .join].find? fun k => k.name == name

/-- Closes the innermost region with a join, which belongs to the region around it. -/
def closeRegion (d : Draft) (line : Nat) (id : String) : Except DocumentFault Draft :=
  match d.openForks with
  | [] => .error (.atLine line .joinWithoutFork (some id))
  | (fork, _) :: outer =>
    let d := { d with openForks := outer, regions := d.regions ++ [Region.mk fork id] }
    .ok (d.modifyState id fun s => { s with region := d.region })

def addMarker (d : Draft) (line : Nat) (id word : String) : Except DocumentFault Draft :=
  match markerKind? word with
  | none => .error (.atLine line .unknownMarker (some s!"<<{word}>>"))
  | some kind =>
    let d := d.declare id
    let present := ((d.state? id).map State.kind).getD .normal
    if present ≠ .normal ∧ present ≠ kind then
      .error (.atLine line (.declaredOtherwise id present.name) (some id))
    else
      let d := d.modifyState id fun s => { s with kind := kind }
      match kind with
      | .fork => .ok { d with openForks := (id, line) :: d.openForks }
      | .join => d.closeRegion line id
      | _ => .ok d

def describe (d : Draft) (id text : String) : Draft :=
  (d.declare id).modifyState id fun s => { s with description := text }

/-- Adds what a statement says. Outside a fence a description needs a state that is declared, since
prose may look like one. -/
def addStatement (fenced : Bool) (d : Draft) (line : Nat) (text : String) :
    Except DocumentFault Draft :=
  match Statement.read text with
  | .silent => .ok d
  | .arrow source target rest => d.addArrow line source target rest
  | .marker id word => d.addMarker line id word
  | .alias id description => .ok (d.describe id description)
  | .composite => .error (.atLine line .compositeState (some text))
  | .note position id body => .ok { d with notes := d.notes ++ [⟨body, id, position⟩] }
  | .openNote position id => .ok { d with openNote := some ⟨"", id, position⟩ }
  | .description id body =>
    if !fenced && (d.state? id).isNone then
      .error (.atLine line .undeclaredDescription (some text))
    else .ok (d.describe id body)
  | .unknown => .error (.atLine line .unrecognisedStatement (some text))

/-- Adds a line of a diagram, with its number. -/
def addLine (fenced : Bool) (d : Draft) (line : Nat × String) : Except DocumentFault Draft :=
  let text := strip line.2
  match d.openNote with
  | some note =>
    if lowered text = "end note" then
      .ok { d with openNote := none, notes := d.notes ++ [note] }
    else .ok { d with openNote := some (note.addLine text) }
  | none => d.addStatement fenced line.1 text

def addLines (fenced : Bool) (d : Draft) (lines : List (Nat × String)) :
    Except DocumentFault Draft :=
  lines.foldlM (addLine fenced) d

/-- Every region is closed where the diagram ends. -/
def checkRegions (d : Draft) : Except DocumentFault Unit :=
  match d.openForks with
  | [] => .ok ()
  | (fork, line) :: _ => .error (.atLine line .forkWithoutJoin (some fork))

def unguardedExits (d : Draft) (id : String) : List Transition :=
  d.transitions.filter fun t => t.source == id && t.guard.isNone

/-- The states with an unguarded exit, in the order of their first one. -/
def unguardedSources (d : Draft) : List String :=
  ((d.transitions.filter fun t => t.guard.isNone).map Transition.source).foldl
    Definition.addNew []

def isFork (d : Draft) (id : String) : Bool :=
  ((d.state? id).map State.kind) == some .fork

/-- Only a fork has several unguarded exits. -/
def checkExits (d : Draft) : Except DocumentFault Unit :=
  let fault? := fun id => match d.unguardedExits id with
    | exits@(_ :: second :: _) =>
      if d.isFork id then none
      else
        let line := second.line.map Int.ofNat
        some (Fault.mk (.ambiguousExits id exits.length) line (some id) none none)
    | _ => none
  match d.unguardedSources.findSome? fault? with
  | none => .ok ()
  | some f => .error f

/-- A list item that names a state and gives an action. -/
def readEntry? (cs : List Char) : Option (String × List Char) := do
  let rest ← Statement.dropBlanks? cs.tail
  let (id, rest) ← takeIdent? rest
  let action ← Statement.dropText? ":" (trimStart rest)
  let action := trimStart action
  guard (!action.isEmpty && onOneLine action)
  pure (String.ofList id, action)

/-- Adds a line of the action list; only list items are entries. -/
def addAction (d : Draft) (line : Nat × String) : Except DocumentFault Draft :=
  let cs := trim line.2.toList
  if cs.head? ≠ some '-' ∧ cs.head? ≠ some '*' then .ok d
  else
    match readEntry? cs with
    | none => .error (.atLine line.1 .malformedActionEntry (some (String.ofList cs)))
    | some (id, text) =>
      if ((d.state? id).map fun s => s.kind.isPseudo).getD true then
        .error (.atLine line.1 .actionOfUnknownState (some id))
      else do
        let action ← Action.read (some line.1) (String.ofList text)
        pure (d.modifyState id fun s => { s with actions := s.actions ++ [action] })

def addActions (d : Draft) (lines : List (Nat × String)) : Except DocumentFault Draft :=
  lines.foldlM addAction d

/-- All notes, one that was never ended too. -/
def allNotes (d : Draft) : List Note := d.notes ++ d.openNote.toList

/-- A diagram and its action list as a draft. -/
def ofLines (fenced : Bool) (diagram actions : List (Nat × String)) :
    Except DocumentFault Draft := do
  let d ← empty.addLines fenced diagram
  d.checkRegions
  d.checkExits
  d.addActions actions

end Draft

end Runbook.Workflow
