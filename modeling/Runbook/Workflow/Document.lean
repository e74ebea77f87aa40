import Runbook.Log.Record
import Runbook.Text.Lines
import Runbook.Workflow.Draft
import Runbook.Yaml.Content

/-!
Workflow documents: a header of key–value pairs, a diagram, and a list of actions. The header
stands between two fences or ends at the first blank line. The diagram may stand in a code fence
of its own; otherwise it goes on to the heading of the actions.
-/
namespace Runbook.Workflow

open Text

abbrev NumberedLine := Nat × String

structure Header where
  name : String
  description : String
  version : String
  deriving DecidableEq, Repr

/-- A header's lines, the number of the first of them, and the lines after the header. -/
structure Layout where
  header : List String
  first : Nat
  body : List NumberedLine

namespace Document

def isBlankLine (line : String) : Bool := (strip line).isEmpty

def isFence (line : String) : Bool := strip line == "---"

/-- The lines of a document with their numbers, counted from one. -/
def numbered (s : String) : List NumberedLine := ((lines s).zipIdx 1).map fun l => (l.2, l.1)

/-- Finds the header. -/
def layout (document : List NumberedLine) : Except DocumentFault Layout :=
  match document.dropWhile fun l => isBlankLine l.2 with
  | [] => .error (.atLine 1 .emptyDocument none)
  | (number, line) :: rest =>
    if isFence line then
      match rest.dropWhile fun l => !isFence l.2 with
      | [] => .error (.atLine number .unclosedHeader (some "---"))
      | _ :: body =>
        .ok ⟨(rest.takeWhile fun l => !isFence l.2).map (·.2), number + 1, body⟩
    else
      .ok ⟨line :: (rest.takeWhile fun l => !isBlankLine l.2).map (·.2), number,
        rest.dropWhile fun l => !isBlankLine l.2⟩

/-- Why a header is refused whose YAML text has no value. -/
def headerRefusal (first : Nat) : Yaml.Failure → Refusal
  | .malformed problem line =>
    .fault (.atLine (first + line.getD 0) (.malformedHeader problem) none)
  | .scalar f => .scalar f
  | .tooDeep => .tooDeep

/-- The entries of a header. -/
def headerEntries (lines : List String) (first : Nat) : Parsed Yaml.Entries := do
  let content ← (Yaml.Content.read (String.intercalate "\n" lines)).mapError (headerRefusal first)
  match Yaml.Entries.ofContent? content with
  | some entries => pure entries
  | none => .error (.fault (.atLine first .headerNotPairs (lines.head?.map strip)))

/-- The text of the value under a key; null counts as none. -/
def textAt? (key : String) (entries : Yaml.Entries) (first : Nat) : Parsed (Option String) :=
  match entries.get? key with
  | none | some (.scalar .null) => .ok none
  | some d => (d.plain.map some).mapError (headerRefusal first)

/-- Every header has a name that is not blank. -/
def readHeader (lines : List String) (first : Nat) : Parsed Header := do
  let entries ← headerEntries lines first
  let name := strip ((← textAt? "name" entries first).getD "")
  if name.isEmpty then .error (.fault (.atLine first .headerWithoutName none))
  else
    let description := strip ((← textAt? "description" entries first).getD "")
    pure ⟨name, description, (← textAt? "version" entries first).getD "1"⟩

def isActionsHeading (line : String) : Bool :=
  let cs := trim line.toList
  let signs := cs.takeWhile (· == '#')
  !signs.isEmpty && signs.length ≤ 6 &&
    match dropKeyword? "actions".toList (trimStart (cs.drop signs.length)) with
    | some rest => rest.isEmpty
    | none => false

def opensDiagram (line : String) : Bool :=
  "\x60\x60\x60mermaid".toList.isPrefixOf (trim line.toList)

def closesDiagram (line : String) : Bool := strip line == "\x60\x60\x60"

/-- A body in its parts. -/
structure Body where
  /-- Whether the diagram stands in a code fence. -/
  fenced : Bool
  diagram : List NumberedLine
  actions : List NumberedLine

def afterHeading (lines : List NumberedLine) : List NumberedLine :=
  (lines.dropWhile fun l => !isActionsHeading l.2).tail

def splitBody (body : List NumberedLine) : Except DocumentFault Body :=
  match body.dropWhile fun l => !opensDiagram l.2 with
  | [] => .ok ⟨false, body.takeWhile fun l => !isActionsHeading l.2, afterHeading body⟩
  | (number, _) :: rest =>
    match rest.dropWhile fun l => !closesDiagram l.2 with
    | [] => .error (.atLine number .unclosedDiagram (some "\x60\x60\x60mermaid"))
    | _ :: after =>
      .ok ⟨true, rest.takeWhile fun l => !closesDiagram l.2, afterHeading after⟩

end Document

namespace Definition

/-- The definition a draft has come to; a name that is given wins over the header's. -/
def ofDraft (name : Option String) (header : Header) (d : Draft) : Definition where
  name := match name with
    | some n => if n.isEmpty then header.name else n
    | none => header.name
  metadata := {
    name := header.name
    description := header.description
    version := header.version
    initialState := (d.transitions.find? fun t => t.source == startId).map Transition.target }
  states := collectStates d.states
  transitions := d.transitions
  regions := d.regions
  notes := d.allNotes
  distinct := distinctIds_collectStates d.states

/-- Reads a workflow document. -/
def parse (s : String) (name : Option String) : Parsed Definition := do
  let layout ← (Document.layout (Document.numbered s)).mapError .fault
  let header ← Document.readHeader layout.header layout.first
  let body ← (Document.splitBody layout.body).mapError .fault
  let draft ← (Draft.ofLines body.fenced body.diagram body.actions).mapError .fault
  pure (ofDraft name header draft)

/-- What is logged when a document has been read. -/
def parsedRecord (d : Definition) : Log.Record :=
  .plain Log.debug "toolsmith.workflow.parser" "Workflow parsed"
    [("workflow", .text d.name), ("states", .int d.states.length),
      ("transitions", .int d.transitions.length)]

end Definition

end Runbook.Workflow
