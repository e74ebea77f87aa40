import Runbook.Problem
import Runbook.Text.LetterCase
import Runbook.Text.Blank

/-!
The statements of a diagram, one to a line. A line is an arrow between two states, a marker that
gives a state its kind, an alias, a description, a note on one line or the opening of a longer
one; some lines say nothing. What a line is does not depend on the lines before it, the inside
of a note apart.
-/
namespace Runbook.Workflow

open Text

/-- One end of an arrow: the pseudostate or a state. -/
inductive Endpoint where
  | pseudo
  | state (id : String)
  deriving DecidableEq, Repr

inductive Statement where
  /-- Blank lines, comments, headings and the lines that set up the drawing. -/
  | silent
  /-- Two ends and the text after them. -/
  | arrow (source target : Endpoint) (rest : String)
  | marker (id kind : String)
  | alias (id description : String)
  | composite
  | note (position id text : String)
  | openNote (position id : String)
  | description (id text : String)
  | unknown
  deriving DecidableEq, Repr

namespace Statement

/-- What follows a word at the front of a text. -/
def dropText? (word : String) (cs : List Char) : Option (List Char) :=
  if word.toList.isPrefixOf cs then some (cs.drop word.length) else none

/-- What follows at least one blank, all blanks passed. -/
def dropBlanks? : List Char → Option (List Char)
  | c :: cs => if isBlank c then some (trimStart cs) else none
  | [] => none

def takeEndpoint? (cs : List Char) : Option (Endpoint × List Char) :=
  match dropText? "[*]" cs with
  | some rest => some (.pseudo, rest)
  | none => (takeIdent? cs).map fun (id, rest) => (.state (String.ofList id), rest)

def readArrow? (cs : List Char) : Option Statement := do
  let (source, rest) ← takeEndpoint? cs
  let rest ← dropText? "-->" (trimStart rest)
  let (target, rest) ← takeEndpoint? (trimStart rest)
  pure (.arrow source target (strip (String.ofList rest)))

/-- What follows the word that opens the declaration of a state. -/
def dropState? (cs : List Char) : Option (List Char) := do dropBlanks? (← dropText? "state" cs)

def readMarker? (cs : List Char) : Option Statement := do
  let (id, rest) ← takeIdent? (← dropState? cs)
  let rest ← dropText? "<<" (trimStart rest)
  let body := trimStart rest
  let kind := body.takeWhile isWord
  guard (!kind.isEmpty)
  guard (trimStart (body.drop kind.length) == ['>', '>'])
  pure (.marker (String.ofList id) (String.ofList kind))

def readAlias? (cs : List Char) : Option Statement := do
  let inside ← dropText? "\x22" (← dropState? cs)
  let text := inside.takeWhile (· != '\x22')
  let rest ← dropText? "\x22" (inside.drop text.length)
  let rest ← dropText? "as" (← dropBlanks? rest)
  let (id, rest) ← takeIdent? (← dropBlanks? rest)
  guard rest.isEmpty
  pure (.alias (String.ofList id) (String.ofList text))

/-- A state with a body of its own, or the end of such a body. -/
def isComposite (cs : List Char) : Bool :=
  ((dropState? cs).isSome && cs.getLast? == some '\x7b') || cs == ['\x7d']

def takeIdentAnyCase? (cs : List Char) : Option (List Char × List Char) :=
  match cs with
  | [] => none
  | c :: rest =>
    if isIdentStartAnyCase c then
      some (c :: rest.takeWhile isIdentCharAnyCase, rest.dropWhile isIdentCharAnyCase)
    else none

/-- The side a note stands on, as it is written. -/
def takeSide? (cs : List Char) : Option (List Char × List Char) :=
  ["left", "right"].findSome? fun side =>
    (dropKeyword? side.toList cs).map fun rest => (cs.take side.length, rest)

def readNote? (cs : List Char) : Option Statement := do
  let (side, rest) ← takeSide? (← dropBlanks? (← dropKeyword? "note".toList cs))
  let rest ← dropKeyword? "of".toList (← dropBlanks? rest)
  let (id, rest) ← takeIdentAnyCase? (← dropBlanks? rest)
  let position := lowered (String.ofList side)
  match rest, trimStart rest with
  | [], _ => pure (.openNote position (String.ofList id))
  | _, ':' :: text => pure (.note position (String.ofList id) (strip (String.ofList text)))
  | _, _ => none

def readDescription? (cs : List Char) : Option Statement := do
  let (id, rest) ← takeIdent? cs
  let text ← dropText? ":" (trimStart rest)
  pure (.description (String.ofList id) (strip (String.ofList text)))

/-- One to six number signs and a blank. -/
def isHeading (cs : List Char) : Bool :=
  let signs := cs.takeWhile (· == '#')
  !signs.isEmpty && signs.length ≤ 6 && ((cs.drop signs.length).head?.map isBlank).getD false

def isSilent (cs : List Char) : Bool :=
  cs.isEmpty || (dropText? "%%" cs).isSome || (dropText? "stateDiagram" cs).isSome ||
    (dropText? "direction " (lower cs)).isSome || isHeading cs

/-- The statement on a line without blanks at its ends. -/
def read (line : String) : Statement :=
  let cs := line.toList
  if isSilent cs then .silent
  else
    match (readArrow? cs).or ((readMarker? cs).or (readAlias? cs)) with
    | some s => s
    | none =>
      if isComposite cs then .composite
      else ((readNote? cs).or (readDescription? cs)).getD .unknown

end Statement

/-- Every piece of text in braces; a piece holds no brace itself. The piece being read, if a brace
is open, is held backwards. -/
def bracedPieces (held : Option (List Char)) : List Char → List (List Char)
  | [] => []
  | c :: cs =>
    if c = '\x7b' then bracedPieces (some []) cs
    else
      match held with
      | none => bracedPieces none cs
      | some piece =>
        if c = '\x7d' then piece.reverse :: bracedPieces none cs
        else bracedPieces (some (c :: piece)) cs

/-- The text without the first piece in braces. -/
def dropBraced : List Char → List Char
  | [] => []
  | c :: cs =>
    if c = '\x7b' then
      match cs.dropWhile fun x => x != '\x7b' && x != '\x7d' with
      | '\x7d' :: rest => rest
      | _ => c :: dropBraced cs
    else c :: dropBraced cs

/-- The label an arrow's text gives once the guard is taken out; none is empty. -/
def labelOf (rest : List Char) : Except Problem (Option String) :=
  let named := fun (cs : List Char) =>
    let text := trim cs
    if text.isEmpty then none else some (String.ofList text)
  match rest with
  | [] => .ok none
  | ':' :: label => .ok (named label)
  | '[' :: label =>
    if label.getLast? = some ']' then .ok (named label.dropLast) else .error .textAfterTransition
  | _ => .error .textAfterTransition

/-- The guard and the label in the text after an arrow. -/
def readExit (line : Nat) (rest : String) :
    Except DocumentFault (Option String × Option String) :=
  let cs := rest.toList
  match bracedPieces none cs with
  | _ :: _ :: _ => .error (.atLine line .severalGuards (some rest))
  | [] => finish none cs
  | [piece] =>
    let guard := trim piece
    if guard.isEmpty then .error (.atLine line .emptyGuard (some "\x7b\x7d"))
    else finish (some (String.ofList guard)) (trim (dropBraced cs))
where
  finish (guard : Option String) (left : List Char) :
      Except DocumentFault (Option String × Option String) :=
    match labelOf left with
    | .ok label => .ok (guard, label)
    | .error cause => .error (.atLine line cause (some (String.ofList left)))

end Runbook.Workflow
