import Runbook.Fault
import Runbook.Yaml.Failure

/-!
Why a workflow or prompt document is refused. Every cause has its own case; a few carry what their
wording mentions. A document whose header holds a well-formed scalar that denotes nothing, such as a
date that does not exist, is refused without a place.
-/
namespace Runbook

inductive Problem where
  | emptyDocument
  | unclosedHeader
  | malformedHeader (detail : String)
  | headerNotPairs
  | headerWithoutName
  | unclosedDiagram
  | compositeState
  | undeclaredDescription
  | unrecognisedStatement
  | severalGuards
  | emptyGuard
  | textAfterTransition
  /-- A second transition out of the initial pseudostate, which has one on `line`. -/
  | secondInitial (line : Nat)
  | unknownMarker
  | declaredOtherwise (state kind : String)
  | joinWithoutFork
  | forkWithoutJoin
  | ambiguousExits (state : String) (count : Nat)
  | malformedActionEntry
  | actionOfUnknownState
  | malformedArguments
  | unknownAction
  | unclosedFrontMatter
  | malformedFrontMatter (detail : String)
  | frontMatterNotPairs
  | invalidMetadata (detail : String)
  deriving DecidableEq, Repr

namespace Problem

def message : Problem → String
  | .emptyDocument => "Workflow document is empty"
  | .unclosedHeader => "Metadata header fence is not closed"
  | .malformedHeader detail => s!"Malformed metadata header: {detail}"
  | .headerNotPairs => "Metadata header must be key/value pairs"
  | .headerWithoutName => "Metadata header is missing 'name'"
  | .unclosedDiagram => "Diagram code fence is not closed"
  | .compositeState => "Composite states are not supported; use <<fork>>/<<join>> markers"
  | .undeclaredDescription =>
    "Description for an undeclared state; declare the state first " ++
      "or put the diagram in a \x60\x60\x60mermaid fence"
  | .unrecognisedStatement => "Unrecognised diagram statement"
  | .severalGuards => "Transition has more than one guard"
  | .emptyGuard => "Empty guard expression"
  | .textAfterTransition => "Unexpected text after transition"
  | .secondInitial line => s!"Initial pseudostate [*] already used on line {line}"
  | .unknownMarker => "Unknown state marker"
  | .declaredOtherwise state kind => s!"State {state} is already declared as {kind}"
  | .joinWithoutFork => "Join marker without an open fork"
  | .forkWithoutJoin => "Fork marker has no matching join"
  | .ambiguousExits state count =>
    s!"State {state} has {count} unguarded transitions; " ++
      "mark it <<fork>> for parallel branches or add guards"
  | .malformedActionEntry => "Malformed action entry"
  | .actionOfUnknownState => "Action refers to an unknown state"
  | .malformedArguments => "Malformed prompt arguments"
  | .unknownAction => "Unknown action"
  | .unclosedFrontMatter => "Front matter fence is not closed"
  | .malformedFrontMatter detail => s!"Malformed front matter: {detail}"
  | .frontMatterNotPairs => "Front matter must be key/value pairs"
  | .invalidMetadata detail => s!"Invalid prompt metadata: {detail}"

/-- Ambiguity is the one kind of fault that callers tell from the others. -/
def isAmbiguity : Problem → Bool
  | .ambiguousExits .. => true
  | _ => false

end Problem

abbrev DocumentFault := Fault Problem

def Fault.message (f : DocumentFault) : String := f.text Problem.message

/-- Why a document gives no definition and no prompt. -/
inductive Refusal where
  | fault (f : DocumentFault)
  /-- A scalar of the header denotes nothing. -/
  | scalar (f : Yaml.ScalarFault)
  /-- The header is nested more deeply than is ever read. -/
  | tooDeep
  deriving DecidableEq, Repr

abbrev Parsed := Except Refusal

/-- The same refusal as one of a resource. -/
def Refusal.within (r : Refusal) (resource : String) (tier : Tier) : Refusal :=
  match r with
  | .fault f => .fault (f.within resource tier)
  | r => r

def Refusal.message : Refusal → String
  | .fault f => f.message
  | .scalar f => f.message
  | .tooDeep => "maximum recursion depth exceeded"

end Runbook
