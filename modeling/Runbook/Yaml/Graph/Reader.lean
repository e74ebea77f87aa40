import Runbook.Keyed
import Runbook.Yaml.Graph
import Runbook.Yaml.Token.Lexer

/-!
From tokens to nodes. An alias stands for the node with its anchor, which may be a collection
around it. A text has one document or none.
-/
namespace Runbook.Yaml

/-- What is left to be read, and what has been read and declared on the way. -/
structure Outline where
  tokens : List Token
  /-- Why there are no more tokens. -/
  failure : Option Failure
  /-- What the handles of tags stand for. -/
  handles : List (String × String)
  anchors : List (String × Nat)
  graph : Graph
  /-- How many collections are open. -/
  level : Nat

abbrev Composing := StateT Outline Reading

namespace Composing

def failAt {α : Type} (line : Nat) (problem : String) : Composing α :=
  throw (.malformed problem (some line))

def peek : Composing Token := do
  let s ← get
  match s.tokens with
  | t :: _ => pure t
  | [] => throw (s.failure.getD (.malformed "the text ends too soon" none))

def next : Composing Token := do
  let t ← peek
  modify fun s => { s with tokens := s.tokens.tail }
  pure t

/-- Whether the next token is of one of some kinds. -/
def sees (kinds : List TokenKind) : Composing Bool := do
  let t ← peek
  pure (kinds.contains t.kind)

def unexpected {α : Type} (wanted : String) : Composing α := do
  let t ← peek
  failAt t.first s!"expected {wanted}, but found '{t.kind.shown}'"

/-- Adds a node, and gives its number. -/
def add (node : Node) : Composing Nat := do
  let s ← get
  let n := s.graph.nodes.size
  set { s with graph := s.graph.add node }
  pure n

/-- The scalar where nothing is written. -/
def empty (line : Nat) : Composing Nat := add { Graph.absent with line := line }

/-- How many collections may be open at a time. -/
def levelLimit : Nat := 485

/-- What is read inside one more collection. -/
def inside {α : Type} (content : Composing α) : Composing α := do
  if levelLimit ≤ (← get).level then throw .tooDeep
  modify fun s => { s with level := s.level + 1 }
  let result ← content
  modify fun s => { s with level := s.level - 1 }
  pure result

/-- What a node has in front of it. -/
structure Properties where
  anchor : Option String
  tag : Option String
  /-- The line of the first of them, or of the node's own token. -/
  line : Nat

def expandTag (line : Nat) (handle : Option String) (suffix : String) : Composing String := do
  match handle with
  | none => pure suffix
  | some h =>
    match Keyed.get? h (← get).handles with
    | some expansion => pure (expansion ++ suffix)
    | none => failAt line s!"found undefined tag handle {Text.quoted h}"

/-- An anchor and a tag in either order, or one of them, or none. -/
def properties : Composing Properties := do
  let first ← peek
  match first.kind with
  | .anchor name =>
    let _ ← next
    let second ← peek
    match second.kind with
    | .tag handle suffix =>
      let _ ← next
      pure ⟨some name, some (← expandTag second.first handle suffix), first.first⟩
    | _ => pure ⟨some name, none, first.first⟩
  | .tag handle suffix =>
    let _ ← next
    let second ← peek
    match second.kind with
    | .anchor name =>
      let _ ← next
      pure ⟨some name, some (← expandTag first.first handle suffix), first.first⟩
    | _ => pure ⟨none, some (← expandTag first.first handle suffix), first.first⟩
  | _ => pure ⟨none, none, first.first⟩

/-- An anchor names one node only. -/
def checkAnchor (p : Properties) : Composing Unit := do
  match p.anchor with
  | none => pure ()
  | some name =>
    if Keyed.has name (← get).anchors then failAt p.line "found duplicate anchor" else pure ()

def record (p : Properties) (node : Nat) : Composing Unit :=
  match p.anchor with
  | none => pure ()
  | some name => modify fun s => { s with anchors := Keyed.set name node s.anchors }

/-- A tag that is written out; an exclamation mark alone leaves the choice to the usual rule. -/
def chosenTag (p : Properties) (usual : Tag) : Tag :=
  match p.tag with
  | none | some "!" => usual
  | some name => Tag.ofName name

/-- A scalar node. Plain scalars without a tag and those with an exclamation mark alone have the
tag of their notation. -/
def scalar (p : Properties) (text : String) (isPlain : Bool) : Composing Nat := do
  checkAnchor p
  let byNotation := (isPlain && p.tag.isNone) || p.tag == some "!"
  let tag := chosenTag p (if byNotation then Tag.ofNotation text else .text)
  let n ← add ⟨tag, .scalar text, p.line⟩
  record p n
  pure n

/-- A collection node, whose anchor is known to its own parts. -/
def collection (p : Properties) (usual : Tag) (start : Shape) (content : Composing Shape) :
    Composing Nat := do
  checkAnchor p
  let n ← add ⟨chosenTag p usual, start, p.line⟩
  record p n
  let shape ← inside content
  modify fun s => { s with graph := s.graph.setShape n shape }
  pure n

mutual

/-- A node. Block collections begin only where they may, and so do sequences without indentation of
their own. -/
def node : Nat → Bool → Bool → Composing Nat
  | 0, _, _ => unexpected "the node content"
  | fuel + 1, block, indentless => do
    let first ← peek
    match first.kind with
    | .alias name =>
      let _ ← next
      match Keyed.get? name (← get).anchors with
      | some n => pure n
      | none => failAt first.first s!"found undefined alias {Text.quoted name}"
    | _ =>
      let p ← properties
      let t ← peek
      let sequence := collection p .sequence (.sequence [])
      let mapping := collection p .mapping (.mapping [])
      match t.kind with
      | .scalar text isPlain =>
        let _ ← next
        scalar p text isPlain
      | .flowSequenceStart => sequence do
        let _ ← next
        .sequence <$> flowItems fuel true
      | .flowMappingStart => mapping do
        let _ ← next
        .mapping <$> flowEntries fuel true
      | kind =>
        if indentless && kind == .entry then sequence (.sequence <$> indentlessItems fuel)
        else if block && kind == .blockSequence then
          sequence do
            let _ ← next
            .sequence <$> blockItems fuel
        else if block && kind == .blockMapping then
          mapping do
            let _ ← next
            .mapping <$> blockEntries fuel
        else if p.anchor.isSome || p.tag.isSome then scalar p "" true
        else unexpected "the node content"

def blockItems : Nat → Composing (List Nat)
  | 0 => unexpected "<block end>"
  | fuel + 1 => do
    if ← sees [.entry] then
      let mark ← next
      let item ← if ← sees [.entry, .blockEnd] then empty mark.last
        else node fuel true false
      pure (item :: (← blockItems fuel))
    else if ← sees [.blockEnd] then
      let _ ← next
      pure []
    else unexpected "<block end>"

def indentlessItems : Nat → Composing (List Nat)
  | 0 => pure []
  | fuel + 1 => do
    if ← sees [.entry] then
      let mark ← next
      let item ← if ← sees [.entry, .key, .value, .blockEnd] then empty mark.last
        else node fuel true false
      pure (item :: (← indentlessItems fuel))
    else pure []

def blockEntries : Nat → Composing (List (Nat × Nat))
  | 0 => unexpected "<block end>"
  | fuel + 1 => do
    if ← sees [.key] then
      let mark ← next
      let key ← if ← sees [.key, .value, .blockEnd] then empty mark.last
        else node fuel true true
      let value ← blockValue fuel
      pure ((key, value) :: (← blockEntries fuel))
    else if ← sees [.blockEnd] then
      let _ ← next
      pure []
    else unexpected "<block end>"

def blockValue : Nat → Composing Nat
  | 0 => unexpected "<block end>"
  | fuel + 1 => do
    if ← sees [.value] then
      let mark ← next
      if ← sees [.key, .value, .blockEnd] then empty mark.last
      else node fuel true true
    else
      let after ← peek
      empty after.first

def flowItems : Nat → Bool → Composing (List Nat)
  | 0, _ => unexpected "',' or ']'"
  | fuel + 1, isFirst => do
    if ← sees [.flowSequenceEnd] then
      let _ ← next
      pure []
    else
      if !isFirst then
        if ← sees [.flowEntry] then let _ ← next
        else unexpected "',' or ']'"
      if ← sees [.key] then
        let mark ← next
        let entry ← inside do
          let key ← if ← sees [.value, .flowEntry, .flowSequenceEnd] then empty mark.last
            else node fuel false false
          let value ← flowValue fuel [.flowEntry, .flowSequenceEnd]
          pure (key, value)
        let item ← add ⟨.mapping, .mapping [entry], mark.first⟩
        pure (item :: (← flowItems fuel false))
      else if ← sees [.flowSequenceEnd] then
        let _ ← next
        pure []
      else
        let item ← node fuel false false
        pure (item :: (← flowItems fuel false))

/-- The value of a key in brackets or braces, where some tokens show that none is written. -/
def flowValue : Nat → List TokenKind → Composing Nat
  | 0, _ => unexpected "',' or ']'"
  | fuel + 1, ends => do
    if ← sees [.value] then
      let mark ← next
      if ← sees ends then empty mark.last else node fuel false false
    else
      let after ← peek
      empty after.first

def flowEntries : Nat → Bool → Composing (List (Nat × Nat))
  | 0, _ => unexpected "',' or '\x7d'"
  | fuel + 1, isFirst => do
    if ← sees [.flowMappingEnd] then
      let _ ← next
      pure []
    else
      if !isFirst then
        if ← sees [.flowEntry] then let _ ← next
        else unexpected "',' or '\x7d'"
      if ← sees [.key] then
        let mark ← next
        let key ← if ← sees [.value, .flowEntry, .flowMappingEnd] then empty mark.last
          else node fuel false false
        let value ← flowValue fuel [.flowEntry, .flowMappingEnd]
        pure ((key, value) :: (← flowEntries fuel false))
      else if ← sees [.flowMappingEnd] then
        let _ ← next
        pure []
      else
        let key ← node fuel false false
        let after ← peek
        let value ← empty after.first
        pure ((key, value) :: (← flowEntries fuel false))

end

def defaultHandles : List (String × String) := [("!", "!"), ("!!", standardTags)]

/-- The directives before a document, of which each says something new. -/
def directives : Nat → Bool → List (String × String) → Composing (List (String × String))
  | 0, _, handles => pure handles
  | fuel + 1, versioned, handles => do
    let t ← peek
    match t.kind with
    | .versionDirective major _ =>
      let _ ← next
      if versioned then failAt t.first "found duplicate YAML directive"
      else if major != 1 then failAt t.first "found incompatible YAML document"
      else directives fuel true handles
    | .tagDirective handle expansion =>
      let _ ← next
      if Keyed.has handle handles then failAt t.first "duplicate tag handle"
      else directives fuel versioned (handles ++ [(handle, expansion)])
    | .otherDirective =>
      let _ ← next
      directives fuel versioned handles
    | _ => pure handles

def isDirective : TokenKind → Bool
  | .versionDirective .. | .tagDirective .. | .otherDirective => true
  | _ => false

def skipDocumentEnds : Nat → Composing Unit
  | 0 => pure ()
  | fuel + 1 => do
    if ← sees [.documentEnd] then
      let _ ← next
      skipDocumentEnds fuel

/-- The opening of a document that is marked as one; the line it begins on, or none at the end of
the text. -/
def openDocument (fuel : Nat) : Composing (Option Nat) := do
  skipDocumentEnds fuel
  if ← sees [.streamEnd] then pure none
  else
    let first ← peek
    let handles ← directives fuel false []
    let missing := defaultHandles.filter fun h => !Keyed.has h.1 handles
    modify fun s => { s with handles := handles ++ missing }
    if ← sees [.documentStart] then
      let _ ← next
      pure (some first.first)
    else unexpected "'<document start>'"

def markedContent (fuel : Nat) : Composing Nat := do
  let t ← peek
  if isDirective t.kind || [TokenKind.documentStart, .documentEnd, .streamEnd].contains t.kind then
    empty t.first
  else node fuel true false

/-- The root of the one document of a text, if there is one. -/
def document (fuel : Nat) : Composing (Option Nat) := do
  let t ← peek
  let root ← if isDirective t.kind || t.kind == .documentStart || t.kind == .streamEnd then do
      match ← openDocument fuel with
      | none => pure none
      | some _ => some <$> markedContent fuel
    else some <$> node fuel true false
  match root with
  | none => pure none
  | some root =>
    let _ ← peek
    match ← openDocument fuel with
    | none => pure (some root)
    | some line => failAt line "expected a single document in the stream"

end Composing

/-- The nodes of a text's document and the number of its root; a text without a document has
none. -/
def Graph.read (s : String) : Reading (Graph × Option Nat) := do
  let stream := TokenStream.ofText s
  let fuel := 4 * (stream.tokens.length + 2)
  let (root, after) ← (Composing.document fuel).run
    ⟨stream.tokens, stream.failure, Composing.defaultHandles, [], .empty, 0⟩
  pure (after.graph, root)

end Runbook.Yaml
