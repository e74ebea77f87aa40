import Runbook.Yaml.Token.Marker
import Runbook.Yaml.Token.Scalar

/-!
From text to tokens. A token that may turn out to be the key of a mapping is held back until the
colon that makes it one has been seen or can no longer come: a key stands on one line and within
a thousand characters. So when a text goes wrong, the tokens before a held one can be told and
the others cannot.
-/
namespace Runbook.Yaml

/-- Where a key may begin. -/
structure KeySpot where
  /-- The number of the token it begins with. -/
  token : Nat
  /-- Whether nothing but a key can stand there. -/
  required : Bool
  index : Nat
  line : Nat
  column : Nat
  deriving Repr

structure Lexer where
  cursor : Cursor
  /-- The tokens that can be told for certain, the last one first, and how many they are. -/
  told : List Token
  count : Nat
  /-- The tokens after them, which are held back. -/
  held : Array Token
  /-- How many brackets and braces are open. -/
  depth : Int
  indent : Int
  indents : List Int
  keyAllowed : Bool
  /-- The possible key of each bracket depth. -/
  spots : List (Int × KeySpot)
  ended : Bool
  deriving Repr

namespace Lexer

def start (s : String) : Lexer :=
  ⟨Cursor.ofString s, [], 0, #[], 0, -1, [], true, [], false⟩

def fail {α : Type} (l : Lexer) (problem : String) : Reading α := l.cursor.fail problem

def inFlow (l : Lexer) : Bool := l.depth != 0

def push (l : Lexer) (kind : TokenKind) : Lexer :=
  { l with held := l.held.push ⟨kind, l.cursor.line, l.cursor.line⟩ }

/-- Adds a token that goes from here to another place, and moves there. -/
def pushTo (l : Lexer) (kind : TokenKind) (after : Cursor) : Lexer :=
  { l with held := l.held.push ⟨kind, l.cursor.line, after.line⟩, cursor := after }

/-- The number of the next token. -/
def size (l : Lexer) : Nat := l.count + l.held.size

/-- Adds a token in front of the token with a number, which is held back. -/
def insertAt (l : Lexer) (number : Nat) (token : Token) : Lexer :=
  let n := number - l.count
  { l with held := l.held.take n |>.push token |>.append (l.held.drop n) }

/-- Forgets the possible keys that can no longer become one. -/
def dropStale (l : Lexer) : Reading Lexer :=
  let isStale := fun (s : KeySpot) => s.line != l.cursor.line || 1024 < l.cursor.index - s.index
  if l.spots.any fun s => isStale s.2 && s.2.required then
    l.fail "could not find expected ':'"
  else pure { l with spots := l.spots.filter fun s => !isStale s.2 }

/-- Forgets the possible key of the present depth. -/
def dropSpot (l : Lexer) : Reading Lexer :=
  if l.spots.any fun s => s.1 == l.depth && s.2.required then
    l.fail "could not find expected ':'"
  else pure { l with spots := l.spots.filter fun s => s.1 != l.depth }

/-- Marks this place as the possible beginning of a key. -/
def markSpot (l : Lexer) : Reading Lexer :=
  let required := !l.inFlow && l.indent == (l.cursor.column : Int)
  if l.keyAllowed then do
    let l ← l.dropSpot
    let spot : KeySpot :=
      ⟨l.size, required, l.cursor.index, l.cursor.line, l.cursor.column⟩
    pure { l with spots := (l.depth, spot) :: l.spots }
  else pure l

/-- Ends the block collections that are indented more than a column. -/
def unwind (column : Int) : Nat → Lexer → Lexer
  | 0, l => l
  | fuel + 1, l =>
    if l.inFlow || l.indent ≤ column then l
    else
      let l := l.push .blockEnd
      unwind column fuel { l with indent := l.indents.headD (-1), indents := l.indents.tail }

def unwindTo (l : Lexer) (column : Int) : Lexer := unwind column (l.indents.length + 1) l

/-- Opens a block collection in a column, unless one is open there. -/
def deepen (l : Lexer) (column : Nat) : Option Lexer :=
  if l.indent < (column : Int) then
    some { l with indents := l.indent :: l.indents, indent := column }
  else none

/-- Past spaces, comments and line breaks. Outside brackets a new line may begin with a key. -/
def toNext : Nat → Lexer → Lexer
  | 0, l => l
  | fuel + 1, l =>
    let c := l.cursor.dropSpaces.dropComment
    if isBreak c.peek then
      toNext fuel { l with cursor := c.takeBreak.2, keyAllowed := l.keyAllowed || !l.inFlow }
    else { l with cursor := c }

def skipBlank (l : Lexer) : Lexer :=
  let c := l.cursor
  let c := if c.index == 0 && c.peek == '\ufeff' then c.next else c
  toNext c.bound { l with cursor := c }

def fetchEnd (l : Lexer) : Reading Lexer := do
  let l ← (l.unwindTo (-1)).dropSpot
  pure { (l.push .streamEnd) with keyAllowed := false, spots := [], ended := true }

def fetchDirective (l : Lexer) : Reading Lexer := do
  let l ← (l.unwindTo (-1)).dropSpot
  let (kind, after) ← takeDirective l.cursor
  let l := l.pushTo kind after
  let after ← after.finishLine
  pure { l with cursor := after, keyAllowed := false }

def fetchDocumentMark (l : Lexer) (kind : TokenKind) : Reading Lexer := do
  let l ← (l.unwindTo (-1)).dropSpot
  pure { (l.pushTo kind (l.cursor.skip 3)) with keyAllowed := false }

def fetchOpening (l : Lexer) (kind : TokenKind) : Reading Lexer := do
  let l ← l.markSpot
  pure { (l.pushTo kind l.cursor.next) with depth := l.depth + 1, keyAllowed := true }

def fetchClosing (l : Lexer) (kind : TokenKind) : Reading Lexer := do
  let l ← l.dropSpot
  pure { (l.pushTo kind l.cursor.next) with depth := l.depth - 1, keyAllowed := false }

def fetchComma (l : Lexer) : Reading Lexer := do
  let l ← l.dropSpot
  pure { (l.pushTo .flowEntry l.cursor.next) with keyAllowed := true }

/-- Opens a block collection here for a mark that needs one. -/
def openBlock (l : Lexer) (kind : TokenKind) (problem : String) : Reading Lexer :=
  if l.inFlow then pure l
  else if !l.keyAllowed then l.fail problem
  else pure (match l.deepen l.cursor.column with
    | some deeper => deeper.push kind
    | none => l)

def fetchEntry (l : Lexer) : Reading Lexer := do
  let l ← l.openBlock .blockSequence "sequence entries are not allowed here"
  let l ← l.dropSpot
  pure { (l.pushTo .entry l.cursor.next) with keyAllowed := true }

def fetchKey (l : Lexer) : Reading Lexer := do
  let l ← l.openBlock .blockMapping "mapping keys are not allowed here"
  let l ← l.dropSpot
  pure { (l.pushTo .key l.cursor.next) with keyAllowed := !l.inFlow }

/-- A colon turns the possible key before it into a key. -/
def fetchValue (l : Lexer) : Reading Lexer :=
  match l.spots.find? fun s => s.1 == l.depth with
  | some (_, spot) =>
    let l := { l with spots := l.spots.filter fun s => s.1 != l.depth }
    let l := l.insertAt spot.token ⟨.key, spot.line, spot.line⟩
    let l := if l.inFlow then l
      else match l.deepen spot.column with
        | some deeper => deeper.insertAt spot.token ⟨.blockMapping, spot.line, spot.line⟩
        | none => l
    pure { (l.pushTo .value l.cursor.next) with keyAllowed := false }
  | none => do
    let l ← l.openBlock .blockMapping "mapping values are not allowed here"
    let l ← l.dropSpot
    pure { (l.pushTo .value l.cursor.next) with keyAllowed := !l.inFlow }

def fetchAnchor (l : Lexer) (kind : String → TokenKind) : Reading Lexer := do
  let l ← l.markSpot
  let (name, after) ← takeAnchor l.cursor
  pure { (l.pushTo (kind name) after) with keyAllowed := false }

def fetchTag (l : Lexer) : Reading Lexer := do
  let l ← l.markSpot
  let (kind, after) ← takeTag l.cursor
  pure { (l.pushTo kind after) with keyAllowed := false }

def fetchBlockScalar (l : Lexer) (fold : Bool) : Reading Lexer := do
  let l ← l.dropSpot
  let (text, after) ← takeBlock fold l.indent l.cursor
  pure { (l.pushTo (.scalar (String.ofList text) false) after) with keyAllowed := true }

def fetchQuoted (l : Lexer) (double : Bool) : Reading Lexer := do
  let l ← l.markSpot
  let (text, after) ← takeQuoted double l.cursor.bound l.cursor.next
  pure { (l.pushTo (.scalar (String.ofList text) false) after) with keyAllowed := false }

def fetchPlain (l : Lexer) : Reading Lexer := do
  let l ← l.markSpot
  let c := l.cursor
  let s := takePlain l.inFlow (l.indent + 1) c.bound [] ⟨[], false, c.line, c⟩
  let token : Token := ⟨.scalar (String.ofList s.text) true, c.line, s.last⟩
  pure { l with held := l.held.push token, cursor := s.cursor, keyAllowed := s.broken }

/-- Whether a plain scalar may begin with a character before another. -/
def beginsPlain (inFlow : Bool) (c after : Char) : Bool :=
  !(endsWord c || "-?:,[]\x7b\x7d#&*!|>\x27\x22%@\x60".toList.contains c) ||
    (!endsWord after && (c == '-' || (!inFlow && (c == '?' || c == ':'))))

/-- The next token, or several where block collections end or begin. -/
def fetch (l : Lexer) : Reading Lexer := do
  let l ← l.skipBlank.dropStale
  let l := l.unwindTo l.cursor.column
  let c := l.cursor.peek
  let after := l.cursor.ahead 1
  let flow := l.inFlow
  let atMark := l.cursor.column == 0 && l.cursor.atDocumentMark
  if l.cursor.rest.isEmpty then l.fetchEnd
  else if c == '%' && l.cursor.column == 0 then l.fetchDirective
  else if atMark then l.fetchDocumentMark (if c == '-' then .documentStart else .documentEnd)
  else if c == '[' then l.fetchOpening .flowSequenceStart
  else if c == '{' then l.fetchOpening .flowMappingStart
  else if c == ']' then l.fetchClosing .flowSequenceEnd
  else if c == '}' then l.fetchClosing .flowMappingEnd
  else if c == ',' then l.fetchComma
  else if c == '-' && endsWord after then l.fetchEntry
  else if c == '?' && (flow || endsWord after) then l.fetchKey
  else if c == ':' && (flow || endsWord after) then l.fetchValue
  else if c == '*' then l.fetchAnchor .alias
  else if c == '&' then l.fetchAnchor .anchor
  else if c == '!' then l.fetchTag
  else if c == '|' && !flow then l.fetchBlockScalar false
  else if c == '>' && !flow then l.fetchBlockScalar true
  else if c == '\'' then l.fetchQuoted false
  else if c == '"' then l.fetchQuoted true
  else if beginsPlain flow c after then l.fetchPlain
  else l.fail "found character that cannot start any token"

/-- Tells the held tokens in front of the one with a number. -/
def tell (l : Lexer) (number : Nat) : Lexer :=
  let n := min (number - l.count) l.held.size
  { l with
    told := (l.held.take n).foldl (fun told t => t :: told) l.told
    count := l.count + n
    held := l.held.drop n }

/-- Tells the tokens in front of the first one that a key may begin with. -/
def release (l : Lexer) : Reading Lexer := do
  if l.ended then pure (l.tell l.size)
  else
    let l ← if l.held.isEmpty then pure l else l.dropStale
    pure (l.tell (l.spots.foldl (fun n s => min n s.2.token) l.size))

def run : Nat → Lexer → TokenStream
  | 0, l => ⟨l.told.reverse, none⟩
  | fuel + 1, l =>
    if l.ended then ⟨l.told.reverse, none⟩
    else match l.fetch >>= release with
      | .error e => ⟨l.told.reverse, some e⟩
      | .ok released => run fuel released

end Lexer

/-- Characters that a YAML text may hold. -/
def isYamlChar (c : Char) : Bool :=
  let n := c.toNat
  n == 9 || n == 10 || n == 13 || (32 ≤ n && n ≤ 126) || n == 0x85 ||
    (0xa0 ≤ n && n ≤ 0xd7ff) || (0xe000 ≤ n && n ≤ 0xfffd) || (0x10000 ≤ n && !Text.isHalf c)

def TokenStream.ofText (s : String) : TokenStream :=
  if s.toList.all isYamlChar then Lexer.run (s.length + 2) (Lexer.start s)
  else ⟨[], some (.malformed "special characters are not allowed" none)⟩

end Runbook.Yaml
