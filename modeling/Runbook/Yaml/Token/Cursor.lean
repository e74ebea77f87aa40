import Runbook.Yaml.Failure

/-!
A place in a text and what is left of it. Lines and columns are counted from zero; a byte order
mark has no width. Past the end of the text there is the character zero, which the text itself
cannot hold.
-/
namespace Runbook.Yaml

structure Cursor where
  rest : List Char
  index : Nat
  line : Nat
  column : Nat
  /-- More than there are characters in the whole text, so enough steps to read all of it. -/
  bound : Nat
  deriving Repr

/-- What is read past the end of the text. -/
def endMark : Char := '\x00'

def isBreak (c : Char) : Bool :=
  c == '\r' || c == '\n' || c == '\x85' || c == '\u2028' || c == '\u2029'

def endsLine (c : Char) : Bool := c == endMark || isBreak c

/-- A space or the end of the line. -/
def endsField (c : Char) : Bool := c == ' ' || endsLine c

/-- A space, a tab or the end of the line. -/
def endsWord (c : Char) : Bool := c == '\t' || endsField c

def isSpaceOrTab (c : Char) : Bool := c == ' ' || c == '\t'

/-- Characters of anchors, directives and tag handles. -/
def isNameChar (c : Char) : Bool :=
  Text.isAsciiLetter c || Text.isAsciiDigit c || c == '-' || c == '_'

namespace Cursor

def ofString (s : String) : Cursor := ⟨s.toList, 0, 0, 0, s.length + 1⟩

def ahead (c : Cursor) (n : Nat) : Char := c.rest.getD n endMark

def peek (c : Cursor) : Char := c.ahead 0

def next (c : Cursor) : Cursor :=
  match c.rest with
  | [] => c
  | x :: xs =>
    let ends := isBreak x && !(x == '\r' && xs.head? == some '\n')
    if ends then ⟨xs, c.index + 1, c.line + 1, 0, c.bound⟩
    else ⟨xs, c.index + 1, c.line, if x == '\ufeff' then c.column else c.column + 1, c.bound⟩

def skip : Nat → Cursor → Cursor
  | 0, c => c
  | n + 1, c => skip n c.next

def take (n : Nat) (c : Cursor) : List Char × Cursor := (c.rest.take n, c.skip n)

/-- The longest stretch of characters of a class, and the place after it. -/
def span (p : Char → Bool) (c : Cursor) : List Char × Cursor :=
  c.take (c.rest.takeWhile p).length

def dropSpaces (c : Cursor) : Cursor := (c.span (· == ' ')).2

/-- Past a comment, if there is one here, to the end of the line. -/
def dropComment (c : Cursor) : Cursor :=
  if c.peek == '#' then (c.span fun x => !isBreak x).2 else c

/-- Past a line break. It reads as a line feed unless it is one of the two separators of general
punctuation, which stand for themselves. -/
def takeBreak (c : Cursor) : List Char × Cursor :=
  match c.rest with
  | '\r' :: '\n' :: _ => (['\n'], c.skip 2)
  | x :: _ =>
    if x == '\u2028' || x == '\u2029' then ([x], c.next)
    else if isBreak x then (['\n'], c.next)
    else ([], c)
  | [] => ([], c)

/-- Whether a line of three hyphens or three full stops begins here. -/
def atDocumentMark (c : Cursor) : Bool :=
  (c.rest.take 3 == ['-', '-', '-'] || c.rest.take 3 == ['.', '.', '.']) && endsWord (c.ahead 3)

def fail {α : Type} (c : Cursor) (problem : String) : Reading α :=
  .error (.malformed problem (some c.line))

/-- To the next line, past spaces and a comment, or a failure if anything else is in the way. -/
def finishLine (c : Cursor) : Reading Cursor :=
  let c := c.dropSpaces.dropComment
  if endsLine c.peek then pure c.takeBreak.2
  else c.fail "expected a comment or a line break"

end Cursor

end Runbook.Yaml
