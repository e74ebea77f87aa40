import Runbook.Yaml.Token.Cursor
import Runbook.Json.Reader

/-!
Scalars in their four notations: plain, quoted with one or two quotes, and block scalars. Where
a line ends inside a scalar that is not a literal block, a single line feed reads as a space and
of several the first is dropped.
-/
namespace Runbook.Yaml

open Text

/-- Line breaks that follow each other, with blanks before each of them. -/
def takeFoldedBreaks (quoted : Bool) : Nat → Cursor → Reading (List Char × Cursor)
  | 0, c => pure ([], c)
  | fuel + 1, c =>
    if quoted && c.atDocumentMark then c.fail "found unexpected document separator"
    else
      let c := (c.span isSpaceOrTab).2
      if isBreak c.peek then do
        let (first, c) := c.takeBreak
        let (more, c) ← takeFoldedBreaks quoted fuel c
        pure (first ++ more, c)
      else pure ([], c)

/-- What the first break and those after it read as. -/
def folded (first breaks : List Char) : List Char :=
  if first != ['\n'] then first ++ breaks else if breaks.isEmpty then [' '] else breaks

/-- The characters that a letter after a backslash stands for. -/
def letterEscape? (c : Char) : Option Char :=
  match c with
  | '0' => some '\x00'
  | 'a' => some '\x07'
  | 'b' => some '\x08'
  | 't' => some '\t'
  | '\t' => some '\t'
  | 'n' => some '\n'
  | 'v' => some '\x0b'
  | 'f' => some '\x0c'
  | 'r' => some '\r'
  | 'e' => some '\x1b'
  | ' ' => some ' '
  | '"' => some '"'
  | '\\' => some '\\'
  | '/' => some '/'
  | 'N' => some '\x85'
  | '_' => some '\xa0'
  | 'L' => some '\u2028'
  | 'P' => some '\u2029'
  | _ => none

/-- How many hexadecimal digits follow a letter after a backslash. -/
def codeEscape? (c : Char) : Option Nat :=
  match c with
  | 'x' => some 2
  | 'u' => some 4
  | 'U' => some 8
  | _ => none

def hexNumber (cs : List Char) : Nat :=
  cs.foldl (fun n c => n * 16 + (Json.hexValue? c).getD 0) 0

/-- The character of a code point. -/
def pointChar (n : Nat) : Reading Char :=
  if 0x110000 ≤ n then .error (.scalar (.codePoint n)) else pure (codeChar n)

/-- An escape, of which the backslash has been passed. -/
def takeEscape (c : Cursor) : Reading (List Char × Cursor) :=
  match letterEscape? c.peek, codeEscape? c.peek with
  | some x, _ => pure ([x], c.next)
  | none, some width => do
    let (digits, after) := c.next.take width
    if digits.length = width ∧ digits.all fun d => (Json.hexValue? d).isSome then
      pure ([← pointChar (hexNumber digits)], after)
    else c.next.fail "expected escape sequence of hexadecimal numbers"
  | none, none =>
    if isBreak c.peek then takeFoldedBreaks true c.bound c.takeBreak.2
    else c.fail "found unknown escape character"

/-- The inside of a quoted scalar and the place after its closing quote. -/
def takeQuoted (double : Bool) : Nat → Cursor → Reading (List Char × Cursor)
  | 0, c => c.fail "found unexpected end of stream"
  | fuel + 1, c =>
    let quote := if double then '"' else '\''
    let x := c.peek
    if isSpaceOrTab x || endsLine x then do
      let (blanks, c) := c.span isSpaceOrTab
      if c.rest.isEmpty then c.fail "found unexpected end of stream"
      else if isBreak c.peek then
        let (first, c) := c.takeBreak
        let (breaks, c) ← takeFoldedBreaks true c.bound c
        let (more, c) ← takeQuoted double fuel c
        pure (folded first breaks ++ more, c)
      else
        let (more, c) ← takeQuoted double fuel c
        pure (blanks ++ more, c)
    else if x == quote then
      if !double && c.ahead 1 == quote then do
        let (more, c) ← takeQuoted double fuel (c.skip 2)
        pure (quote :: more, c)
      else pure ([], c.next)
    else if double && x == '\\' then do
      let (escaped, c) ← takeEscape c.next
      let (more, c) ← takeQuoted double fuel c
      pure (escaped ++ more, c)
    else do
      let (more, c) ← takeQuoted double fuel c.next
      pure (x :: more, c)

/-- How far a stretch of a plain scalar goes on its line. A colon ends it if a blank follows, and
inside brackets so do the characters that have a meaning there. -/
def plainLength (inFlow : Bool) : List Char → Nat
  | [] => 0
  | x :: xs =>
    let after := xs.headD endMark
    if endsWord x then 0
    else if x == ':' && (endsWord after || (inFlow && ",[]\x7b\x7d".toList.contains after)) then 0
    else if inFlow && ",?[]\x7b\x7d".toList.contains x then 0
    else plainLength inFlow xs + 1

/-- Breaks and spaces between two lines of a plain scalar; none where a document mark follows. -/
def takePlainBreaks : Nat → Cursor → Option (List Char) × Cursor
  | 0, c => (some [], c)
  | fuel + 1, c =>
    let c := c.dropSpaces
    if isBreak c.peek then
      let (first, c) := c.takeBreak
      if c.atDocumentMark then (none, c)
      else
        let (more, c) := takePlainBreaks fuel c
        (more.map (first ++ ·), c)
    else (some [], c)

/-- What stands between two stretches of a plain scalar: spaces on one line, or a line break and
what follows it. Also whether a line has ended. -/
def takePlainGap (c : Cursor) : List Char × Bool × Cursor :=
  let (spaces, c) := c.span (· == ' ')
  if isBreak c.peek then
    let (first, c) := c.takeBreak
    if c.atDocumentMark then ([], true, c)
    else
      match takePlainBreaks c.bound c with
      | (some breaks, c) => (folded first breaks, true, c)
      | (none, c) => ([], true, c)
  else (spaces, false, c)

structure PlainScalar where
  text : List Char
  /-- Whether the scalar was left at the beginning of a later line. -/
  broken : Bool
  /-- The line the text ends on. -/
  last : Nat
  cursor : Cursor

/-- A plain scalar from here on, after `gap`, while its lines are indented far enough. -/
def takePlain (inFlow : Bool) (indent : Int) : Nat → List Char → PlainScalar → PlainScalar
  | 0, _, s => s
  | fuel + 1, gap, s =>
    let c := s.cursor
    if c.peek == '#' then s
    else
      let length := plainLength inFlow c.rest
      if length = 0 then s
      else
        let (stretch, c) := c.take length
        let last := c.line
        let (next, broken, c) := takePlainGap c
        let s := ⟨s.text ++ gap ++ stretch, broken, last, c⟩
        if next.isEmpty || c.peek == '#' || (!inFlow && (c.column : Int) < indent) then s
        else takePlain inFlow indent fuel next s

/-- Whether the breaks at the end of a block scalar are dropped, cut to one, or kept. -/
inductive Chomping where
  | strip
  | clip
  | keep
  deriving DecidableEq

def chomping? (c : Char) : Option Chomping :=
  if c == '+' then some .keep else if c == '-' then some .strip else none

/-- The signs after a block scalar's mark, in either order. -/
def takeBlockHeader (c : Cursor) : Reading (Chomping × Option Nat × Cursor) := do
  let (mark, c) := match chomping? c.peek with
    | some m => (some m, c.next)
    | none => (none, c)
  let (width, c) ←
    if isAsciiDigit c.peek then
      if c.peek == '0' then c.fail "expected indentation indicator in the range 1-9, but found 0"
      else pure (some (c.peek.toNat - 48), c.next)
    else pure (none, c)
  let (mark, c) := match mark, width, chomping? c.peek with
    | none, some _, some m => (some m, c.next)
    | _, _, _ => (mark, c)
  if endsField c.peek then pure (mark.getD .clip, width, c)
  else c.fail "expected chomping or indentation indicators"

/-- Blank lines at the head of a block scalar and the widest indentation among them and the first
line that is not blank. -/
def takeBlankLines : Nat → Cursor → Nat → List Char × Nat × Cursor
  | 0, c, widest => ([], widest, c)
  | fuel + 1, c, widest =>
    if isBreak c.peek then
      let (first, c) := c.takeBreak
      let (more, widest, c) := takeBlankLines fuel c widest
      (first ++ more, widest, c)
    else if c.peek == ' ' then takeBlankLines fuel c.next (max widest (c.column + 1))
    else ([], widest, c)

/-- Past at most `indent` columns of spaces. -/
def dropIndent (indent : Nat) (c : Cursor) : Cursor :=
  c.skip (min (indent - c.column) (c.rest.takeWhile (· == ' ')).length)

/-- Blank lines inside a block scalar. -/
def takeBlockBreaks (indent : Nat) : Nat → Cursor → List Char × Cursor
  | 0, c => ([], c)
  | fuel + 1, c =>
    let c := dropIndent indent c
    if isBreak c.peek then
      let (first, c) := c.takeBreak
      let (more, c) := takeBlockBreaks indent fuel c
      (first ++ more, c)
    else ([], c)

/-- The lines of a block scalar, of which `breaks` stand before the next one. -/
def takeBlockLines (fold : Bool) (chomping : Chomping) (indent : Nat) :
    Nat → List Char → List Char → Cursor → List Char × Cursor
  | 0, _, _, c => ([], c)
  | fuel + 1, ending, breaks, c =>
    let tail := match chomping with
      | .strip => []
      | .clip => ending
      | .keep => ending ++ breaks
    if c.column = indent && !c.rest.isEmpty then
      let flush := !isSpaceOrTab c.peek
      let (line, c) := c.span fun x => !isBreak x
      let (ending, c) := c.takeBreak
      let (next, c) := takeBlockBreaks indent c.bound c
      if c.column = indent && !c.rest.isEmpty then
        let joint :=
          if fold && ending == ['\n'] && flush && !isSpaceOrTab c.peek then
            if next.isEmpty then [' '] else []
          else ending
        let (more, c) := takeBlockLines fold chomping indent fuel ending next c
        (breaks ++ line ++ joint ++ more, c)
      else
        let (more, c) := takeBlockLines fold chomping indent fuel ending next c
        (breaks ++ line ++ more, c)
    else (tail, c)

/-- A block scalar from its mark on. -/
def takeBlock (fold : Bool) (parentIndent : Int) (c : Cursor) : Reading (List Char × Cursor) := do
  let (chomping, width, c) ← takeBlockHeader c.next
  let c ← c.finishLine
  let least := max 1 (parentIndent + 1).toNat
  let fuel := c.bound
  let (breaks, indent, c) := match width with
    | none =>
      let (breaks, widest, c) := takeBlankLines fuel c 0
      (breaks, max least widest, c)
    | some n =>
      let indent := least + n - 1
      let (breaks, c) := takeBlockBreaks indent fuel c
      (breaks, indent, c)
  pure (takeBlockLines fold chomping indent fuel [] breaks c)

end Runbook.Yaml
