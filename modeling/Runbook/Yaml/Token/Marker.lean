import Runbook.Yaml.Token
import Runbook.Yaml.Token.Cursor
import Runbook.Json.Reader

/-!
Anchors, aliases, tags and directives: the tokens that are made of names. Each function starts
at the token's mark and gives the token with the place after it.
-/
namespace Runbook.Yaml

open Text

def takeName? (c : Cursor) : Option (String × Cursor) :=
  let (name, after) := c.span isNameChar
  if name.isEmpty then none else some (String.ofList name, after)

/-- The name of an anchor or an alias. -/
def takeAnchor (c : Cursor) : Reading (String × Cursor) :=
  match takeName? c.next with
  | none => c.next.fail "expected alphabetic or numeric character"
  | some (name, after) =>
    if endsWord after.peek || "?:,]\x7d%@\x60".toList.contains after.peek then pure (name, after)
    else after.fail "expected alphabetic or numeric character"

def isUriChar (c : Char) : Bool :=
  isAsciiLetter c || isAsciiDigit c || "-;/?:@&=+$,_.!~*\x27()[]%".toList.contains c

/-- Bytes written as a percent sign and two hexadecimal digits each. -/
def takeBytes : Nat → Cursor → Reading (List UInt8 × Cursor)
  | 0, c => pure ([], c)
  | fuel + 1, c =>
    if c.peek != '%' then pure ([], c)
    else match Json.hexValue? (c.ahead 1), Json.hexValue? (c.ahead 2) with
      | some high, some low => do
        let (more, after) ← takeBytes fuel (c.skip 3)
        pure (UInt8.ofNat (high * 16 + low) :: more, after)
      | _, _ => c.next.fail "expected URI escape sequence of 2 hexadecimal numbers"

/-- The characters of a tag's address, which may be none. -/
def takeUriChars : Nat → Cursor → Reading (List Char × Cursor)
  | 0, c => pure ([], c)
  | fuel + 1, c =>
    if c.peek == '%' then do
      let (bytes, after) ← takeBytes c.bound c
      match String.fromUTF8? ⟨bytes.toArray⟩ with
      | none => c.fail "expected UTF-8"
      | some s =>
        let (more, after) ← takeUriChars fuel after
        pure (s.toList ++ more, after)
    else if isUriChar c.peek then do
      let (more, after) ← takeUriChars fuel c.next
      pure (c.peek :: more, after)
    else pure ([], c)

def takeUri (c : Cursor) : Reading (String × Cursor) := do
  let (chars, after) ← takeUriChars c.bound c
  if chars.isEmpty then c.fail "expected URI"
  else pure (String.ofList chars, after)

/-- A tag handle: an exclamation mark alone, or a name between two. -/
def takeHandle (c : Cursor) : Reading (String × Cursor) :=
  if c.peek != '!' then c.fail "expected '!'"
  else if c.ahead 1 == ' ' then pure ("!", c.next)
  else
    let (name, after) := c.next.span isNameChar
    if after.peek == '!' then pure (String.ofList ('!' :: name ++ ['!']), after.next)
    else after.fail "expected '!'"

/-- The handle of a tag, if it has one, and its suffix. -/
def takeTagParts (c : Cursor) : Reading (Option String × String × Cursor) := do
  if c.ahead 1 == '<' then
    let (suffix, after) ← takeUri (c.skip 2)
    if after.peek == '>' then pure (none, suffix, after.next)
    else after.fail "expected '>'"
  else if endsWord (c.ahead 1) then pure (none, "!", c.next)
  else if ((c.rest.drop 1).takeWhile fun x => !endsField x).contains '!' then
    let (handle, after) ← takeHandle c
    let (suffix, after) ← takeUri after
    pure (some handle, suffix, after)
  else
    let (suffix, after) ← takeUri c.next
    pure (some "!", suffix, after)

def takeTag (c : Cursor) : Reading (TokenKind × Cursor) := do
  let (handle, suffix, after) ← takeTagParts c
  if endsField after.peek then pure (.tag handle suffix, after)
  else after.fail "expected ' '"

def takeNumber (c : Cursor) : Reading (Nat × Cursor) :=
  let (digits, after) := c.span isAsciiDigit
  if digits.isEmpty then c.fail "expected a digit"
  else if Number.digitLimit < digits.length then
    .error (.scalar (.tooManyDigits digits.length))
  else pure (Number.digitsValue 10 digits, after)

def takeVersion (c : Cursor) : Reading (TokenKind × Cursor) := do
  let (major, c) ← takeNumber c.dropSpaces
  if c.peek != '.' then c.fail "expected a digit or '.'"
  else
    let (minor, c) ← takeNumber c.next
    if endsField c.peek then pure (.versionDirective major minor, c)
    else c.fail "expected a digit or ' '"

def takeTagDirective (c : Cursor) : Reading (TokenKind × Cursor) := do
  let (handle, c) ← takeHandle c.dropSpaces
  if c.peek != ' ' then c.fail "expected ' '"
  else
    let (expansion, c) ← takeUri c.dropSpaces
    if endsField c.peek then pure (.tagDirective handle expansion, c)
    else c.fail "expected ' '"

/-- A directive; the place is at the end of its line. -/
def takeDirective (c : Cursor) : Reading (TokenKind × Cursor) :=
  match takeName? c.next with
  | none => c.next.fail "expected alphabetic or numeric character"
  | some (name, after) =>
    if !endsField after.peek then after.fail "expected alphabetic or numeric character"
    else if name == "YAML" then takeVersion after
    else if name == "TAG" then takeTagDirective after
    else pure (.otherDirective, (after.span fun x => !isBreak x).2)

end Runbook.Yaml
