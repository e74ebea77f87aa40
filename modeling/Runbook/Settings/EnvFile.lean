import Runbook.Keyed
import Runbook.Text.Blank

/-!
Files of environment variables. A statement is a name, and after an equals sign a value: one in
quotes, with escapes, or the rest of the line up to a comment. A statement that cannot be read
is skipped to the end of its line. Afterwards references to variables are replaced in the
values.
-/
namespace Runbook.EnvFile

open Text

/-- Blank space inside a line. -/
def isGap (c : Char) : Bool := isBlank c && c != '\n' && c != '\r'

def isEnd (c : Char) : Bool := c == '\n' || c == '\r'

def skipGap (cs : List Char) : List Char := cs.dropWhile isGap

def skipLine (cs : List Char) : List Char :=
  match cs.dropWhile (!isEnd ·) with
  | [] => []
  | _ :: rest => rest

/-- The word that may stand before a name. -/
def skipExport (cs : List Char) : List Char :=
  let word := "export".toList
  let rest := cs.drop word.length
  if word.isPrefixOf cs && (rest.head?.map isGap).getD false then skipGap rest else cs

/-- The text up to the first quote that has no backslash in front of it, and what follows that
quote. -/
def takePlainQuoted? (quote : Char) : List Char → Option (List Char × List Char)
  | [] => none
  | '\\' :: c :: cs =>
    if c = quote then (takePlainQuoted? quote cs).map fun (s, rest) => ('\\' :: c :: s, rest)
    else (takePlainQuoted? quote (c :: cs)).map fun (s, rest) => ('\\' :: s, rest)
  | c :: cs =>
    if c = quote then some ([], cs)
    else (takePlainQuoted? quote cs).map fun (s, rest) => (c :: s, rest)

/-- The text up to the last quote, and what follows that quote. -/
def takeLastQuoted? (quote : Char) (cs : List Char) : Option (List Char × List Char) :=
  if cs.contains quote then
    let after := (cs.reverse.takeWhile (· != quote)).reverse
    some (cs.take (cs.length - after.length - 1), after)
  else none

/-- A quoted value after its opening quote. A quote behind a backslash ends it only if no other
does. -/
def takeQuoted? (quote : Char) (cs : List Char) : Option (List Char × List Char) :=
  (takePlainQuoted? quote cs).or (takeLastQuoted? quote cs)

/-- What a letter behind a backslash stands for in double quotes. -/
def control? (c : Char) : Option Char :=
  match c with
  | 'a' => some '\x07'
  | 'b' => some '\x08'
  | 'f' => some '\x0c'
  | 'n' => some '\n'
  | 'r' => some '\r'
  | 't' => some '\t'
  | 'v' => some '\x0b'
  | _ => none

def escape? (double : Bool) (c : Char) : Option Char :=
  if c == '\\' || c == '\'' || (double && c == '"') then some c
  else if double then control? c
  else none

def resolveEscapes (double : Bool) : List Char → List Char
  | '\\' :: c :: cs =>
    match escape? double c with
    | some d => d :: resolveEscapes double cs
    | none => '\\' :: resolveEscapes double (c :: cs)
  | c :: cs => c :: resolveEscapes double cs
  | [] => []

/-- A value without the comment that follows blank space. -/
def dropComment : List Char → List Char
  | [] => []
  | c :: cs =>
    let after := cs.dropWhile isBlank
    if isBlank c && after.head? == some '#' then [] else c :: dropComment cs

def takeValue? (cs : List Char) : Option (List Char × List Char) :=
  match cs with
  | '\'' :: rest => (takeQuoted? '\'' rest).map fun (s, after) => (resolveEscapes false s, after)
  | '"' :: rest => (takeQuoted? '"' rest).map fun (s, after) => (resolveEscapes true s, after)
  | cs =>
    some (trimEnd (dropComment (cs.takeWhile (!isEnd ·))), cs.dropWhile (!isEnd ·))

/-- The name of a statement; a comment has none. What is left is given also where no name can be
read. -/
def takeName (cs : List Char) : Except (List Char) (Option (List Char) × List Char) :=
  match cs with
  | '#' :: _ => .ok (none, cs)
  | '\'' :: rest =>
    let name := rest.takeWhile (· != '\'')
    match rest.dropWhile (· != '\'') with
    | _ :: after => if name.isEmpty then .error cs else .ok (some name, after)
    | [] => .error cs
  | cs =>
    let isNameChar := fun c => c != '=' && c != '#' && !isBlank c
    let name := cs.takeWhile isNameChar
    if name.isEmpty then .error cs else .ok (some name, cs.dropWhile isNameChar)

/-- What is left after the end of a statement: perhaps a comment, and a line break. -/
def finish (cs : List Char) : Except (List Char) (List Char) :=
  let gone := skipGap cs
  let cs := if gone.head? == some '#' then gone.dropWhile (!isEnd ·) else gone
  match cs with
  | [] => .ok []
  | '\r' :: '\n' :: rest => .ok rest
  | c :: rest => if isEnd c then .ok rest else .error cs

abbrev Statement := Option (List Char) × Option (List Char)

/-- One statement that begins with a character that is not blank. -/
def takeStatement (cs : List Char) : Except (List Char) (Statement × List Char) := do
  let (name, afterName) ← takeName (skipExport cs)
  match skipGap afterName with
  | '=' :: rest =>
    match takeValue? (skipGap rest) with
    | none => .error (skipGap rest)
    | some (value, afterValue) => do
      let rest ← finish afterValue
      pure ((name, some value), rest)
  | rest => do
    let rest ← finish rest
    pure ((name, none), rest)

/-- The statements that have a name. -/
def statements : Nat → List Char → List (String × Option String)
  | 0, _ => []
  | fuel + 1, cs =>
    match cs.dropWhile isBlank with
    | [] => []
    | body =>
      match takeStatement body with
      | .error rest => statements fuel (skipLine rest)
      | .ok ((none, _), rest) => statements fuel rest
      | .ok ((some name, value), rest) =>
        (String.ofList name, value.map String.ofList) :: statements fuel rest

/-- A reference at the front of a text, after its dollar sign: a name and what stands for a variable
that is not set. -/
def takeReference? (cs : List Char) : Option (String × String × List Char) :=
  match cs with
  | '{' :: body =>
    let name := body.takeWhile fun c => c != '}' && c != ':'
    match body.drop name.length with
    | '}' :: rest => some (String.ofList name, "", rest)
    | ':' :: '-' :: more =>
      let default := more.takeWhile (· != '}')
      match more.drop default.length with
      | _ :: rest => some (String.ofList name, String.ofList default, rest)
      | [] => none
    | _ => none
  | _ => none

def expand (lookup : String → Option (Option String)) : Nat → List Char → List Char
  | 0, cs => cs
  | _, [] => []
  | fuel + 1, c :: cs =>
    if c = '$' then
      match takeReference? cs with
      | some (name, default, rest) =>
        ((lookup name).getD (some default)).getD "" |>.toList |> (· ++ expand lookup fuel rest)
      | none => c :: expand lookup fuel cs
    else c :: expand lookup fuel cs

/-- Replaces references, each by what was set earlier in the file or else in the environment. -/
def expandAll (environment : List (String × String)) :
    List (String × Option String) → List (String × Option String) →
      List (String × Option String)
  | done, [] => done
  | done, (name, value) :: rest =>
    let lookup := fun n => (Keyed.get? n done).or ((Keyed.get? n environment).map some)
    let value := value.map fun s => String.ofList (expand lookup (s.length + 1) s.toList)
    expandAll environment (Keyed.set name value done) rest

/-- The variables that the text of a file sets. One that is only named has no value. -/
def read (environment : List (String × String)) (s : String) : List (String × Option String) :=
  expandAll environment [] (statements (s.length + 1) s.toList)

end Runbook.EnvFile
