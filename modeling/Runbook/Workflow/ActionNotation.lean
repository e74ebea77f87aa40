import Runbook.Number.Numeral
import Runbook.Keyed
import Runbook.Problem
import Runbook.Workflow.Action

/-!
The notation of actions. A keyword in any letter case opens each of the four kinds: `log` with an
optional level, `set` with a variable and its value, `wait` with a time, and `execute prompt` with a
quoted name, arguments and the variable for the result. Values may be quoted as a whole.
-/
namespace Runbook.Workflow

open Text Number

/-- A value without the quotes around it, if it stands in quotes. -/
def unquote (cs : List Char) : List Char :=
  let body := trim cs
  match body with
  | q :: rest =>
    if (q == '\x22' || q == '\x27') && !rest.isEmpty && rest.getLast? == some q then rest.dropLast
    else body
  | [] => body

/-- A keyword in any letter case, and at least one blank, at the front of a text; what follows. -/
def dropWord? (word : String) (cs : List Char) : Option (List Char) :=
  match dropKeyword? word.toList cs with
  | some (c :: rest) => if isBlank c then some (trimStart rest) else none
  | _ => none

def onOneLine (cs : List Char) : Bool := !cs.contains '\n'

def logLevels : List String := ["debug", "info", "warning", "warn", "error"]

/-- A level and the message after it; a level counts as one only if a message follows on one line.
-/
def readLeveled? (cs : List Char) : Option (String × List Char) :=
  logLevels.findSome? fun level =>
    match dropWord? level cs with
    | some message =>
      if !message.isEmpty && onOneLine message then
        some (lowered (String.ofList (cs.take level.length)), message)
      else none
    | none => none

def readLog? (cs : List Char) : Option Action := do
  let body ← dropWord? "log" cs
  match readLeveled? body with
  | some (level, message) =>
    let level := if level == "warn" then "warning" else level
    pure (.log (String.ofList (unquote message)) level)
  | none =>
    guard (!body.isEmpty && onOneLine body)
    pure (.log (String.ofList (unquote body)) "info")

def isVariableChar (c : Char) : Bool := isWord c || c == '.'

def readSet? (cs : List Char) : Option Action := do
  let body ← dropWord? "set" cs
  let first ← body.head?
  guard (isIdentStartAnyCase first)
  let name := first :: body.tail.takeWhile isVariableChar
  match trimStart (body.drop name.length) with
  | '=' :: rest =>
    let value := trimStart rest
    guard (onOneLine value)
    pure (.set (String.ofList name) (String.ofList (unquote value)))
  | _ => none

/-- Digits, and a point with more digits if digits follow it; what is left. -/
def takeAmount (cs : List Char) : List Char × List Char :=
  let whole := cs.takeWhile isDigit
  match cs.dropWhile isDigit with
  | '.' :: rest =>
    if !whole.isEmpty && (rest.head?.map isDigit).getD false then
      (whole ++ '.' :: rest.takeWhile isDigit, rest.dropWhile isDigit)
    else (whole, '.' :: rest)
  | rest => (whole, rest)

def timeUnits : List String :=
  ["ms", "millisecond", "milliseconds", "s", "second", "seconds", "m", "minute", "minutes"]

def isTimeUnit (cs : List Char) : Bool :=
  timeUnits.any fun unit => dropKeyword? unit.toList cs == some []

/-- An amount of time in seconds. -/
def inSeconds (amount : Binary64) (unit : List Char) : Binary64 :=
  let word := lower unit
  if "ms".toList.isPrefixOf word || "milli".toList.isPrefixOf word then
    amount.div (Binary64.ofInt 1000)
  else if "m".toList.isPrefixOf word then amount.mul (Binary64.ofInt 60)
  else amount

def readWait? (cs : List Char) : Option Action := do
  let body ← dropWord? "wait" cs
  let (amount, rest) := takeAmount body
  guard (!amount.isEmpty)
  let unit := trimStart rest
  guard (unit.isEmpty || isTimeUnit unit)
  let seconds ← readDecimal? amount
  pure (.wait (inSeconds seconds unit))

/-- The variable after an arrow that ends a text. -/
def readArrow? (cs : List Char) : Option (List Char) :=
  match trimStart cs with
  | '-' :: '>' :: rest =>
    match trimStart rest with
    | c :: more => if isIdentStartAnyCase c && more.all isWord then some (c :: more) else none
    | [] => none
  | _ => none

/-- The arguments up to the first arrow with a variable that ends the text, or all of it; they stand
on one line. -/
def splitArrow? (cs : List Char) : Option (List Char × Option (List Char)) :=
  match readArrow? cs with
  | some result => some ([], some result)
  | none =>
    match cs with
    | [] => some ([], none)
    | c :: rest =>
      if c = '\n' then none
      else (splitArrow? rest).map fun (arguments, result) => (c :: arguments, result)

/-- A key, an equals sign and a value, quoted or without blanks. -/
def takeArgument? (cs : List Char) : Option (String × String × List Char) := do
  let first ← cs.head?
  guard (isIdentStart first)
  let key := first :: cs.tail.takeWhile isWord
  match cs.drop key.length with
  | '=' :: rest =>
    let bare := rest.takeWhile fun c => !isBlank c
    let unquoted : Option (String × String × List Char) :=
      if bare.isEmpty then none
      else some (String.ofList key, String.ofList bare, rest.drop bare.length)
    match rest with
    | '\x22' :: inside =>
      let value := inside.takeWhile (· != '\x22')
      match inside.drop value.length with
      | _ :: after => pure (String.ofList key, String.ofList value, after)
      | [] => unquoted
    | _ => unquoted
  | _ => none

/-- The arguments at the front of a text, and what is left when there are no more. -/
def takeArguments :
    Nat → List Char → List (String × String) → List (String × String) × List Char
  | 0, cs, found => (found, cs)
  | fuel + 1, cs, found =>
    match takeArgument? (trimStart cs) with
    | some (key, value, rest) => takeArguments fuel rest (Keyed.set key value found)
    | none => (found, trimStart cs)

/-- A prompt's name, the text of its arguments and the variable after the arrow. -/
def readPrompt? (cs : List Char) : Option (String × List Char × Option (List Char)) := do
  let body ← dropWord? "execute" cs
  let body ← dropWord? "prompt" body
  match body with
  | '\x22' :: inside =>
    let name := inside.takeWhile (· != '\x22')
    guard (!name.isEmpty)
    match inside.drop name.length with
    | _ :: after =>
      let (arguments, result) ← splitArrow? after
      pure (String.ofList name, arguments, result)
    | [] => none
  | _ => none

def promptAction (line : Option Int) (name : String) (arguments : List Char)
    (result : Option (List Char)) : Except DocumentFault Action :=
  let text := trim arguments
  let (found, rest) := takeArguments (text.length + 1) text []
  if rest.isEmpty then
    .ok (.prompt name found ((result.map String.ofList).getD "result"))
  else .error ⟨.malformedArguments, line, some (String.ofList rest), none, none⟩

/-- Reads an action; the line is that of the document it stands in. -/
def Action.read (line : Option Int) (s : String) : Except DocumentFault Action :=
  let cs := trim s.toList
  match (readLog? cs).or ((readSet? cs).or (readWait? cs)) with
  | some action => .ok action
  | none =>
    match readPrompt? cs with
    | some (name, arguments, result) => promptAction line name arguments result
    | none => .error ⟨.unknownAction, line, some (String.ofList cs), none, none⟩

end Runbook.Workflow
