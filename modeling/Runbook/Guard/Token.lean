import Runbook.Text.Blank
import Runbook.Text.Digit
import Runbook.Text.LetterCase

/-!
Tokens of guards: numbers, quoted text, signs and names. The words `and`, `or` and `not` in any
letter case are signs. Blanks may stand in front of every token. A text that goes wrong is
reported with the number of characters before the last token that could be read, blanks at its
front not counted.
-/
namespace Runbook.Guard

open Text

inductive Comparison where
  | equal
  | unequal
  | atMost
  | atLeast
  | less
  | greater
  deriving DecidableEq, Repr

def Comparison.sign : Comparison → String
  | .equal => "=="
  | .unequal => "!="
  | .atMost => "<="
  | .atLeast => ">="
  | .less => "<"
  | .greater => ">"

inductive Sign where
  | comparison (c : Comparison)
  | both
  | either
  | negation
  | opening
  | closing
  deriving DecidableEq, Repr

def Sign.text : Sign → String
  | .comparison c => c.sign
  | .both => "&&"
  | .either => "||"
  | .negation => "!"
  | .opening => "("
  | .closing => ")"

inductive Token where
  /-- A number as it is written. -/
  | number (digits : List Char)
  /-- What stands between the quotes, escapes not resolved. -/
  | quotation (quote : Char) (inside : List Char)
  | sign (s : Sign)
  | name (s : String)
  deriving DecidableEq, Repr

def Token.text : Token → String
  | .number digits => String.ofList digits
  | .quotation quote inside => String.ofList (quote :: inside ++ [quote])
  | .sign s => s.text
  | .name s => s

/-- Digits, and a point with more digits if digits follow it. -/
def takeUnsigned? (cs : List Char) : Option (List Char × List Char) :=
  let whole := cs.takeWhile isDigit
  let rest := cs.dropWhile isDigit
  if whole.isEmpty then none
  else
    match rest with
    | '.' :: c :: more =>
      if isDigit c then
        some (whole ++ '.' :: c :: more.takeWhile isDigit, more.dropWhile isDigit)
      else some (whole, rest)
    | _ => some (whole, rest)

def takeNumber? (cs : List Char) : Option (Token × List Char) :=
  match cs with
  | '-' :: rest => (takeUnsigned? rest).map fun (digits, after) => (.number ('-' :: digits), after)
  | rest => (takeUnsigned? rest).map fun (digits, after) => (.number digits, after)

/-- The inside of a quotation and what follows its closing quote. A backslash takes the character
after it along, which may not be a line feed. -/
def takeInside? (quote : Char) : List Char → Option (List Char × List Char)
  | [] => none
  | '\\' :: [] => none
  | '\\' :: c :: cs =>
    if c = '\n' then none
    else (takeInside? quote cs).map fun (inside, rest) => ('\\' :: c :: inside, rest)
  | c :: cs =>
    if c = quote then some ([], cs)
    else (takeInside? quote cs).map fun (inside, rest) => (c :: inside, rest)

def takeQuotation? (cs : List Char) : Option (Token × List Char) :=
  match cs with
  | q :: rest =>
    if q = '\x22' ∨ q = '\x27' then
      (takeInside? q rest).map fun (inside, after) => (.quotation q inside, after)
    else none
  | [] => none

def takeSign? (cs : List Char) : Option (Token × List Char) :=
  match cs with
  | '=' :: '=' :: rest => some (.sign (.comparison .equal), rest)
  | '!' :: '=' :: rest => some (.sign (.comparison .unequal), rest)
  | '<' :: '=' :: rest => some (.sign (.comparison .atMost), rest)
  | '>' :: '=' :: rest => some (.sign (.comparison .atLeast), rest)
  | '&' :: '&' :: rest => some (.sign .both, rest)
  | '|' :: '|' :: rest => some (.sign .either, rest)
  | '<' :: rest => some (.sign (.comparison .less), rest)
  | '>' :: rest => some (.sign (.comparison .greater), rest)
  | '!' :: rest => some (.sign .negation, rest)
  | '(' :: rest => some (.sign .opening, rest)
  | ')' :: rest => some (.sign .closing, rest)
  | _ => none

def isNameChar (c : Char) : Bool := isIdentChar c || c == '.'

/-- The sign that a word stands for. -/
def wordSign? (word : String) : Option Sign :=
  let lower := lowered word
  if lower = "and" then some .both
  else if lower = "or" then some .either
  else if lower = "not" then some .negation
  else none

def ofWord (word : String) : Token :=
  match wordSign? word with
  | some s => .sign s
  | none => .name word

def takeName? (cs : List Char) : Option (Token × List Char) :=
  match cs with
  | c :: rest =>
    if isIdentStart c then
      some (ofWord (String.ofList (c :: rest.takeWhile isNameChar)), rest.dropWhile isNameChar)
    else none
  | [] => none

/-- A token at the front of a text without blanks there. -/
def takeToken? (cs : List Char) : Option (Token × List Char) :=
  (takeNumber? cs).or ((takeQuotation? cs).or ((takeSign? cs).or (takeName? cs)))

/-- The tokens of a text, or what is left of it where no token could be read. -/
def scan : Nat → List Char → Except (List Char) (List Token)
  | _, [] => .ok []
  | 0, cs => .error cs
  | fuel + 1, cs =>
    match takeToken? (trimStart cs) with
    | none => .error cs
    | some (token, rest) => do
      let more ← scan fuel rest
      pure (token :: more)

/-- The tokens of a text, or the number of characters in front of which no token could be read;
blanks at its ends do not count. -/
def tokens (s : String) : Except Nat (List Token) :=
  let cs := trim s.toList
  (scan cs.length cs).mapError fun rest => cs.length - rest.length

end Runbook.Guard
