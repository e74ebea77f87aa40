import Runbook.Guard.Token
import Runbook.Number.Numeral
import Runbook.Value

/-!
Guard expressions. Alternatives bind weaker than conjunctions, those weaker than negations, and
those weaker than comparisons, which do not chain. A few names in any letter case are constants;
every other name is a variable. An expression may be nested only so deeply: every parenthesis
goes down five levels, and every negation one.
-/
namespace Runbook.Guard

open Text Number

inductive Expression where
  | constant (v : Value)
  | variable (name : String)
  | compare (c : Comparison) (left right : Expression)
  | negation (e : Expression)
  | both (left right : Expression)
  | either (left right : Expression)
  deriving Repr, Inhabited

/-- Why a guard has no value. -/
inductive Fault where
  | character (position : Nat)
  | empty
  | ended
  | unexpected (token : String)
  | unclosed
  | incomparable (left : Value) (c : Comparison) (right : Value)
  /-- A number with more digits than an integer is read from. -/
  | tooManyDigits (digits : Nat)
  /-- More levels than are read or evaluated. -/
  | tooDeep
  deriving Repr

def Fault.message (guard : String) : Fault → String
  | .character position => s!"Unexpected character in guard {quoted guard} at {position}"
  | .empty => "Empty guard expression"
  | .ended => s!"Unexpected end of guard {quoted guard}"
  | .unexpected token => s!"Unexpected token {quoted token} in guard {quoted guard}"
  | .unclosed => s!"Missing ')' in guard {quoted guard}"
  | .incomparable left c right => s!"Cannot compare {left.shown} {c.sign} {right.shown}"
  | .tooManyDigits n => tooLongToRead n
  | .tooDeep => "maximum recursion depth exceeded"

/-- A quotation's text: a backslash stands for the character after it. -/
def resolveEscapes : List Char → List Char
  | '\\' :: c :: cs => c :: resolveEscapes cs
  | c :: cs => c :: resolveEscapes cs
  | [] => []

/-- The value of a number: a double if it has a point. -/
def numberValue (digits : List Char) : Except Fault Value :=
  if digits.contains '.' then .ok (.float ((readDecimal? digits).getD Binary64.nan))
  else match readInt digits with
    | .ok n => .ok (.int n)
    | .error (.tooLong n) => .error (.tooManyDigits n)
    | .error .malformed => .ok (.int 0)

def constant? (name : String) : Option Value :=
  let lower := lowered name
  if lower = "true" ∨ lower = "always" then some (.bool true)
  else if lower = "false" ∨ lower = "never" then some (.bool false)
  else if lower = "null" ∨ lower = "none" then some .null
  else none

def ofName (name : String) : Expression :=
  match constant? name with
  | some v => .constant v
  | none => .variable name

abbrev Rest := List Token

/-- Goes on with more parts of one kind after the first, each behind a sign. -/
def chain (part : List Token → Except Fault (Expression × Rest)) (sign : Sign)
    (join : Expression → Expression → Expression) :
    Nat → Expression → List Token → Except Fault (Expression × Rest)
  | fuel + 1, left, token :: ts =>
    if token = .sign sign then do
      let (right, rest) ← part ts
      chain part sign join fuel (join left right) rest
    else .ok (left, token :: ts)
  | _, left, ts => .ok (left, ts)

section

-- `size` is at least the number of tokens.
variable (size : Nat)

mutual

def readEither : Nat → List Token → Except Fault (Expression × Rest)
  | 0, _ => .error .tooDeep
  | depth + 1, ts => do
    let (first, rest) ← readBoth depth ts
    chain (readBoth depth) .either .either size first rest

def readBoth : Nat → List Token → Except Fault (Expression × Rest)
  | 0, _ => .error .tooDeep
  | depth + 1, ts => do
    let (first, rest) ← readNegation depth ts
    chain (readNegation depth) .both .both size first rest

def readNegation : Nat → List Token → Except Fault (Expression × Rest)
  | 0, _ => .error .tooDeep
  | depth + 1, .sign .negation :: ts => do
    let (inner, rest) ← readNegation depth ts
    pure (.negation inner, rest)
  | depth + 1, ts => readComparison depth ts

def readComparison : Nat → List Token → Except Fault (Expression × Rest)
  | 0, _ => .error .tooDeep
  | depth + 1, ts => do
    let (left, rest) ← readAtom depth ts
    match rest with
    | .sign (.comparison c) :: more =>
      let (right, rest) ← readAtom depth more
      pure (.compare c left right, rest)
    | rest => pure (left, rest)

def readAtom : Nat → List Token → Except Fault (Expression × Rest)
  | 0, _ => .error .tooDeep
  | _ + 1, [] => .error .ended
  | depth + 1, .sign .opening :: ts => do
    let (inner, rest) ← readEither depth ts
    match rest with
    | .sign .closing :: rest => pure (inner, rest)
    | _ => .error .unclosed
  | _ + 1, .number digits :: ts => do return (.constant (← numberValue digits), ts)
  | _ + 1, .quotation _ inside :: ts =>
    .ok (.constant (.text (String.ofList (resolveEscapes inside))), ts)
  | _ + 1, .name s :: ts => .ok (ofName s, ts)
  | _ + 1, token :: _ => .error (.unexpected token.text)

end

end

/-- How many levels an expression may have. -/
def depthLimit : Nat := 986

/-- The expression that a list of tokens is. -/
def Expression.ofTokens (ts : List Token) : Except Fault Expression :=
  if ts.isEmpty then .error .empty
  else do
    let (e, rest) ← readEither ts.length depthLimit ts
    match rest with
    | [] => pure e
    | token :: _ => .error (.unexpected token.text)

/-- Reads a guard. -/
def Expression.read (s : String) : Except Fault Expression := do
  let ts ← (tokens s).mapError .character
  Expression.ofTokens ts

end Runbook.Guard
