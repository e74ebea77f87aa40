import Runbook.Value
import Runbook.Number.Numeral

/-!
Reading JSON. A number with a fraction or an exponent is a double, any other an integer of any
size; the words `NaN`, `Infinity` and `-Infinity` are doubles too. A repeated key keeps its
first place and takes its last value. Text holds no control character as it stands. A text may be
well formed up to a place and yet not be read: an integer may have too many digits, and lists and
records may be nested too deeply.
-/
namespace Runbook.Json

open Number Text

def isSpace (c : Char) : Bool := c == ' ' || c == '\t' || c == '\n' || c == '\r'

def skipSpace (cs : List Char) : List Char := cs.dropWhile isSpace

def hexValue? (c : Char) : Option Nat :=
  if isAsciiDigit c then some (c.toNat - 48)
  else if 'a' ≤ c ∧ c ≤ 'f' then some (c.toNat - 87)
  else if 'A' ≤ c ∧ c ≤ 'F' then some (c.toNat - 55)
  else none

def fourHex? (a b c d : Char) : Option Nat := do
  let high := (← hexValue? a) * 16 + (← hexValue? b)
  let low := (← hexValue? c) * 16 + (← hexValue? d)
  pure (high * 256 + low)

def escaped? (c : Char) : Option Nat :=
  match c with
  | '"' => some 34
  | '\\' => some 92
  | '/' => some 47
  | 'b' => some 8
  | 'f' => some 12
  | 'n' => some 10
  | 'r' => some 13
  | 't' => some 9
  | _ => none

/-- The code units of a text after its opening quote, and what follows its closing quote. -/
def readUnits : List Char → Option (List Nat × List Char)
  | [] => none
  | '"' :: cs => some ([], cs)
  | '\\' :: 'u' :: a :: b :: c :: d :: cs =>
    match fourHex? a b c d, readUnits cs with
    | some n, some (units, rest) => some (n :: units, rest)
    | _, _ => none
  | '\\' :: c :: cs =>
    match escaped? c, readUnits cs with
    | some n, some (units, rest) => some (n :: units, rest)
    | _, _ => none
  | c :: cs =>
    if c.toNat < 32 then none
    else match readUnits cs with
      | some (units, rest) => some (c.toNat :: units, rest)
      | none => none

def isHigh (n : Nat) : Bool := 0xd800 ≤ n && n < 0xdc00

def isLow (n : Nat) : Bool := 0xdc00 ≤ n && n < 0xe000

/-- Code points from code units: a high surrogate joins the low one after it. -/
def joinUnits : List Nat → List Nat
  | [] => []
  | [n] => [n]
  | n :: m :: rest =>
    if isHigh n && isLow m then
      (0x10000 + (n - 0xd800) * 0x400 + (m - 0xdc00)) :: joinUnits rest
    else n :: joinUnits (m :: rest)

/-- A text and what follows it. -/
def readText? (cs : List Char) : Option (String × List Char) :=
  (readUnits cs).map fun (units, rest) =>
    (String.ofList ((joinUnits units).map codeChar), rest)

/-- The digits of a number's integer part: a leading zero stands alone. -/
def readWhole? : List Char → Option (List Char × List Char)
  | '0' :: cs => some (['0'], cs)
  | c :: cs =>
    if isAsciiDigit c then some (c :: cs.takeWhile isAsciiDigit, cs.dropWhile isAsciiDigit)
    else none
  | [] => none

def readFraction : List Char → List Char × List Char
  | '.' :: c :: cs =>
    if isAsciiDigit c then (c :: cs.takeWhile isAsciiDigit, cs.dropWhile isAsciiDigit)
    else ([], '.' :: c :: cs)
  | cs => ([], cs)

/-- An exponent and what follows it; without digits there is none. -/
def readPower (cs : List Char) : Option Int × List Char :=
  match cs with
  | c :: ds =>
    if c = 'e' ∨ c = 'E' then
      let (negative, rest) := takeSign ds
      let digits := rest.takeWhile isAsciiDigit
      if digits.isEmpty then (none, cs)
      else (some (exponentOf negative digits), rest.dropWhile isAsciiDigit)
    else (none, cs)
  | [] => (none, cs)

/-- Why a text is no value. -/
inductive Fault where
  | malformed
  | tooManyDigits (digits : Nat)
  | tooDeep
  deriving DecidableEq, Repr

abbrev Reading (α : Type) := Except Fault α

def orMalformed {α : Type} : Option α → Reading α
  | some a => .ok a
  | none => .error .malformed

def readUnsigned (negative : Bool) (cs : List Char) : Reading (Value × List Char) := do
  let (whole, afterWhole) ← orMalformed (readWhole? cs)
  let (places, afterPlaces) := readFraction afterWhole
  let (power, rest) := readPower afterPlaces
  if places.isEmpty && power.isNone then
    if digitLimit < whole.length then throw (.tooManyDigits whole.length)
    let n : Int := digitsValue 10 whole
    pure (.int (if negative then -n else n), rest)
  else
    let exponent := power.getD 0 - places.length
    pure (.float (ofDigits negative (whole ++ places) exponent), rest)

/-- The words that stand for a value. -/
def readWord? (cs : List Char) : Option (Value × List Char) :=
  let words : List (String × Value) :=
    [("null", .null), ("true", .bool true), ("false", .bool false), ("NaN", .float Binary64.nan),
      ("Infinity", .float (Binary64.infinity false)),
      ("-Infinity", .float (Binary64.infinity true))]
  words.findSome? fun (word, value) =>
    if word.toList.isPrefixOf cs then some (value, cs.drop word.length) else none

/-- What reads a value at the front of a text that does not begin with white space. -/
abbrev ValueReader := List Char → Reading (Value × List Char)

/-- The items of a list and what follows its closing bracket. -/
def readItems (value : ValueReader) : Nat → List Char → Reading (List Value × List Char)
  | 0, _ => .error .malformed
  | fuel + 1, cs => do
    let (item, rest) ← value cs
    match skipSpace rest with
    | ',' :: more =>
      let (items, after) ← readItems value fuel (skipSpace more)
      pure (item :: items, after)
    | ']' :: after => pure ([item], after)
    | _ => throw .malformed

/-- The fields of a record and what follows its closing brace. -/
def readFields (value : ValueReader) : Nat → List Char → Reading (Fields × List Char)
  | 0, _ => .error .malformed
  | fuel + 1, cs => do
    match cs with
    | '"' :: afterQuote =>
      let (key, afterKey) ← orMalformed (readText? afterQuote)
      match skipSpace afterKey with
      | ':' :: beforeValue =>
        let (item, rest) ← value (skipSpace beforeValue)
        match skipSpace rest with
        | ',' :: more =>
          let (fields, after) ← readFields value fuel (skipSpace more)
          pure ((key, item) :: fields, after)
        | '}' :: after => pure ([(key, item)], after)
        | _ => throw .malformed
      | _ => throw .malformed
    | _ => throw .malformed

def readNumber (cs : List Char) : Reading (Value × List Char) :=
  match readWord? cs, cs with
  | some found, _ => .ok found
  | none, '-' :: rest => readUnsigned true rest
  | none, rest => readUnsigned false rest

/-- A value whose lists and records lie in each other no more than a number of times. -/
def readValue (fuel : Nat) : Nat → ValueReader
  | 0, _ => .error .tooDeep
  | depth + 1, cs =>
    match cs with
    | '"' :: rest => do
      let (s, after) ← orMalformed (readText? rest)
      pure (.text s, after)
    | '[' :: rest =>
      match skipSpace rest with
      | ']' :: after => .ok (.list [], after)
      | body => do
        let (items, after) ← readItems (readValue fuel depth) fuel body
        pure (.list items, after)
    | '{' :: rest =>
      match skipSpace rest with
      | '}' :: after => .ok (.record [], after)
      | body => do
        let (fields, after) ← readFields (readValue fuel depth) fuel body
        pure (.record (Keyed.ofList fields), after)
    | cs => readNumber cs

/-- How many times lists and records may lie in each other. -/
def depthLimit : Nat := 985

/-- The value of a JSON text, with white space around it and nothing else. -/
def read (s : String) : Reading Value := do
  let cs := s.toList
  let (value, rest) ← readValue (cs.length + 1) depthLimit (skipSpace cs)
  if (skipSpace rest).isEmpty then pure value else throw .malformed

end Runbook.Json
