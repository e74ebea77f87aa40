import Runbook.Yaml.Scalar
import Runbook.Yaml.Tag

/-!
What the text of a scalar with a given tag denotes. Underscores in numbers are dropped. A whole
number may be binary, octal after a leading zero, or hexadecimal; a number with colons is
written to the base sixty.
-/
namespace Runbook.Yaml

open Number Text

def negateIf (negative : Bool) (n : Int) : Int := if negative then -n else n

/-- The value of a digit of any script or of a letter, in either case. -/
def baseDigit? (c : Char) : Option Nat :=
  match digitValue? c with
  | some v => some v
  | none =>
    if 'a' ≤ c ∧ c ≤ 'z' then some (c.toNat - 87)
    else if 'A' ≤ c ∧ c ≤ 'Z' then some (c.toNat - 55)
    else none

/-- The letter that may stand after a zero in front of the digits of a base. -/
def dropBaseMark (base : Nat) : List Char → List Char
  | '0' :: c :: cs =>
    let marks := if base = 2 then ['b', 'B'] else if base = 8 then ['o', 'O'] else ['x', 'X']
    if marks.contains c && !cs.isEmpty then cs else '0' :: c :: cs
  | cs => cs

/-- An integer in one of the bases two, eight and sixteen. -/
def readBased? (base : Nat) (cs : List Char) : Option Int := do
  let (negative, body) := takeSign (trimSpaces cs)
  let digits ← (dropBaseMark base body).mapM baseDigit?
  guard (!digits.isEmpty && digits.all (· < base))
  let n := digits.foldl (fun n d => n * base + d) 0
  pure (negateIf negative (n : Nat))

def basedInt (base : Nat) (s : String) : Except ScalarFault Int :=
  match readBased? base s.toList with
  | some n => .ok n
  | none => .error (.digits base s)

def wholeInt (s : String) : Except ScalarFault Int :=
  match readInt s.toList with
  | .ok n => .ok n
  | .error .malformed => .error (.digits 10 s)
  | .error (.tooLong n) => .error (.tooManyDigits n)

def decimal (s : String) : Except ScalarFault Binary64 :=
  match readDecimal? s.toList with
  | some x => .ok x
  | none => .error (.decimal s)

/-- A sign and what follows it; without any character there is no number. -/
def splitSign (cs : List Char) : Except ScalarFault (Bool × List Char) :=
  match cs with
  | [] => .error .noDigits
  | '-' :: rest => .ok (true, rest)
  | '+' :: rest => .ok (false, rest)
  | rest => .ok (false, rest)

def intScalar (s : String) : Except ScalarFault Int := do
  let (negative, body) ← splitSign (s.toList.filter (· != '_'))
  match body with
  | [] => .error .noDigits
  | ['0'] => pure 0
  | '0' :: 'b' :: ds => negateIf negative <$> basedInt 2 (String.ofList ds)
  | '0' :: 'x' :: ds => negateIf negative <$> basedInt 16 (String.ofList ds)
  | '0' :: ds => negateIf negative <$> basedInt 8 (String.ofList ('0' :: ds))
  | ds =>
    if ds.contains ':' then
      let places ← (parts ':' ds).mapM fun place => wholeInt (String.ofList place)
      pure (negateIf negative (places.foldl (fun n d => n * 60 + d) 0))
    else negateIf negative <$> wholeInt (String.ofList ds)

/-- A sum of places to the base sixty, of which the last is given first. -/
def sixtieths (places : List Binary64) : Except ScalarFault Binary64 := do
  let (sum, _) ← places.foldlM (fun (sum, worth) place => do
      let unit := Binary64.ofInt worth
      if unit.isInfinite then .error .tooLarge
      else pure (sum.add (place.mul unit), worth * 60))
    (Binary64.zero false, (1 : Int))
  pure sum

def floatScalar (node : Nat) (s : String) : Except ScalarFault Scalar := do
  let (negative, body) ← splitSign (lower (s.toList.filter (· != '_')))
  let signed := fun (x : Binary64) => Scalar.ofDouble node (if negative then x.neg else x)
  let name := String.ofList body
  if name == ".inf" then pure (.float (Binary64.infinity negative))
  else if name == ".nan" then pure (.nan none)
  else if body.contains ':' then
    let places ← (parts ':' body).mapM fun place => decimal (String.ofList place)
    signed <$> sixtieths places.reverse
  else signed <$> decimal (String.ofList body)

def boolScalar (s : String) : Except ScalarFault Bool :=
  let name := lowered s
  if ["yes", "true", "on"].contains name then .ok true
  else if ["no", "false", "off"].contains name then .ok false
  else .error (.boolean name)

/-- Places after the point as microseconds. -/
def fractionMicros (cs : List Char) : Nat :=
  let six := cs.take 6
  digitsValue 10 six * Nat.pow 10 (6 - six.length)

def offsetSeconds (offset : Option (Bool × List Char × List Char)) :
    Except ScalarFault (Option Int) :=
  match offset with
  | none => .ok none
  | some (west, hours, minutes) =>
    let n : Int := (digitsValue 10 hours * 60 + digitsValue 10 minutes : Nat)
    let signed := negateIf west n
    if 1440 ≤ n then .error (.offset signed) else .ok (some (signed * 60))

def timeScalar (s : String) : Except ScalarFault Scalar := do
  match readTimeNotation? s.toList with
  | none => .error .noTimestamp
  | some t =>
    let date := (Date.check (digitsValue 10 t.year) (digitsValue 10 t.month)
      (digitsValue 10 t.day)).mapError ScalarFault.date
    match t.time with
    | none => .date <$> date
    | some (hour, minute, second, fraction) =>
      let offset ← offsetSeconds t.offset
      let date ← date
      let hour := digitsValue 10 hour
      let minute := digitsValue 10 minute
      let second := digitsValue 10 second
      if 24 ≤ hour then .error .hour
      else if 60 ≤ minute then .error .minute
      else if 60 ≤ second then .error .second
      else
        pure (.moment (Timestamp.ofFields date hour minute second (fractionMicros fraction) offset))

/-- The value of a character that encodes six bits. -/
def sixBits? (c : Char) : Option Nat :=
  if 'A' ≤ c ∧ c ≤ 'Z' then some (c.toNat - 65)
  else if 'a' ≤ c ∧ c ≤ 'z' then some (c.toNat - 71)
  else if isAsciiDigit c then some (c.toNat + 4)
  else if c = '+' then some 62
  else if c = '/' then some 63
  else none

/-- Bytes from groups of six bits. `held` are the bits not yet used, of which there are `6 - 2 *
place` after `place` characters of a group of four; `pads` counts the padding just seen.
Characters that encode nothing are passed over, and padding that completes a group ends the text.
-/
def decodeBits (place held pads : Nat) : List Char → Option (List UInt8)
  | [] => if place = 0 then some [] else none
  | '=' :: cs =>
    if 2 ≤ place then
      if 4 ≤ place + pads + 1 then some [] else decodeBits place held (pads + 1) cs
    else decodeBits place held pads cs
  | c :: cs =>
    match sixBits? c with
    | none => decodeBits place held pads cs
    | some v =>
      match place with
      | 0 => decodeBits 1 v 0 cs
      | 1 => (decodeBits 2 (v % 16) 0 cs).map (UInt8.ofNat (held * 4 + v / 16) :: ·)
      | 2 => (decodeBits 3 (v % 4) 0 cs).map (UInt8.ofNat (held * 16 + v / 4) :: ·)
      | _ => (decodeBits 0 0 0 cs).map (UInt8.ofNat (held * 64 + v) :: ·)

def binaryScalar (line : Nat) (s : String) : Reading Scalar :=
  let cs := s.toList
  if cs.all fun c => c.toNat < 128 then
    match decodeBits 0 0 0 cs with
    | some bs => .ok (.bytes bs)
    | none => .error (.malformed "failed to decode base64 data" (some line))
  else .error (.malformed "failed to convert base64 data into ascii" (some line))

/-- What a text denotes as the scalar of a node with one of the scalar tags. -/
def Scalar.ofText (tag : Tag) (node line : Nat) (s : String) : Reading Scalar :=
  match tag with
  | .null => .ok .null
  | .bool => ((boolScalar s).map Scalar.bool).mapError .scalar
  | .int => ((intScalar s).map Scalar.int).mapError .scalar
  | .float => (floatScalar node s).mapError .scalar
  | .timestamp => (timeScalar s).mapError .scalar
  | .binary => binaryScalar line s
  | _ => .ok (.text s)

end Runbook.Yaml
