import Runbook.Number.Binary64
import Runbook.Text.Blank
import Runbook.Text.Digit
import Runbook.Text.LetterCase

/-!
Numerals. A numeral may have blank space around it, a sign, digits of any script and single
underscores between digits. A whole numeral has digits alone, and no more of them than a limit; a
decimal numeral may have a point and an exponent, or be one of the words for infinity and
not-a-number.
-/
namespace Runbook.Number

open Runbook.Text

/-- Digits of every script as ASCII digits; underscores are dropped where they stand between two
digits, and any other underscore is refused. -/
def plainDigits? (afterDigit : Bool) : List Char → Option (List Char)
  | [] => some []
  | '_' :: c :: cs =>
    if afterDigit && isDigit c then plainDigits? false (c :: cs) else none
  | c :: cs =>
    if c = '_' then none
    else match digitValue? c with
      | some v => (plainDigits? true cs).map (Char.ofNat (48 + v) :: ·)
      | none => (plainDigits? false cs).map (c :: ·)

def digitsValue (base : Nat) (cs : List Char) : Nat :=
  cs.foldl (fun n c => base * n + (c.toNat - 48)) 0

def takeSign : List Char → Bool × List Char
  | '-' :: cs => (true, cs)
  | '+' :: cs => (false, cs)
  | cs => (false, cs)

def allDigits (cs : List Char) : Bool := !cs.isEmpty && cs.all isAsciiDigit

/-- Why a text is no whole numeral. -/
inductive NumeralFault where
  | malformed
  /-- It begins with more digits than the limit. -/
  | tooLong (digits : Nat)
  deriving DecidableEq, Repr

/-- The greatest number of decimal digits that an integer is read from or written with. -/
def digitLimit : Nat := 4300

/-- Whether an integer has too many decimal digits to be written. -/
def isTooLong (n : Int) : Bool := decide (Nat.pow 10 digitLimit ≤ n.natAbs)

/-- What a number that cannot be read or written for its digits is refused with. -/
def tooLongText (found : String) : String :=
  s!"Exceeds the limit ({digitLimit} digits) for integer string conversion{found}; " ++
    "use sys.set_int_max_str_digits() to increase the limit"

def tooLongToWrite : String := tooLongText ""

def tooLongToRead (digits : Nat) : String := tooLongText s!": value has {digits} digits"

def isDigitOrUnderscore (c : Char) : Bool := isDigit c || c == '_'

/-- Whether underscores stand one by one between digits, in a text of digits and underscores. -/
def isGrouped (run : List Char) : Bool :=
  run.head? != some '_' && run.getLast? != some '_' &&
    (run.zip run.tail).all fun (a, b) => a != '_' || b != '_'

/-- The digits of a text as ASCII digits. -/
def asciiDigits (cs : List Char) : List Char :=
  cs.filterMap fun c => (digitValue? c).map fun v => Char.ofNat (48 + v)

/-- The integer a whole numeral stands for. Its digits are counted before what follows them is
looked at. -/
def readInt (cs : List Char) : Except NumeralFault Int :=
  let (negative, body) := takeSign (trimSpaces cs)
  let run := body.takeWhile isDigitOrUnderscore
  let digits := asciiDigits run
  if !isGrouped run then .error .malformed
  else if digitLimit < digits.length then .error (.tooLong digits.length)
  else if digits.isEmpty || run.length < body.length then .error .malformed
  else
    let n : Int := digitsValue 10 digits
    .ok (if negative then -n else n)

/-- How many digits of a decimal numeral decide which double is nearest, if it is known besides
whether all others are zero. -/
def decisiveDigits : Nat := 800

/-- How many digits of an exponent are looked at: with so many, every double but zero is too small
or too great. -/
def exponentDigits : Nat := 30

/-- The double nearest to a number in ASCII digits with a power of ten. -/
def ofDigits (negative : Bool) (digits : List Char) (exponent : Int) : Binary64 :=
  let significant := digits.dropWhile (· == '0')
  let rest := significant.drop decisiveDigits
  if rest.isEmpty then Binary64.ofDecimal negative (digitsValue 10 significant) exponent
  else
    let last := if rest.all (· == '0') then '0' else '1'
    let digits := significant.take decisiveDigits ++ [last]
    Binary64.ofDecimal negative (digitsValue 10 digits) (exponent + rest.length - 1)

/-- A power of ten in ASCII digits. -/
def exponentOf (negative : Bool) (digits : List Char) : Int :=
  let n : Int := digitsValue 10 ((digits.dropWhile (· == '0')).take exponentDigits)
  if negative then -n else n

/-- The exponent part of a decimal numeral, with nothing after it. -/
def readExponent? : List Char → Option Int
  | [] => some 0
  | c :: cs =>
    if c = 'e' ∨ c = 'E' then
      let (negative, digits) := takeSign cs
      if allDigits digits then some (exponentOf negative digits) else none
    else none

/-- An unsigned decimal numeral in ASCII digits. -/
def readUnsigned? (negative : Bool) (cs : List Char) : Option Binary64 := do
  let whole := cs.takeWhile isAsciiDigit
  let rest := cs.dropWhile isAsciiDigit
  let (places, tail) := match rest with
    | '.' :: ds => (ds.takeWhile isAsciiDigit, ds.dropWhile isAsciiDigit)
    | ds => ([], ds)
  guard (!(whole.isEmpty && places.isEmpty))
  let exponent ← readExponent? tail
  pure (ofDigits negative (whole ++ places) (exponent - places.length))

/-- The number a decimal numeral stands for. -/
def readDecimal? (cs : List Char) : Option Binary64 := do
  let plain ← plainDigits? false (trimSpaces cs)
  let (negative, body) := takeSign plain
  let name := String.ofList (lower body)
  if name = "inf" ∨ name = "infinity" then pure (Binary64.infinity negative)
  else if name = "nan" then pure Binary64.nan
  else readUnsigned? negative body

end Runbook.Number
