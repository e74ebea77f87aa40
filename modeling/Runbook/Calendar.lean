import Runbook.Number.Numeral

/-!
Dates and points in time. A timestamp is what a wall clock shows, counted in microseconds,
together with the offset of that clock from universal time if it is known. Timestamps with an
offset are ordered by the instant they denote, those without by what the clock shows, and the
two kinds have no common order. Years run from 1 to 9999.
-/
namespace Runbook

open Number Text

structure Date where
  year : Nat
  month : Nat
  day : Nat
  deriving DecidableEq, Repr

namespace Date

def isLeap (year : Nat) : Bool := year % 4 == 0 && (year % 100 != 0 || year % 400 == 0)

def daysIn (year month : Nat) : Nat :=
  if month = 2 then if isLeap year then 29 else 28
  else if month = 4 ∨ month = 6 ∨ month = 9 ∨ month = 11 then 30 else 31

/-- Days from the first of January 1970. Years are counted from March, so that the day added in a
leap year is the last of its year. -/
def toDays (d : Date) : Int :=
  let year : Int := if d.month ≤ 2 then (d.year : Int) - 1 else d.year
  let era := Int.fdiv year 400
  let yearOfEra := year - era * 400
  let monthFromMarch : Int := (d.month + 9) % 12
  let dayOfYear := Int.fdiv (153 * monthFromMarch + 2) 5 + d.day - 1
  let dayOfEra := yearOfEra * 365 + Int.fdiv yearOfEra 4 - Int.fdiv yearOfEra 100 + dayOfYear
  era * 146097 + dayOfEra - 719468

def ofDays (days : Int) : Date :=
  let z := days + 719468
  let era := Int.fdiv z 146097
  let dayOfEra := (z - era * 146097).toNat
  let yearOfEra := (dayOfEra - dayOfEra / 1460 + dayOfEra / 36524 - dayOfEra / 146096) / 365
  let dayOfYear := dayOfEra - (365 * yearOfEra + yearOfEra / 4 - yearOfEra / 100)
  let fromMarch := (5 * dayOfYear + 2) / 153
  let day := dayOfYear - (153 * fromMarch + 2) / 5 + 1
  let month := if fromMarch < 10 then fromMarch + 3 else fromMarch - 9
  let year := (yearOfEra + era * 400).toNat + if month ≤ 2 then 1 else 0
  ⟨year, month, day⟩

/-- Why three numbers are no date. -/
inductive Fault where
  | year (n : Nat)
  | month
  | day
  deriving DecidableEq, Repr

def check (year month day : Nat) : Except Fault Date :=
  if year < 1 ∨ 9999 < year then .error (.year year)
  else if month < 1 ∨ 12 < month then .error .month
  else if day < 1 ∨ daysIn year month < day then .error .day
  else .ok ⟨year, month, day⟩

/-- A number with zeros in front to fill a width. -/
def padded (width n : Nat) : String :=
  let digits := toString n
  String.ofList (List.replicate (width - digits.length) '0') ++ digits

def text (d : Date) : String := s!"{padded 4 d.year}-{padded 2 d.month}-{padded 2 d.day}"

end Date

structure Timestamp where
  /-- Microseconds that the wall clock shows since the first of January 1970. -/
  wall : Int
  /-- Seconds by which the wall clock is ahead of universal time. -/
  offset : Option Int
  deriving DecidableEq, Repr, Inhabited

namespace Timestamp

def microsPerSecond : Int := 1000000

def microsPerDay : Int := 86400 * microsPerSecond

/-- Microseconds of universal time, for a clock whose offset is known. -/
def instant? (t : Timestamp) : Option Int := t.offset.map fun o => t.wall - o * microsPerSecond

/-- The universal time a number of seconds after the start of 1970. -/
def ofSeconds (seconds : Int) : Timestamp := ⟨seconds * microsPerSecond, some 0⟩

/-- What the order of timestamps of one kind goes by. -/
def orderKey (t : Timestamp) : Int := t.instant?.getD t.wall

/-- Whether two timestamps have an order: both offsets are known, or neither. -/
def comparable (a b : Timestamp) : Bool := a.offset.isSome == b.offset.isSome

def ofFields (d : Date) (hour minute second micro : Nat) (offset : Option Int) : Timestamp :=
  ⟨d.toDays * microsPerDay + ((hour * 60 + minute) * 60 + second : Nat) * microsPerSecond + micro,
    offset⟩

/-- What a wall clock shows: date, hour, minute, second and microsecond. -/
structure Reading where
  date : Date
  hour : Nat
  minute : Nat
  second : Nat
  micro : Nat

def reading (t : Timestamp) : Reading :=
  let days := Int.fdiv t.wall microsPerDay
  let rest := (t.wall - days * microsPerDay).toNat
  let seconds := rest / 1000000
  ⟨Date.ofDays days, seconds / 3600, seconds / 60 % 60, seconds % 60, rest % 1000000⟩

/-- Date and time of day with a mark between them; microseconds only when there are some. -/
def clockText (mark : Char) (t : Timestamp) : String :=
  let r := t.reading
  let base := r.date.text ++ String.singleton mark ++ Date.padded 2 r.hour ++ ":" ++
    Date.padded 2 r.minute ++ ":" ++ Date.padded 2 r.second
  if r.micro = 0 then base else base ++ "." ++ Date.padded 6 r.micro

def offsetText (offset : Int) : String :=
  let n := offset.natAbs
  let base := (if offset < 0 then "-" else "+") ++ Date.padded 2 (n / 3600) ++ ":" ++
    Date.padded 2 (n / 60 % 60)
  if n % 60 = 0 then base else base ++ ":" ++ Date.padded 2 (n % 60)

/-- With the offset in digits, universal time too. -/
def text (mark : Char) (t : Timestamp) : String :=
  t.clockText mark ++ (t.offset.map offsetText).getD ""

/-- As records hold it: universal time is marked by a letter. -/
def recordText (t : Timestamp) : String :=
  t.clockText 'T' ++
    (t.offset.map fun o => if o = 0 then "Z" else offsetText o).getD ""

/-- Exactly `count` digits at the front of a text, as a number. -/
def takeDigits? (count : Nat) (cs : List Char) : Option (Nat × List Char) :=
  let digits := cs.take count
  if digits.length = count ∧ digits.all isAsciiDigit then
    some (digitsValue 10 digits, cs.drop count)
  else none

def takeMark? (p : Char → Bool) : List Char → Option (List Char)
  | c :: cs => if p c then some cs else none
  | [] => none

/-- A date at the front of a text. -/
def readDate? (cs : List Char) : Option (Date × List Char) := do
  let (year, cs) ← takeDigits? 4 cs
  let cs ← takeMark? (· == '-') cs
  let (month, cs) ← takeDigits? 2 cs
  let cs ← takeMark? (· == '-') cs
  let (day, cs) ← takeDigits? 2 cs
  let date ← (Date.check year month day).toOption
  pure (date, cs)

/-- Seconds, of which a fraction is cut after six places, at the front of a text; none is zero. -/
def readSeconds? (cs : List Char) : Option (Nat × Nat × List Char) :=
  match cs with
  | ':' :: rest => do
    let (second, rest) ← takeDigits? 2 rest
    guard (second < 60)
    match takeMark? (fun c => c == '.' || c == ',') rest with
    | some places =>
      let digits := places.takeWhile isAsciiDigit
      guard (!digits.isEmpty)
      let six := digits.take 6
      let micro := digitsValue 10 six * Nat.pow 10 (6 - six.length)
      pure (second, micro, places.dropWhile isAsciiDigit)
    | none => pure (second, 0, rest)
  | rest => some (0, 0, rest)

/-- The offset that ends a timestamp: a letter for universal time, or hours and minutes. -/
def readOffset? : List Char → Option (Option Int)
  | [] => some none
  | ['Z'] => some (some 0)
  | ['z'] => some (some 0)
  | sign :: cs => do
    guard (sign == '+' || sign == '-' || sign == '\u2212')
    let (hours, rest) ← takeDigits? 2 cs
    let (minutes, rest) ← takeDigits? 2 (match rest with | ':' :: more => more | more => more)
    guard (rest.isEmpty && minutes < 60 && hours < 24)
    let n : Int := (hours * 3600 + minutes * 60 : Nat)
    pure (some (if sign == '+' then n else -n))

/-- A date alone is its midnight; otherwise hours and minutes follow the date. -/
def readClock? (cs : List Char) : Option Timestamp := do
  let (date, rest) ← readDate? cs
  match rest with
  | [] => pure (ofFields date 0 0 0 0 none)
  | rest =>
    let rest ← takeMark? (fun c => c == 'T' || c == 't' || c == ' ' || c == '_') rest
    let (hour, rest) ← takeDigits? 2 rest
    let rest ← takeMark? (· == ':') rest
    let (minute, rest) ← takeDigits? 2 rest
    guard (hour < 24 && minute < 60)
    let (second, micro, rest) ← readSeconds? rest
    let offset ← readOffset? rest
    pure (ofFields date hour minute second micro offset)

/-- A number of seconds since 1970 and microseconds more. Seconds that would lie centuries away are
taken for milliseconds. Years run from 1600 here. -/
def ofUnix? (count : Int) (micros : Nat) : Option Timestamp :=
  let inMillis := decide (20000000000 < count.natAbs)
  let seconds := if inMillis then Int.fdiv count 1000 else count
  let micros := if inMillis then micros + (Int.fmod count 1000).toNat * 1000 else micros
  let wall := seconds * microsPerSecond + micros
  if -11676096000 * microsPerSecond ≤ wall ∧ wall < 253402300800 * microsPerSecond then
    some ⟨wall, some 0⟩
  else none

/-- The greatest integer that is at most a finite number. -/
def floorOf (x : Binary64) : Int := Int.fdiv x.scaled Binary64.grain

/-- The digits after the point of a finite number as microseconds, a half rounded up. The sign does
not count. -/
def fractionMicros (x : Binary64) : Nat :=
  let fraction := Binary64.ofScaled false (x.magnitude % Binary64.grain) 1
  let micros := fraction.mul (Binary64.ofInt 1000000)
  (2 * micros.magnitude + Binary64.grain) / (2 * Binary64.grain)

/-- A number of seconds since 1970: the integer below it, and the digits after its point. -/
def ofDouble? (x : Binary64) : Option Timestamp :=
  if x.isNaN || x.isInfinite then none else ofUnix? (floorOf x) (fractionMicros x)

/-- A number of seconds since 1970, or of milliseconds, with a point in its text. -/
def ofDecimal? (x : Binary64) : Option Timestamp :=
  if x.isNaN || x.isInfinite then none
  else if 20000000000 * Binary64.grain < x.magnitude then ofDouble? (x.div (Binary64.ofInt 1000))
  else ofDouble? x

/-- A timestamp in a text: a date, a date and a time, or a number of seconds since 1970. -/
def read? (s : String) : Option Timestamp :=
  let cs := s.toList
  match readClock? cs with
  | some t => some t
  | none =>
    let (negative, body) := takeSign cs
    if !(body.head?.map isAsciiDigit).getD false then none
    else if body.all isAsciiDigit then
      let n : Int := digitsValue 10 body
      ofUnix? (if negative then -n else n) 0
    else if body.all fun c => isAsciiDigit c || c == '.' then (readDecimal? cs).bind ofDecimal?
    else none

end Timestamp

end Runbook
