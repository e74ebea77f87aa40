import Runbook.Text.Letter
import Runbook.Text.Parts

/-!
Tags, which say what a node stands for. A tag is written out, or a scalar has the tag of the
one notation that its text is in: the words for null and truth, whole numbers in four bases,
numbers to the base sixty, decimals, dates and times, the merge key and the default-value key.
Any other scalar is text.
-/
namespace Runbook.Yaml

open Text

inductive Tag where
  | null
  | bool
  | int
  | float
  | binary
  | timestamp
  | orderedMap
  | pairs
  | set
  | text
  | sequence
  | mapping
  | merge
  | defaultValue
  | other (name : String)
  deriving DecidableEq, Repr

/-- What the names of the standard tags begin with. -/
def standardTags : String := "tag:yaml.org,2002:"

def Tag.ofName (name : String) : Tag :=
  let standard : List (String × Tag) :=
    [("null", .null), ("bool", .bool), ("int", .int), ("float", .float), ("binary", .binary),
      ("timestamp", .timestamp), ("omap", .orderedMap), ("pairs", .pairs), ("set", .set),
      ("str", .text), ("seq", .sequence), ("map", .mapping), ("merge", .merge),
      ("value", .defaultValue)]
  ((standard.find? fun s => standardTags ++ s.1 == name).map (·.2)).getD (.other name)

def isDigitOrBar (c : Char) : Bool := isAsciiDigit c || c == '_'

def dropSign : List Char → List Char
  | '+' :: cs => cs
  | '-' :: cs => cs
  | cs => cs

/-- A digit, with one of the first six before it or none: a place to the base sixty. -/
def isSixtieth : List Char → Bool
  | [c] => isAsciiDigit c
  | [b, c] => '0' ≤ b && b ≤ '5' && isAsciiDigit c
  | _ => false

/-- A digit and more digits or underscores. -/
def isGroup : List Char → Bool
  | c :: cs => isAsciiDigit c && cs.all isDigitOrBar
  | [] => false

def isNonEmptyOf (p : Char → Bool) (cs : List Char) : Bool := !cs.isEmpty && cs.all p

def isIntNotation (cs : List Char) : Bool :=
  match dropSign cs with
  | ['0'] => true
  | '0' :: 'b' :: ds => isNonEmptyOf (fun c => c == '0' || c == '1' || c == '_') ds
  | '0' :: 'x' :: ds =>
    isNonEmptyOf
      (fun c => isDigitOrBar c || ('a' ≤ c && c ≤ 'f') || ('A' ≤ c && c ≤ 'F')) ds
  | '0' :: ds => isNonEmptyOf (fun c => ('0' ≤ c && c ≤ '7') || c == '_') ds
  | ds => match parts ':' ds with
    | whole :: places => isGroup whole && places.all isSixtieth
    | [] => false

/-- An exponent, whose sign is always written, or nothing. -/
def isExponent : List Char → Bool
  | [] => true
  | e :: sign :: ds =>
    (e == 'e' || e == 'E') && (sign == '+' || sign == '-') && isNonEmptyOf isAsciiDigit ds
  | _ => false

/-- Digits or underscores after the point and an exponent. -/
def isFraction (cs : List Char) : Bool := isExponent (cs.dropWhile isDigitOrBar)

def isDecimalNotation (cs : List Char) : Bool :=
  let body := dropSign cs
  let signed := body.length < cs.length
  match body with
  | '.' :: c :: ds =>
    [".inf", ".Inf", ".INF"].contains (String.ofList body) ||
      (!signed && (isAsciiDigit c && isFraction ds)) ||
      (!signed && [".nan", ".NaN", ".NAN"].contains (String.ofList body))
  | _ =>
    match parts ':' (body.takeWhile (· != '.')), body.dropWhile (· != '.') with
    | [whole], '.' :: ds => isGroup whole && isFraction ds
    | whole :: places, '.' :: ds =>
      isGroup whole && places.all isSixtieth && ds.all isDigitOrBar
    | _, _ => false

/-- A date and time in its parts, as they are written. -/
structure TimeNotation where
  year : List Char
  month : List Char
  day : List Char
  /-- Hour, minute, second and the fraction of a second. -/
  time : Option (List Char × List Char × List Char × List Char)
  /-- Whether the offset is west, its hours and its minutes; a letter means no offset. -/
  offset : Option (Bool × List Char × List Char)
  deriving Repr

/-- Between `least` and `most` digits, as many as there are, with the rest. -/
def takeDigits? (least most : Nat) (cs : List Char) : Option (List Char × List Char) :=
  let digits := (cs.take most).takeWhile isAsciiDigit
  if least ≤ digits.length then some (digits, cs.drop digits.length) else none

def takeSeparator? (separator : Char) : List Char → Option (List Char)
  | c :: cs => if c = separator then some cs else none
  | [] => none

def isTabOrSpace (c : Char) : Bool := c == ' ' || c == '\t'

/-- The end of a timestamp, where one line break may follow. -/
def atEnd (cs : List Char) : Bool := cs.isEmpty || cs == ['\n']

def readOffsetNotation? (cs : List Char) : Option (Option (Bool × List Char × List Char)) :=
  if atEnd cs then some none
  else match cs.dropWhile isTabOrSpace with
    | 'Z' :: rest => if atEnd rest then some (some (false, ['0'], ['0'])) else none
    | sign :: rest => do
      guard (sign == '+' || sign == '-')
      let (hours, rest) ← takeDigits? 1 2 rest
      match rest with
      | ':' :: rest =>
        let (minutes, rest) ← takeDigits? 2 2 rest
        guard (atEnd rest)
        pure (some (sign == '-', hours, minutes))
      | rest =>
        guard (atEnd rest)
        pure (some (sign == '-', hours, ['0']))
    | [] => none

/-- Reads a date, or a date and a time of day. -/
def readTimeNotation? (cs : List Char) : Option TimeNotation := do
  let (year, cs) ← takeDigits? 4 4 cs
  let (month, cs) ← takeDigits? 1 2 (← takeSeparator? '-' cs)
  let (day, cs) ← takeDigits? 1 2 (← takeSeparator? '-' cs)
  if atEnd cs then pure ⟨year, month, day, none, none⟩
  else
    let blanks := cs.takeWhile isTabOrSpace
    let rest ← if blanks.isEmpty then
        (takeSeparator? 'T' cs).or (takeSeparator? 't' cs)
      else some (cs.dropWhile isTabOrSpace)
    let (hour, rest) ← takeDigits? 1 2 rest
    let (minute, rest) ← takeDigits? 2 2 (← takeSeparator? ':' rest)
    let (second, rest) ← takeDigits? 2 2 (← takeSeparator? ':' rest)
    let (fraction, rest) := match rest with
      | '.' :: ds => (ds.takeWhile isAsciiDigit, ds.dropWhile isAsciiDigit)
      | ds => ([], ds)
    let offset ← readOffsetNotation? rest
    pure ⟨year, month, day, some (hour, minute, second, fraction), offset⟩

/-- A date alone has two digits each for month and day; with a time of day one is enough. -/
def isTimeNotation (cs : List Char) : Bool :=
  match readTimeNotation? cs with
  | none => false
  | some t => t.time.isSome || (t.month.length == 2 && t.day.length == 2)

def boolWords : List String :=
  ["yes", "Yes", "YES", "no", "No", "NO", "true", "True", "TRUE", "false", "False", "FALSE", "on",
    "On", "ON", "off", "Off", "OFF"]

/-- A text without the one line feed that may end it. -/
def dropLastBreak (cs : List Char) : List Char :=
  if cs.getLast? == some '\n' then cs.dropLast else cs

/-- The tag of a scalar by its notation. A line feed may end the text, unless it is all there is,
and no notation has one elsewhere. -/
def Tag.ofNotation (s : String) : Tag :=
  let cs := dropLastBreak s.toList
  let word := String.ofList cs
  if s == "" then .null
  else if cs.isEmpty || cs.contains '\n' then .text
  else if ["~", "null", "Null", "NULL"].contains word then .null
  else if boolWords.contains word then .bool
  else if word == "<<" then .merge
  else if word == "=" then .defaultValue
  else if ["!", "&", "*"].contains word then .other (standardTags ++ "yaml")
  else if isIntNotation cs then .int
  else if isDecimalNotation cs then .float
  else if isTimeNotation cs then .timestamp
  else .text

end Runbook.Yaml
