import Runbook.Calendar
import Runbook.Text.Quoted

/-!
Why a YAML text has no value. A text may be malformed, which is known with the line it shows on;
a scalar may be well formed and still denote nothing, such as a date that the calendar does not
have; and a text may be nested more deeply than is ever read.
-/
namespace Runbook.Yaml

open Text Number

/-- Why a well-formed scalar denotes nothing. -/
inductive ScalarFault where
  | date (fault : Date.Fault)
  | hour
  | minute
  | second
  /-- An offset from universal time of a day or more, in minutes. -/
  | offset (minutes : Int)
  /-- Digits that the base does not have. -/
  | digits (base : Nat) (text : String)
  | decimal (text : String)
  | boolean (text : String)
  | noDigits
  | noTimestamp
  /-- A mapping where the text of a date is looked for. -/
  | notText
  /-- An escape beyond the last code point. -/
  | codePoint (n : Nat)
  /-- More decimal digits than an integer is read from. -/
  | tooManyDigits (digits : Nat)
  /-- An integer with more decimal digits than are ever written. -/
  | tooLongToWrite
  /-- A place of a number to the base sixty that is worth more than any double. -/
  | tooLarge
  deriving DecidableEq, Repr

/-- An offset as days and seconds, the days rounded down. -/
def offsetShown (minutes : Int) : String :=
  let days := Int.fdiv minutes 1440
  let seconds := (minutes - days * 1440) * 60
  let parts := (if days = 0 then [] else [s!"days={days}"]) ++
    (if seconds = 0 then [] else [s!"seconds={seconds}"])
  "datetime.timedelta(" ++ String.intercalate ", " parts ++ ")"

/-- How much of a quoted text is shown where digits were expected. -/
def shownWidth : Nat := 200

def ScalarFault.message : ScalarFault → String
  | .date (.year n) => s!"year {n} is out of range"
  | .date .month => "month must be in 1..12"
  | .date .day => "day is out of range for month"
  | .hour => "hour must be in 0..23"
  | .minute => "minute must be in 0..59"
  | .second => "second must be in 0..59"
  | .offset minutes =>
    "offset must be a timedelta strictly between -timedelta(hours=24) and " ++
      "timedelta(hours=24), not " ++ offsetShown minutes ++ "."
  | .digits base text =>
    s!"invalid literal for int() with base {base}: " ++
      String.ofList ((quoted text).toList.take shownWidth)
  | .decimal text => s!"could not convert string to float: {quoted text}"
  | .boolean text => quoted text
  | .noDigits => "string index out of range"
  | .noTimestamp => "no timestamp"
  | .notText => "expected string or bytes-like object"
  | .codePoint _ => "chr() arg not in range(0x110000)"
  | .tooManyDigits n => tooLongToRead n
  | .tooLongToWrite => Number.tooLongToWrite
  | .tooLarge => "int too large to convert to float"

inductive Failure where
  /-- A malformed text and the line, counted from zero, where that shows. -/
  | malformed (problem : String) (line : Option Nat)
  | scalar (fault : ScalarFault)
  | tooDeep
  deriving DecidableEq, Repr

abbrev Reading := Except Failure

end Runbook.Yaml
