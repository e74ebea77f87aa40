import Runbook.Calendar
import Runbook.Value
import Runbook.Yaml.Failure

/-!
The scalars of YAML: null, truth values, numbers, text, bytes, dates and points in time. Keys of
mappings are scalars. Two keys are one if they are equal, and one and true and the double one
are equal. Not-a-number equals nothing, so as a key it is one only with itself: the notation
with a point is always the same one, and every numeral is another.
-/
namespace Runbook.Yaml

open Number

inductive Scalar where
  | null
  | bool (b : Bool)
  | int (n : Int)
  | float (x : Binary64)
  /-- Not-a-number, with the number of the node that it is read from, if that matters. -/
  | nan (node : Option Nat)
  | text (s : String)
  | bytes (bs : List UInt8)
  | date (d : Date)
  | moment (t : Timestamp)
  deriving Repr, Inhabited

namespace Scalar

/-- The double that the scalar of a node is. -/
def ofDouble (node : Nat) (x : Binary64) : Scalar := if x.isNaN then .nan (some node) else .float x

def numeric? : Scalar → Option Value.Numeric
  | .bool b => (Value.bool b).numeric?
  | .int n => (Value.int n).numeric?
  | .float x => (Value.float x).numeric?
  | _ => none

/-- Whether two keys are the same key. -/
def sameKey : Scalar → Scalar → Bool
  | .null, .null => true
  | .nan a, .nan b => a == b
  | .text a, .text b => a == b
  | .bytes a, .bytes b => a == b
  | .date a, .date b => a == b
  | .moment a, .moment b => a.comparable b && a.orderKey == b.orderKey
  | a, b => match a.numeric?, b.numeric? with
    | some x, some y => x.eq y
    | _, _ => false

/-- Bytes in quotes after a letter; what is not visible ASCII is written by its code. -/
def bytesShown (bs : List UInt8) : String :=
  let cs := bs.map fun b => Char.ofNat b.toNat
  let quote := Text.quoteMark cs
  let escape := fun (c : Char) =>
    if c.toNat < 127 then Text.escapeChar quote c else '\\' :: 'x' :: Text.hexDigits 2 c.toNat
  String.ofList ('b' :: quote :: cs.flatMap escape ++ [quote])

def dateShown (d : Date) : String := s!"datetime.date({d.year}, {d.month}, {d.day})"

/-- An offset as whole days and the seconds beyond them. -/
def zoneShown (offset : Int) : String :=
  if offset = 0 then "datetime.timezone.utc"
  else s!"datetime.timezone({offsetShown (Int.fdiv offset 60)})"

def momentShown (t : Timestamp) : String :=
  let r := t.reading
  let least := [r.date.year, r.date.month, r.date.day, r.hour, r.minute]
  let fields := if r.micro ≠ 0 then least ++ [r.second, r.micro]
    else if r.second ≠ 0 then least ++ [r.second] else least
  let zone := match t.offset with
    | none => []
    | some o => ["tzinfo=" ++ zoneShown o]
  "datetime.datetime(" ++ String.intercalate ", " (fields.map toString ++ zone) ++ ")"

/-- A scalar as messages show it. -/
def shown : Scalar → String
  | .null => Value.null.shown
  | .bool b => (Value.bool b).shown
  | .int n => (Value.int n).shown
  | .float x => (Value.float x).shown
  | .nan _ => (Value.float Binary64.nan).shown
  | .text s => (Value.text s).shown
  | .bytes bs => bytesShown bs
  | .date d => dateShown d
  | .moment t => momentShown t

/-- The text of a scalar on its own: text, dates and points in time stand for themselves. -/
def plain : Scalar → String
  | .text s => s
  | .date d => d.text
  | .moment t => t.text ' '
  | s => s.shown

/-- Whether a scalar is an integer with too many digits to be shown. -/
def isTooLong : Scalar → Bool
  | .int n => Number.isTooLong n
  | _ => false

end Scalar

end Runbook.Yaml
