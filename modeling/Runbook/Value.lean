import Runbook.Keyed
import Runbook.Number.Shortest
import Runbook.Text.Quoted

/-!
Values that a run's variables, log records and stored runs hold: null, booleans, integers,
doubles, text, lists and records. Booleans are the numbers zero and one wherever numbers are
compared; integers and doubles are compared by their exact values. Lists are ordered by their
first difference. Two records are equal when they have the same keys with equal values, in any
order, and nothing else is ordered. Not-a-number equals nothing, but inside lists and records
it is no difference.
-/
namespace Runbook

open Number

inductive Value where
  | null
  | bool (b : Bool)
  | int (n : Int)
  | float (x : Binary64)
  | text (s : String)
  | list (items : List Value)
  | record (fields : List (String × Value))
  deriving Repr, Inhabited

abbrev Fields := List (String × Value)

namespace Value

/-- The exact number a value stands for: a boolean, an integer or a double. -/
inductive Numeric where
  | nan
  | extent (e : Extent)
  deriving DecidableEq

def numeric? : Value → Option Numeric
  | .bool b => some (.extent (.ofInt (if b then 1 else 0)))
  | .int n => some (.extent (.ofInt n))
  | .float x => some (match Extent.ofBinary64? x with | some e => .extent e | none => .nan)
  | _ => none

def Numeric.eq : Numeric → Numeric → Bool
  | .extent a, .extent b => decide (a = b)
  | _, _ => false

def Numeric.lt : Numeric → Numeric → Bool
  | .extent a, .extent b => a.lt b
  | _, _ => false

def isNaN : Value → Bool
  | .float x => x.isNaN
  | _ => false

def bothNaN (a b : Value) : Bool := a.isNaN && b.isNaN

mutual

/-- Equality as guards see it. -/
def eq : Value → Value → Bool
  | .null, .null => true
  | .text a, .text b => a == b
  | .list as, .list bs => eqItems as bs
  | .record as, .record bs => as.length == bs.length && eqFields as bs
  | a, b => match a.numeric?, b.numeric? with
    | some x, some y => x.eq y
    | _, _ => false

def eqItems : List Value → List Value → Bool
  | [], [] => true
  | a :: as, b :: bs => (bothNaN a b || eq a b) && eqItems as bs
  | _, _ => false

/-- Whether every field of the first record is in the second with an equal value. -/
def eqFields : List (String × Value) → List (String × Value) → Bool
  | [], _ => true
  | (k, v) :: rest, bs =>
    (match Keyed.get? k bs with
      | some w => bothNaN v w || eq v w
      | none => false) && eqFields rest bs

end

mutual

/-- Whether the first value is less than the second; none where the two have no order. -/
def lt? : Value → Value → Option Bool
  | .text a, .text b => some (a < b)
  | .list as, .list bs => ltItems? as bs
  | a, b => match a.numeric?, b.numeric? with
    | some x, some y => some (x.lt y)
    | _, _ => none

def ltItems? : List Value → List Value → Option Bool
  | [], [] => some false
  | [], _ :: _ => some true
  | _ :: _, [] => some false
  | a :: as, b :: bs => if bothNaN a b || eq a b then ltItems? as bs else lt? a b

end

mutual

/-- Whether the first value is at most the second; none where the two have no order. -/
def le? : Value → Value → Option Bool
  | .text a, .text b => some (a ≤ b)
  | .list as, .list bs => leItems? as bs
  | a, b => match a.numeric?, b.numeric? with
    | some x, some y => some (x.lt y || x.eq y)
    | _, _ => none

def leItems? : List Value → List Value → Option Bool
  | [], _ => some true
  | _ :: _, [] => some false
  | a :: as, b :: bs => if bothNaN a b || eq a b then leItems? as bs else le? a b

end

mutual

/-- How many values lie in one another at most, the value itself counted. -/
def levels : Value → Nat
  | .list items => itemLevels items + 1
  | .record fields => fieldLevels fields + 1
  | _ => 1

def itemLevels : List Value → Nat
  | [] => 0
  | v :: rest => max (levels v) (itemLevels rest)

def fieldLevels : List (String × Value) → Nat
  | [] => 0
  | (_, v) :: rest => max (levels v) (fieldLevels rest)

end

/-- Lists in brackets and records in braces, their parts set apart by a comma and a space. -/
def bracketed (left right : Char) (parts : List String) : String :=
  String.singleton left ++ String.intercalate ", " parts ++ String.singleton right

mutual

/-- A value as messages show it. -/
def shown : Value → String
  | .null => "None"
  | .bool true => "True"
  | .bool false => "False"
  | .int n => toString n
  | .float x => x.text
  | .text s => Text.quoted s
  | .list items => bracketed '[' ']' (shownItems items)
  | .record fields => bracketed '{' '}' (shownFields fields)

def shownItems : List Value → List String
  | [] => []
  | v :: rest => shown v :: shownItems rest

def shownFields : List (String × Value) → List String
  | [] => []
  | (k, v) :: rest => (Text.quoted k ++ ": " ++ shown v) :: shownFields rest

end

/-- The text of a value inside another text: text stands for itself. -/
def plain : Value → String
  | .text s => s
  | v => v.shown

end Value

end Runbook
