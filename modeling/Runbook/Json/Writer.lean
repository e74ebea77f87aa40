import Runbook.Value

/-!
Writing JSON, on one line or with every item on a line of its own. Text is written as it stands
but for the quote, the backslash and the control characters. Doubles are written by their
shortest decimal text. Where a text with halves of surrogate pairs has to become bytes, the halves
can be shown by their codes.
-/
namespace Runbook.Json

open Number Text

def escapeChar (c : Char) : List Char :=
  match c with
  | '"' => ['\\', '"']
  | '\\' => ['\\', '\\']
  | '\n' => ['\\', 'n']
  | '\r' => ['\\', 'r']
  | '\t' => ['\\', 't']
  | '\x08' => ['\\', 'b']
  | '\x0c' => ['\\', 'f']
  | c => if c.toNat < 32 then '\\' :: 'u' :: hexDigits 4 c.toNat else [c]

def writeText (s : String) : String :=
  String.ofList ('"' :: s.toList.flatMap escapeChar ++ ['"'])

def escapeHalf (c : Char) : List Char :=
  match halfCode? c with
  | some n => '\\' :: 'u' :: hexDigits 4 n
  | none => [c]

/-- A JSON text with its halves shown by their codes. -/
def escapeHalves (s : String) : String := String.ofList (s.toList.flatMap escapeHalf)

def writeFloat (x : Binary64) : String :=
  if x.isNaN then "NaN"
  else if x.isInfinite then if x.isNegative then "-Infinity" else "Infinity"
  else x.text

mutual

/-- A value on one line. -/
def write : Value → String
  | .null => "null"
  | .bool true => "true"
  | .bool false => "false"
  | .int n => toString n
  | .float x => writeFloat x
  | .text s => writeText s
  | .list items => Value.bracketed '[' ']' (writeItems items)
  | .record fields => Value.bracketed '{' '}' (writeFields fields)

def writeItems : List Value → List String
  | [] => []
  | v :: rest => write v :: writeItems rest

def writeFields : List (String × Value) → List String
  | [] => []
  | (k, v) :: rest => (writeText k ++ ": " ++ write v) :: writeFields rest

end

def indent (depth : Nat) : String := String.ofList ('\n' :: List.replicate (2 * depth) ' ')

/-- Parts on lines of their own, one step deeper than their brackets. -/
def stacked (depth : Nat) (left right : Char) (parts : List String) : String :=
  if parts.isEmpty then String.ofList [left, right]
  else
    String.singleton left ++ indent (depth + 1) ++
      String.intercalate ("," ++ indent (depth + 1)) parts ++ indent depth ++ String.singleton right

mutual

/-- A value spread over lines; its first line is at the given depth. -/
def spread (depth : Nat) : Value → String
  | .list items => stacked depth '[' ']' (spreadItems (depth + 1) items)
  | .record fields => stacked depth '{' '}' (spreadFields (depth + 1) fields)
  | .null => "null"
  | .bool true => "true"
  | .bool false => "false"
  | .int n => toString n
  | .float x => writeFloat x
  | .text s => writeText s

def spreadItems (depth : Nat) : List Value → List String
  | [] => []
  | v :: rest => spread depth v :: spreadItems depth rest

def spreadFields (depth : Nat) : List (String × Value) → List String
  | [] => []
  | (k, v) :: rest => (writeText k ++ ": " ++ spread depth v) :: spreadFields depth rest

end

end Runbook.Json
