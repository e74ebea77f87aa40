import Runbook.Guard.Expression
import Runbook.Text.Parts

/-!
The values of guards on a run's variables. Text that is compared with a number or a truth value
is read as one if it can be; comparisons of other kinds of values may have no answer. What
counts as true is decided by the text for text, and by being other than zero, empty and null for
the rest. The second part of a conjunction or alternative is looked at only if the first does
not settle it.
-/
namespace Runbook.Guard

open Text Number

/-- Texts that do not count as true, in any letter case and with blanks around them. -/
def falseTexts : List String := ["", "false", "0", "no", "off", "null", "none"]

/-- A text in lower case and without blanks around it. -/
def plainWord (s : String) : String := lowered (strip s)

def truth : Value → Bool
  | .null => false
  | .bool b => b
  | .int n => n != 0
  | .float x => x.isNaN || x.isInfinite || x.magnitude != 0
  | .text s => !falseTexts.contains (plainWord s)
  | .list items => !items.isEmpty
  | .record fields => !fields.isEmpty

/-- The value under a dotted name, one record inside the other; null where there is none. -/
def lookup (v : Value) : List String → Value
  | [] => v
  | part :: rest =>
    match v with
    | .record fields =>
      match Keyed.get? part fields with
      | some inner => lookup inner rest
      | none => .null
    | _ => .null

def nameParts (name : String) : List String := (parts '.' name.toList).map String.ofList

/-- A text read as the kind of value it is compared with, if it can be. -/
def readAs (s : String) : Value → Value
  | .bool _ =>
    if plainWord s = "true" then .bool true
    else if plainWord s = "false" then .bool false
    else .text s
  | .int _ | .float _ =>
    match readDecimal? s.toList with
    | some x => .float x
    | none => .text s
  | _ => .text s

/-- Two values made comparable: where one of them is text, it is read as the kind of the other. -/
def alignPair : Value → Value → Value × Value
  | .text a, .text b => (.text a, .text b)
  | .text a, b => (readAs a b, b)
  | a, .text b => (a, readAs b a)
  | a, b => (a, b)

/-- The answer of a comparison of two values as they are; none where they have no order. -/
def holds? (c : Comparison) (left right : Value) : Option Bool :=
  match c with
  | .equal => some (left.eq right)
  | .unequal => some (!left.eq right)
  | .less => left.lt? right
  | .atMost => left.le? right
  | .greater => right.lt? left
  | .atLeast => right.le? left

def compareValues (c : Comparison) (left right : Value) : Except Fault Bool :=
  let (l, r) := alignPair left right
  match holds? c l r with
  | some b => .ok b
  | none => .error (.incomparable l c r)

/-- The value of an expression that may have a number of levels. -/
def Expression.eval (bindings : Fields) : Expression → Nat → Except Fault Value
  | _, 0 => .error .tooDeep
  | .constant v, _ + 1 => .ok v
  | .variable name, _ + 1 => .ok (lookup (.record bindings) (nameParts name))
  | .compare c left right, depth + 1 => do
    let l ← left.eval bindings depth
    let r ← right.eval bindings depth
    return .bool (← compareValues c l r)
  | .negation e, depth + 1 => do
    let v ← e.eval bindings depth
    pure (.bool (!truth v))
  | .both left right, depth + 1 => do
    let l ← left.eval bindings depth
    if truth l then
      let r ← right.eval bindings depth
      pure (.bool (truth r))
    else pure (.bool false)
  | .either left right, depth + 1 => do
    let l ← left.eval bindings depth
    if truth l then pure (.bool true)
    else
      let r ← right.eval bindings depth
      pure (.bool (truth r))

/-- The value of a guard. -/
def value (guard : String) (bindings : Fields) : Except Fault Value := do
  let e ← Expression.read guard
  e.eval bindings depthLimit

/-- Whether a guard holds. -/
def evaluate (guard : String) (bindings : Fields) : Except Fault Bool :=
  (value guard bindings).map truth

end Runbook.Guard
