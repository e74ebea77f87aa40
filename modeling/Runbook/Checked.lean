import Runbook.Value

/-!
Checking a value part by part. A check goes on after a part that is wrong, so that it ends with
all the places where something is wrong: for each one the keys and positions that lead there.
-/
namespace Runbook

abbrev Spot := List String

abbrev Checked (α : Type) := Except (List Spot) α

namespace Checked

variable {α β : Type}

/-- The value as a whole is not what it should be. -/
def wrong : Checked α := .error [[]]

def ofOption : Option α → Checked α
  | some a => .ok a
  | none => wrong

/-- Gives a function its next argument; what is wrong in either is wrong in both. -/
def also (f : Checked (α → β)) (x : Checked α) : Checked β :=
  match f, x with
  | .ok f, .ok x => .ok (f x)
  | .ok _, .error e => .error e
  | .error e, .ok _ => .error e
  | .error e, .error e' => .error (e ++ e')

/-- The same check, of a part under a key. -/
def under (key : String) (x : Checked α) : Checked α :=
  x.mapError fun spots => spots.map (key :: ·)

/-- Checks every part of a list, each under its own key. -/
def every : List (Checked α) → Checked (List α)
  | [] => .ok []
  | x :: rest => also (x.map List.cons) (every rest)

/-- The part under a key, which has to be there. -/
def field (key : String) (read : Value → Checked α) (fields : Fields) : Checked α :=
  under key (match Keyed.get? key fields with
    | some v => read v
    | none => wrong)

/-- The part under a key, or else what stands for it. -/
def fieldOr (key : String) (default : α) (read : Value → Checked α) (fields : Fields) :
    Checked α :=
  match Keyed.get? key fields with
  | some v => under key (read v)
  | none => .ok default

/-- Text of characters; one with halves of surrogate pairs is none. -/
def text : Value → Checked String
  | .text s => if Text.hasHalves s then wrong else .ok s
  | _ => wrong

/-- Null, or what another reader reads. -/
def optional (read : Value → Checked α) : Value → Checked (Option α)
  | .null => .ok none
  | v => (read v).map some

def list (read : Value → Checked α) : Value → Checked (List α)
  | .list items => every (items.zipIdx.map fun i => under (toString i.2) (read i.1))
  | _ => wrong

def record (read : Fields → Checked α) : Value → Checked α
  | .record fields => read fields
  | _ => wrong

/-- A record whose keys are texts of characters and whose fields are all of one kind. -/
def dictionary (read : Value → Checked α) : Value → Checked (List (String × α)) :=
  record fun fields => every (fields.map fun f =>
    under (Text.replaceHalves f.1)
      (also ((under "[key]" (text (.text f.1))).map Prod.mk) (read f.2)))

end Checked

end Runbook
