import Runbook.Text.Quoted

/-!
Faults in documents. A fault has a cause and, as far as they are known, the line it shows on,
the text near it, and the resource it was found in with the tier that supplied it. Its text
names all of these.
-/
namespace Runbook

/-- Where a resource comes from: built in, the user's own directory, or a directory of the
project. -/
inductive Tier where
  | embedded
  | user
  | project
  deriving DecidableEq, Repr

def Tier.name : Tier → String
  | .embedded => "embedded"
  | .user => "user"
  | .project => "local"

structure Fault (κ : Type) where
  cause : κ
  /-- Documents count their lines from one; a caller may number a text of its own as it likes. -/
  line : Option Int
  token : Option String
  resource : Option String
  tier : Option Tier
  deriving DecidableEq, Repr

namespace Fault

variable {κ : Type}

/-- A fault on a line of a document. -/
def atLine (line : Nat) (cause : κ) (token : Option String) : Fault κ :=
  ⟨cause, some (line : Int), token, none, none⟩

/-- The same fault as one of a resource. -/
def within (f : Fault κ) (resource : String) (tier : Tier) : Fault κ :=
  { f with resource := some resource, tier := some tier }

/-- The resource, with its tier in parentheses. -/
def whereabouts (f : Fault κ) : Option String :=
  f.resource.map fun r => match f.tier with
    | none => r
    | some t => s!"{r} ({t.name})"

/-- Resource and line, as far as they are known. -/
def place (f : Fault κ) : String :=
  String.intercalate ", " (f.whereabouts.toList ++ (f.line.map fun n => s!"line {n}").toList)

/-- The text near the fault, in quotes, if there is any. -/
def nearby (f : Fault κ) : String :=
  match f.token with
  | none => ""
  | some t => if t.isEmpty then "" else s!" (near {Text.quoted t})"

/-- The whole text of a fault, given the wording of its cause. -/
def text (wording : κ → String) (f : Fault κ) : String :=
  (if f.place.isEmpty then wording f.cause else s!"{f.place}: {wording f.cause}") ++ f.nearby

end Fault

end Runbook
