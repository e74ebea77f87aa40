import Runbook.Text.Parts

/-!
Paths: names in order, from the root or from wherever the reader stands. Empty names and single
dots are dropped when a path is read; double dots stay until the path is resolved.
-/
namespace Runbook

structure Path where
  absolute : Bool
  names : List String
  deriving DecidableEq, Repr, Inhabited

namespace Path

def isName (s : String) : Bool := !s.isEmpty && s != "."

def ofString (s : String) : Path :=
  ⟨s.toList.head? == some '/',
    ((Text.parts '/' s.toList).map String.ofList).filter isName⟩

def ofNames (names : List String) : Path := ⟨true, names⟩

/-- A path's names with slashes between them; the path of no names is a dot. -/
def text (p : Path) : String :=
  let joined := String.intercalate "/" p.names
  if p.absolute then "/" ++ joined else if joined.isEmpty then "." else joined

/-- A path taken from another one; an absolute path stands for itself. -/
def append (p q : Path) : Path := if q.absolute then q else ⟨p.absolute, p.names ++ q.names⟩

instance : HAppend Path Path Path := ⟨append⟩

def child (p : Path) (s : String) : Path := p ++ ofString s

/-- The last name, or nothing. -/
def name (p : Path) : String := p.names.getLast?.getD ""

def parent (p : Path) : Path := { p with names := p.names.dropLast }

/-- The path with more text at the end of its last name. -/
def extend (p : Path) (s : String) : Path :=
  { p with names := p.names.dropLast ++ [p.name ++ s] }

/-- Names with double dots carried out; above the root there is only the root. -/
def collapse (names : List String) : List String :=
  names.foldl (fun acc s => if s = ".." then acc.dropLast else acc ++ [s]) []

/-- The names from the root, for a reader who stands at `base`. -/
def resolve (base : List String) (p : Path) : List String :=
  collapse (if p.absolute then p.names else base ++ p.names)

end Path

end Runbook
