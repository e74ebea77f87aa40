import Runbook.Yaml.Scalar.Table

/-!
What a YAML document says, as a tree: scalars, lists, lists of pairs, sets and mappings. A
collection that is met again inside itself is a leaf, and so is what lies too deep to be shown.
-/
namespace Runbook.Yaml

inductive Datum where
  | scalar (s : Scalar)
  | list (items : List Datum)
  | pairs (items : List (Datum × Datum))
  | set (items : List Scalar)
  | mapping (entries : List (Scalar × Datum))
  /-- A collection met again inside itself. -/
  | again (isMapping : Bool)
  /-- A collection that lies too deep. -/
  | tooDeep
  deriving Repr, Inhabited

namespace Datum

/-- The value under a name. -/
def get? (name : String) (entries : List (Scalar × Datum)) : Option Datum :=
  (entries.find? fun e => e.1.sameKey (.text name)).map (·.2)

mutual

/-- A datum as messages show it. The members of a set are shown in the order of its table. -/
def shown : Datum → String
  | .scalar s => s.shown
  | .list items => Value.bracketed '[' ']' (shownItems items)
  | .pairs items => Value.bracketed '[' ']' (shownPairs items)
  | .set [] => "set()"
  | .set items => Value.bracketed '{' '}' ((Scalar.tableOrder items).map Scalar.shown)
  | .mapping entries => Value.bracketed '{' '}' (shownEntries entries)
  | .again true => "\x7b...\x7d"
  | .again false => "[...]"
  | .tooDeep => ""

def shownItems : List Datum → List String
  | [] => []
  | d :: rest => shown d :: shownItems rest

def shownPairs : List (Datum × Datum) → List String
  | [] => []
  | (k, v) :: rest => Value.bracketed '(' ')' [shown k, shown v] :: shownPairs rest

def shownEntries : List (Scalar × Datum) → List String
  | [] => []
  | (k, v) :: rest => (k.shown ++ ": " ++ shown v) :: shownEntries rest

end

mutual

/-- Why a datum cannot be shown, if it cannot: the first part that lies too deep or is an integer
with too many digits. -/
def unshowable? : Datum → Option Failure
  | .scalar s => if s.isTooLong then some (.scalar .tooLongToWrite) else none
  | .list items => unshowableItems? items
  | .pairs items => unshowablePairs? items
  | .set items => if items.any Scalar.isTooLong then some (.scalar .tooLongToWrite) else none
  | .mapping entries => unshowableEntries? entries
  | .again _ => none
  | .tooDeep => some .tooDeep

def unshowableItems? : List Datum → Option Failure
  | [] => none
  | d :: rest => (unshowable? d).or (unshowableItems? rest)

def unshowablePairs? : List (Datum × Datum) → Option Failure
  | [] => none
  | (k, v) :: rest => (unshowable? k).or ((unshowable? v).or (unshowablePairs? rest))

def unshowableEntries? : List (Scalar × Datum) → Option Failure
  | [] => none
  | (k, v) :: rest =>
    if k.isTooLong then some (.scalar .tooLongToWrite)
    else (unshowable? v).or (unshowableEntries? rest)

end

/-- The text of a datum on its own. -/
def plain (d : Datum) : Reading String :=
  match d.unshowable?, d with
  | some f, _ => .error f
  | none, .scalar s => .ok s.plain
  | none, d => .ok d.shown

/-- Whether some collection of a datum is met again inside itself, or lies too deep. -/
def isEndless : Datum → Bool := go
where
  go : Datum → Bool
    | .list items => goItems items
    | .pairs items => goPairs items
    | .mapping entries => goEntries entries
    | .again _ | .tooDeep => true
    | _ => false
  goItems : List Datum → Bool
    | [] => false
    | d :: rest => go d || goItems rest
  goPairs : List (Datum × Datum) → Bool
    | [] => false
    | (k, v) :: rest => go k || go v || goPairs rest
  goEntries : List (Scalar × Datum) → Bool
    | [] => false
    | (_, v) :: rest => go v || goEntries rest

end Datum

end Runbook.Yaml
