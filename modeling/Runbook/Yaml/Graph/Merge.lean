import Runbook.Yaml.Graph

/-!
Merge keys. A mapping takes in the entries of the mappings under its merge keys, in front of its
own; of a list of mappings the last one comes first. The merge keys themselves are taken out
before what they hold is looked at, so a mapping that is merged into itself comes to an end. A
default-value key that is met on the way is from then on plain text.
-/
namespace Runbook.Yaml.Graph

/-- Takes the first merge key out of a mapping, and gives what is under it. -/
def takeMerge (n : Nat) (g : Graph) : Option (Nat × Graph) :=
  let entries := g.entries n
  let isMerge := fun (e : Nat × Nat) => (g.node e.1).tag == .merge
  match entries.dropWhile fun e => !isMerge e with
  | [] => none
  | (_, value) :: rest =>
    some (value, g.setShape n (.mapping (entries.takeWhile (fun e => !isMerge e) ++ rest)))

abbrev Merging := StateT Graph Reading

def entriesOf (n : Nat) : Merging (List (Nat × Nat)) := do return (← get).entries n

/-- The entries of the items of a list, each of which is a mapping that is flattened first. -/
def itemEntries (flatten : Nat → Merging Unit) : List Nat → Merging (List (Nat × Nat))
  | [] => pure []
  | item :: rest => do
    let g ← get
    match (g.node item).shape with
    | .mapping _ =>
      flatten item
      let here ← entriesOf item
      let more ← itemEntries flatten rest
      pure (more ++ here)
    | _ => g.fail item "expected a mapping for merging"

/-- The entries that a merge key with a value brings in. -/
def broughtIn (flatten : Nat → Merging Unit) (value : Nat) : Merging (List (Nat × Nat)) := do
  let g ← get
  match (g.node value).shape with
  | .mapping _ =>
    flatten value
    entriesOf value
  | .sequence items => itemEntries flatten items
  | .scalar _ => g.fail value "expected a mapping or list of mappings for merging"

/-- Takes all merge keys out of a mapping, and gives what they bring in. -/
def takeMerges (flatten : Nat → Merging Unit) (n : Nat) : Nat → Merging (List (Nat × Nat))
  | 0 => pure []
  | fuel + 1 => do
    match takeMerge n (← get) with
    | none => pure []
    | some (value, g) =>
      set g
      let here ← broughtIn flatten value
      let more ← takeMerges flatten n fuel
      pure (here ++ more)

/-- Makes default-value keys plain text. -/
def plainKeys (entries : List (Nat × Nat)) (g : Graph) : Graph :=
  entries.foldl (fun g e =>
    if (g.node e.1).tag == .defaultValue then g.setTag e.1 .text else g) g

/-- Replaces the merge keys of a mapping by the entries they bring in. -/
def flatten : Nat → Nat → Merging Unit
  | 0, _ => throw .tooDeep
  | depth + 1, n => do
    let own ← entriesOf n
    let merged ← takeMerges (flatten depth) n (own.length + 1)
    modify fun g => plainKeys (g.entries n) g
    if !merged.isEmpty then
      modify fun g => g.setShape n (.mapping (merged ++ g.entries n))

end Runbook.Yaml.Graph
