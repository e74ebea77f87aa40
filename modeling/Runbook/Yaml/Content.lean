import Runbook.Yaml.Datum
import Runbook.Yaml.Graph.Merge
import Runbook.Yaml.Graph.Reader
import Runbook.Yaml.Scalar.Notation

/-!
From nodes to what they say. Each node is made into a part once, when it is first met: a scalar
into its value, and a collection into its number alone, by which it waits to be filled. The
collections are filled in the order in which they were met, so of two faults in a document the
one that lies less deep is reported, and of two on one level the first.
-/
namespace Runbook.Yaml

/-- A scalar, or a collection by the number of its node. -/
inductive Part where
  | scalar (s : Scalar)
  | collection (n : Nat)
  deriving Repr, Inhabited

inductive Collection where
  | list (items : List Part)
  | pairs (items : List (Part × Part))
  | set (items : List Scalar)
  | mapping (entries : List (Scalar × Part))
  deriving Repr

/-- What a document says: its collections by number, and the part that is all of it. -/
structure Content where
  collections : Array (Option Collection)
  root : Part

/-- What is known while nodes are made into parts. -/
structure Workshop where
  graph : Graph
  /-- The parts made so far, by the numbers of their nodes. -/
  parts : Array (Option Part)
  /-- The collections to be filled, the last one met first. -/
  waiting : List Nat

abbrev Making := StateT Workshop Reading

namespace Making

def fail {α : Type} (n : Nat) (problem : String) : Making α := do (← get).graph.fail n problem

/-- Keeps the part of a node. -/
def keep (n : Nat) (part : Part) : Making Part := do
  modify fun s => { s with parts := s.parts.setIfInBounds n (some part) }
  pure part

/-- The number of a collection that is to be filled. -/
def await (n : Nat) : Making Part := do
  modify fun s => { s with waiting := n :: s.waiting }
  keep n (.collection n)

/-- The scalar of a node with one of the scalar tags. The text of a date is looked for in the node
itself. -/
def scalar (n : Nat) : Making Scalar := do
  let g := (← get).graph
  let node := g.node n
  let text ← g.scalarText Graph.depthLimit n
  match node.tag, node.shape with
  | .timestamp, .mapping _ => throw (.scalar .notText)
  | tag, _ => Scalar.ofText tag n node.line text

/-- The part that a node is. -/
def part (n : Nat) : Making Part := do
  let s ← get
  match (s.parts[n]?).getD none with
  | some part => pure part
  | none =>
    match (s.graph.node n).tag with
    | .merge | .defaultValue => fail n "could not determine a constructor for the tag"
    | .other name => fail n s!"could not determine a constructor for the tag '{name}'"
    | .sequence | .mapping | .set | .orderedMap | .pairs => await n
    | _ => keep n (.scalar (← scalar n))

/-- Entries, the last one first, with one entry more. A key keeps its first spelling and its place,
and has the last of its values. -/
def insert (key : Scalar) (value : Part) (entries : List (Scalar × Part)) : List (Scalar × Part) :=
  if entries.any fun e => e.1.sameKey key then
    entries.map fun e => if e.1.sameKey key then (e.1, value) else e
  else (key, value) :: entries

/-- The entries of a mapping, without its merge keys. -/
def entries (n : Nat) : Making (List (Scalar × Part)) := do
  let s ← get
  let (_, graph) ← (Graph.flatten Graph.depthLimit n).run s.graph
  set { s with graph := graph }
  let found ← (graph.entries n).foldlM (fun acc (key, value) => do
    match ← part key with
    | .collection _ => fail key "found unhashable key"
    | .scalar k => return insert k (← part value) acc) []
  pure found.reverse

/-- A pair from a mapping with one entry. -/
def pair (n : Nat) : Making (Part × Part) := do
  match ((← get).graph.node n).shape with
  | .mapping [(key, value)] => return (← part key, ← part value)
  | .mapping _ => fail n "expected a single mapping item"
  | _ => fail n "expected a mapping of length 1"

/-- What a collection holds. -/
def filled (n : Nat) : Making Collection := do
  let node := (← get).graph.node n
  match node.tag, node.shape with
  | .sequence, .sequence items => .list <$> items.mapM part
  | .mapping, .mapping _ => .mapping <$> entries n
  | .set, .mapping _ => return .set ((← entries n).map (·.1))
  | .orderedMap, .sequence items | .pairs, .sequence items => .pairs <$> items.mapM pair
  | .sequence, shape => fail n s!"expected a sequence node, but found {shape.kind}"
  | .orderedMap, shape | .pairs, shape => fail n s!"expected a sequence, but found {shape.kind}"
  | _, shape => fail n s!"expected a mapping node, but found {shape.kind}"

/-- Fills the collections of one round, and gives them with their numbers. -/
def round (ns : List Nat) : Making (List (Nat × Collection)) :=
  ns.mapM fun n => return (n, ← filled n)

/-- Fills the collections that wait, and those met on the way, until there are no more. -/
def finish : Nat → Array (Option Collection) → Making (Array (Option Collection))
  | 0, done => pure done
  | fuel + 1, done => do
    let ns := (← get).waiting.reverse
    if ns.isEmpty then pure done
    else
      modify fun s => { s with waiting := [] }
      let found ← round ns
      finish fuel (found.foldl (fun done (n, c) => done.setIfInBounds n (some c)) done)

end Making

namespace Content

/-- What the nodes of a graph say from a root on. Each round fills collections that were never met
before, so there are no more rounds than nodes. -/
def ofGraph (g : Graph) (root : Nat) : Reading Content := do
  let count := g.nodes.size
  let ((collections, part), _) ← (do
      let part ← Making.part root
      let collections ← Making.finish (count + 1) (Array.replicate count none)
      pure (collections, part) : Making _).run ⟨g, Array.replicate count none, []⟩
  pure ⟨collections, part⟩

/-- What an empty text says. -/
def null : Content := ⟨#[], .scalar .null⟩

/-- Reads the document of a text; a text without a document says null. -/
def read (s : String) : Reading Content := do
  match ← Graph.read s with
  | (_, none) => pure null
  | (g, some root) => ofGraph g root

def collection? (c : Content) (n : Nat) : Option Collection := (c.collections[n]?).getD none

/-- The tree of a part. `around` are the collections it lies in, of which there are at most `depth`
more. -/
def tree (c : Content) : Nat → List Nat → Part → Datum
  | _, _, .scalar s => .scalar s
  | 0, _, .collection _ => .tooDeep
  | depth + 1, around, .collection n =>
    let below := tree c depth (n :: around)
    match around.contains n, c.collection? n with
    | true, some (.mapping _) => .again true
    | true, _ => .again false
    | false, some (.list items) => .list (items.map below)
    | false, some (.pairs items) => .pairs (items.map fun (k, v) => (below k, below v))
    | false, some (.set items) => .set items
    | false, some (.mapping entries) => .mapping (entries.map fun (k, v) => (k, below v))
    | false, none => .tooDeep

/-- How many collections may lie in each other where one is shown. -/
def treeLimit : Nat := 980

/-- A part as a tree of its own. -/
def datum (c : Content) (p : Part) : Datum := c.tree treeLimit [] p

end Content

/-- The entries of a document that is a mapping. -/
structure Entries where
  content : Content
  entries : List (Scalar × Part)

namespace Entries

/-- No entries at all. -/
def none : Entries := ⟨.null, []⟩

/-- The entries of a document: those of a mapping, and none of one that says null. -/
def ofContent? (c : Content) : Option Entries :=
  match c.root with
  | .scalar .null => some none
  | .scalar _ => Option.none
  | .collection n =>
    match c.collection? n with
    | some (.mapping entries) => some ⟨c, entries⟩
    | _ => Option.none

/-- The value under a name. -/
def get? (name : String) (e : Entries) : Option Datum :=
  (e.entries.find? fun entry => entry.1.sameKey (.text name)).map fun entry =>
    e.content.datum entry.2

/-- The keys in their order. -/
def keys (e : Entries) : List Scalar := e.entries.map (·.1)

/-- The mapping as a whole. -/
def datum (e : Entries) : Datum :=
  match e.content.root with
  | .collection _ => e.content.datum e.content.root
  | .scalar _ => .mapping []

end Entries

end Runbook.Yaml
