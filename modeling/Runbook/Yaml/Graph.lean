import Runbook.Yaml.Failure
import Runbook.Yaml.Tag

/-!
The nodes of a YAML document. A node has a tag, the line it begins on, and is a scalar, a
sequence or a mapping. Nodes refer to each other by number, so a node may stand in several
places, and inside itself.
-/
namespace Runbook.Yaml

inductive Shape where
  | scalar (text : String)
  | sequence (items : List Nat)
  | mapping (entries : List (Nat × Nat))
  deriving Repr

def Shape.kind : Shape → String
  | .scalar _ => "scalar"
  | .sequence _ => "sequence"
  | .mapping _ => "mapping"

structure Node where
  tag : Tag
  shape : Shape
  line : Nat
  deriving Repr

/-- The nodes of a document by number. -/
structure Graph where
  nodes : Array Node
  deriving Repr

namespace Graph

def empty : Graph := ⟨#[]⟩

/-- Where nothing is written, null is meant. -/
def absent : Node := ⟨.null, .scalar "", 0⟩

def node (g : Graph) (n : Nat) : Node := (g.nodes[n]?).getD absent

/-- A graph with one node more, which has the next number. -/
def add (g : Graph) (node : Node) : Graph := ⟨g.nodes.push node⟩

def setShape (g : Graph) (n : Nat) (shape : Shape) : Graph :=
  ⟨g.nodes.modify n fun node => { node with shape := shape }⟩

def setTag (g : Graph) (n : Nat) (tag : Tag) : Graph :=
  ⟨g.nodes.modify n fun node => { node with tag := tag }⟩

/-- The entries of a mapping; other nodes have none. -/
def entries (g : Graph) (n : Nat) : List (Nat × Nat) :=
  match (g.node n).shape with
  | .mapping entries => entries
  | _ => []

def fail {α : Type} (g : Graph) (n : Nat) (problem : String) : Reading α :=
  .error (.malformed problem (some (g.node n).line))

/-- How deeply mappings are merged, and how many mappings are gone through for a text. -/
def depthLimit : Nat := 980

/-- The text of a scalar. A mapping has the text that stands under its default-value key. -/
def scalarText (g : Graph) : Nat → Nat → Reading String
  | 0, _ => .error .tooDeep
  | depth + 1, n =>
    match (g.node n).shape with
    | .scalar text => .ok text
    | .mapping entries =>
      match entries.find? fun e => (g.node e.1).tag == .defaultValue with
      | some (_, value) => scalarText g depth value
      | none => g.fail n "expected a scalar node, but found mapping"
    | .sequence _ => g.fail n "expected a scalar node, but found sequence"

end Graph

end Runbook.Yaml
