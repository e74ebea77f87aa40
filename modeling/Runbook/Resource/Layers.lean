import Runbook.Prompt
import Runbook.Resource.Overlay
import Runbook.Workflow.Document

/-!
Layers of resources of one kind: those built in, under those of the user's own directory, under
those of the directories above the place of work, the nearest on top. A load reads every layer
and then every resource before any item is handed over, so that one malformed file leaves things
as they are.
-/
namespace Runbook

open Log

/-- What is particular to a kind of resource. -/
structure Resource.Kind (α : Type) where
  name : String
  extensions : List String
  /-- Reads an item with a name from a content. -/
  read : String → String → Recorded Refusal α
  nameOf : α → String
  /-- What is written when an item takes the place of another one. -/
  replaced : String → Record

def Prompt.kind : Resource.Kind Prompt where
  name := "prompts"
  extensions := [".md", ".markdown", ".liquid", ".md.liquid"]
  read := fun name content => Recorded.ofExcept (Prompt.parse name content)
  nameOf := Prompt.name
  replaced := fun name =>
    .plain debug "toolsmith.prompts.library" "Replacing prompt" [("prompt", .text name)]

namespace Workflow

/-- Reads a workflow and writes a record of it. -/
def Definition.read (name content : String) : Recorded Refusal Definition := do
  let d ← Recorded.ofExcept (Definition.parse content (some name))
  Recorded.write d.parsedRecord
  pure d

def Definition.kind : Resource.Kind Definition where
  name := "workflows"
  extensions := [".md", ".mermaid"]
  read := Definition.read
  nameOf := Definition.name
  replaced := fun name =>
    .plain debug "toolsmith.workflow.registry" "Replacing workflow" [("workflow", .text name)]

end Workflow

/-- Items by name. -/
abbrev Collection (α : Type) := List (String × α)

/-- Why resources cannot be loaded. -/
inductive LoadFault where
  | unreadable (f : Resource.Fault)
  | refused (r : Refusal)
  deriving DecidableEq, Repr

def LoadFault.message : LoadFault → String
  | .unreadable f => f.message
  | .refused r => r.message

structure Layers (α : Type) where
  kind : Resource.Kind α
  embedded : List (String × String)
  home : Path
  /-- The place of work. -/
  start : Path
  /-- The directory that holds resources, in the user's own directory and in those of projects. -/
  dirName : String
  /-- What the last load has read; without trees before the first one. -/
  overlay : Overlay
  sources : List (String × Tier)

namespace Layers

variable {α : Type}

def new (kind : Resource.Kind α) (embedded : List (String × String)) (home start : Path)
    (dirName : String) : Layers α :=
  ⟨kind, embedded, home, start, dirName, Overlay.empty kind.name kind.extensions, []⟩

def logger : String := "toolsmith.resources.resolver"

/-- Where a directory may hold resources of a kind. -/
def place (directory : Path) (dirName kind : String) : Path := (directory.child dirName).child kind

/-- A directory and those above it, from the root down. -/
def ancestors (location : Location) : List Path :=
  (List.range (location.length + 1)).map fun n => Path.ofNames (location.take n)

/-- The trees of a kind above a place of work that exist and are not excluded, the nearest last. -/
def localRoots (files : Files) (start : Path) (dirName kind : String) (excluded : List Path) :
    List Path :=
  let taken := excluded.map (Path.resolve files.base)
  ((ancestors (start.resolve files.base)).map fun d => place d dirName kind).filter fun p =>
    files.isDirectory p && !taken.contains (p.resolve files.base)

def userRoot (l : Layers α) : Path := place l.home l.dirName l.kind.name

/-- The layers as an overlay that is yet to be loaded. -/
def register (files : Files) (l : Layers α) : Overlay :=
  let base := l.embedded.foldl (fun o e => o.addEmbedded e.1 e.2)
    (Overlay.empty l.kind.name l.kind.extensions)
  (localRoots files l.start l.dirName l.kind.name [l.userRoot]).foldl
    (fun o p => o.addRoot p .project) (base.addRoot l.userRoot .user)

/-- All items and where they come from, not yet handed over. -/
structure Resolution (α : Type) where
  items : List α
  sources : List (String × Tier)
  overlay : Overlay

def refusedRecord (kind : String) (r : Resource) : Record :=
  .plain error logger "Resource failed to parse"
    [("kind", .text kind), ("resource", .text r.name), ("tier", .text r.tier.name)]

/-- Reads the item of a resource. A fault is one of the resource. -/
def parse (l : Layers α) (r : Resource) : Recorded LoadFault α :=
  (l.kind.read r.name r.content).adapt fun e => .refused (e.within r.name r.tier)

/-- Reads the item of a resource and writes a record of a fault. -/
def parseOrReport (l : Layers α) (r : Resource) : Recorded LoadFault α :=
  tryCatch (l.parse r) fun e => do
    match e with
    | .refused (.fault _) => Recorded.write (refusedRecord l.kind.name r)
    | _ => pure ()
    throw e

/-- Every layer anew, without parsing. -/
def scanned (files : Files) (l : Layers α) : Recorded LoadFault Overlay :=
  ((l.register files).load files).adapt .unreadable

def resolve (files : Files) (l : Layers α) : Recorded LoadFault (Resolution α) := do
  let overlay ← l.scanned files
  let items ← overlay.list.mapM l.parseOrReport
  pure ⟨items, overlay.list.map fun r => (r.name, r.tier), overlay⟩

def add (kind : Resource.Kind α) (store : Collection α) (item : α) :
    Recorded LoadFault (Collection α) := do
  let name := kind.nameOf item
  if Keyed.has name store then Recorded.write (kind.replaced name)
  pure (Keyed.set name item store)

/-- Hands all items over. -/
def commit (files : Files) (r : Resolution α) (store : Collection α) (l : Layers α) :
    Recorded LoadFault (Layers α × Collection α) := do
  let store ← r.items.foldlM (add l.kind) store
  Recorded.write (.plain info logger "Resources resolved"
    [("kind", .text l.kind.name), ("count", .int r.sources.length),
      ("directories", .list ((r.overlay.directories files).map fun p => .text p.text))])
  pure ({ l with overlay := r.overlay, sources := r.sources }, store)

def load (files : Files) (store : Collection α) (l : Layers α) :
    Recorded LoadFault (Layers α × Collection α) := do
  l.commit files (← l.resolve files) store

/-- What the last load has read. -/
def resources (l : Layers α) : List Resource := l.overlay.list

def scan (files : Files) (l : Layers α) : Recorded LoadFault (List Resource) := do
  return (← l.scanned files).list

/-- The trees that count: those of the last load, or else those of now, which are then kept. -/
def directories (files : Files) (l : Layers α) : List Path × Layers α :=
  let l := if l.overlay.roots.isEmpty then { l with overlay := l.register files } else l
  (l.overlay.directories files, l)

end Layers

end Runbook
