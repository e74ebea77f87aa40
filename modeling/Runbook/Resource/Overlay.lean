import Runbook.Keyed
import Runbook.Log.Recorded
import Runbook.Resource

/-!
Overlays: built-in resources with directory trees laid over them, one after another. A resource
of a later tree takes the place of an earlier one with its name. Loading reads every tree anew;
a load that fails changes nothing.
-/
namespace Runbook

/-- A directory tree that resources are read from. It may be missing. -/
structure Resource.Root where
  path : Path
  tier : Tier
  deriving DecidableEq, Repr

/-- Why a tree cannot be read. -/
inductive Resource.Fault where
  | notDirectory (path : Path)
  | notText (path : Path)
  deriving DecidableEq, Repr

def Resource.Fault.message : Resource.Fault → String
  | .notDirectory path => s!"Resource root is not a directory: {path.text}"
  | .notText path => s!"Cannot read resource file {path.text}: not a text in UTF-8"

structure Overlay where
  kind : String
  extensions : List String
  embedded : List (String × Resource)
  /-- The trees in the order in which they are laid over each other. -/
  roots : List Resource.Root
  /-- What the last load has found. -/
  resources : List (String × Resource)

namespace Overlay

open Log

def empty (kind : String) (extensions : List String) : Overlay := ⟨kind, extensions, [], [], []⟩

def addEmbedded (o : Overlay) (name content : String) : Overlay :=
  { o with embedded := Keyed.set name ⟨name, content, .embedded, none⟩ o.embedded }

def addRoot (o : Overlay) (path : Path) (tier : Tier) : Overlay :=
  { o with roots := o.roots ++ [⟨path, tier⟩] }

def logger : String := "toolsmith.resources.vfs"

/-- A file that holds a resource: the name of the resource, where the file is, and what it holds. -/
structure Found where
  name : String
  path : Path
  bytes : ByteArray

/-- The files of resources in a tree, in the order of their paths. -/
def candidates (files : Files) (extensions : List String) (root : Path) : List Found :=
  match files.locate root with
  | .error _ => []
  | .ok location =>
    (files.filesBelow location).filterMap fun (names, bytes) =>
      (Resource.nameOf? extensions names).map fun name =>
        ⟨name, root ++ ⟨false, names⟩, bytes⟩

def duplicateRecord (kind : String) (f : Found) : Record :=
  .plain warning logger "Duplicate resource name within one root; last scanned wins"
    [("kind", .text kind), ("resource", .text f.name), ("path", .text f.path.text)]

/-- Reads files one after another. A name that was met before is worth a warning. -/
def readAll (kind : String) (tier : Tier) :
    List String → List Found → Recorded Resource.Fault (List Resource)
  | _, [] => pure []
  | met, f :: rest => do
    if met.contains f.name then Recorded.write (duplicateRecord kind f)
    match Files.text? f.bytes with
    | none => throw (.notText f.path)
    | some content =>
      let others ← readAll kind tier (f.name :: met) rest
      pure (⟨f.name, content, tier, some f.path⟩ :: others)

/-- The resources of a tree. A tree that is missing has none. -/
def scan (files : Files) (o : Overlay) (root : Resource.Root) :
    Recorded Resource.Fault (List Resource) :=
  match files.content? root.path with
  | none => pure []
  | some (.file _) => throw (.notDirectory root.path)
  | some .directory => readAll o.kind root.tier [] (candidates files o.extensions root.path)

def overrideRecord (kind : String) (older newer : Resource) : Record :=
  .plain debug logger "Resource overridden"
    [("kind", .text kind), ("resource", .text newer.name), ("from_tier", .text older.tier.name),
      ("to_tier", .text newer.tier.name)]

/-- Lays resources over others. That one of another tier is replaced is worth a record. -/
def layOver (kind : String) :
    List (String × Resource) → List Resource →
      Recorded Resource.Fault (List (String × Resource))
  | merged, [] => pure merged
  | merged, r :: rest => do
    match Keyed.get? r.name merged with
    | some older =>
      if older.tier ≠ r.tier then Recorded.write (overrideRecord kind older r)
    | none => pure ()
    layOver kind (Keyed.set r.name r merged) rest

def layRoots (files : Files) (o : Overlay) :
    List (String × Resource) → List Resource.Root →
      Recorded Resource.Fault (List (String × Resource))
  | merged, [] => pure merged
  | merged, root :: rest => do
    let found ← o.scan files root
    let merged ← layOver o.kind merged found
    layRoots files o merged rest

/-- The overlay with everything read anew. -/
def load (files : Files) (o : Overlay) : Recorded Resource.Fault Overlay := do
  let merged ← o.layRoots files o.embedded o.roots
  Recorded.write (.plain debug logger "Resources loaded"
    [("kind", .text o.kind), ("count", .int merged.length), ("roots", .int o.roots.length)])
  pure { o with resources := merged }

def get? (o : Overlay) (name : String) : Option Resource := Keyed.get? name o.resources

def contains (o : Overlay) (name : String) : Bool := Keyed.has name o.resources

/-- The resources in the order of their names. -/
def list (o : Overlay) : List Resource := (Keyed.sorted o.resources).map (·.2)

/-- The trees that exist, each once, by their locations. -/
def directories (files : Files) (o : Overlay) : List Path :=
  (o.roots.filter fun r => files.isDirectory r.path).foldl
    (fun found r =>
      let p := Path.ofNames (r.path.resolve files.base)
      if found.contains p then found else found ++ [p]) []

end Overlay

end Runbook
