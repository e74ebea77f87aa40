import Runbook.Files.Path
import Runbook.Text.Half
import Runbook.Text.Lines

/-!
Files and directories. Every entry has a location, its names from the root; the root is a directory.
A path leads to a location only through directories that exist, also where it turns back.
-/
namespace Runbook

abbrev Location := List String

inductive Content where
  | directory
  | file (bytes : ByteArray)

def Content.same : Content → Content → Bool
  | .directory, .directory => true
  | .file bytes, .file others => bytes.data == others.data
  | _, _ => false

structure Files where
  entries : List (Location × Content)
  /-- Where relative paths start. -/
  base : Location

/-- Why a file operation is not carried out. -/
inductive FileFault where
  | missing
  | notDirectory
  | isDirectory
  | exists
  /-- A name has more than 255 bytes. -/
  | tooLong
  /-- A name holds the character that ends names. -/
  | zero
  /-- A name holds a half of a surrogate pair. -/
  | halved
  deriving DecidableEq, Repr

/-- A change to files that is carried out as a whole or not at all. -/
inductive FileStep where
  | makeDirectories (p : Path)
  | write (p : Path) (bytes : ByteArray)
  | rename (source target : Path)

namespace Files

def find? (location : Location) : List (Location × Content) → Option Content
  | [] => none
  | (l, c) :: rest => if l = location then some c else find? location rest

def store (location : Location) (content : Content) :
    List (Location × Content) → List (Location × Content)
  | [] => [(location, content)]
  | (l, c) :: rest =>
    if l = location then (l, content) :: rest else (l, c) :: store location content rest

def at? (f : Files) (location : Location) : Option Content :=
  if location.isEmpty then some .directory else find? location f.entries

def set (f : Files) (location : Location) (content : Content) : Files :=
  { f with entries := store location content f.entries }

/-- Makes the directories above a location that are missing. -/
def openWay (f : Files) (location : Location) : Files :=
  (List.range location.length).foldl
    (fun f n =>
      if (f.at? (location.take n)).isSome then f else f.set (location.take n) .directory) f

/-- Puts an entry where it belongs; a directory that is there already stays. -/
def place (f : Files) (location : Location) (content : Content) : Files :=
  let f := f.openWay location
  match content, f.at? location with
  | .directory, some _ => f
  | _, _ => f.set location content

/-- Takes away an entry and everything below it. -/
def remove (f : Files) (location : Location) : Files :=
  { f with entries := f.entries.filter fun e => !location.isPrefixOf e.1 }

/-- How many bytes a name may have. -/
def nameLimit : Nat := 255

/-- Follows names from a directory. All but the last have to be directories. -/
def follow (f : Files) : Location → List String → Except FileFault Location
  | location, [] => .ok location
  | location, name :: rest =>
    match f.at? location with
    | none => .error .missing
    | some (.file _) => .error .notDirectory
    | some .directory =>
      if nameLimit < name.utf8ByteSize then .error .tooLong
      else follow f (if name = ".." then location.dropLast else location ++ [name]) rest

/-- The location a path leads to, where there may be nothing yet. What no name can hold is refused
before the path is followed. -/
def locate (f : Files) (p : Path) : Except FileFault Location :=
  if p.names.any fun name => name.toList.contains '\x00' then .error .zero
  else if p.names.any Text.hasHalves then .error .halved
  else f.follow (if p.absolute then [] else f.base) p.names

def content? (f : Files) (p : Path) : Option Content :=
  match f.locate p with
  | .ok location => f.at? location
  | .error _ => none

def isDirectory (f : Files) (p : Path) : Bool :=
  match f.content? p with
  | some .directory => true
  | _ => false

def read (f : Files) (p : Path) : Except FileFault ByteArray := do
  let location ← f.locate p
  match f.at? location with
  | some (.file bytes) => pure bytes
  | some .directory => throw .isDirectory
  | none => throw .missing

/-- Makes one directory, in a directory that exists. -/
def makeDirectory (f : Files) (p : Path) : Except FileFault Files := do
  let location ← f.locate p
  if p.name = ".." ∨ (f.at? location).isSome then throw .exists
  else
    match f.at? location.dropLast with
    | some .directory => pure (f.set location .directory)
    | _ => throw .missing

/-- Makes one directory unless there is one already. -/
def ensureDirectory (f : Files) (p : Path) : Except FileFault Files :=
  match f.makeDirectory p with
  | .ok made => .ok made
  | .error e => if f.isDirectory p then .ok f else .error e

/-- Makes a directory and those above it that are missing. -/
def makeDirectories (f : Files) (absolute : Bool) (names : List String) :
    Except FileFault Files :=
  match f.makeDirectory ⟨absolute, names⟩ with
  | .error .missing =>
    if _h : names = [] then .error .missing
    else do
      let f ← makeDirectories f absolute names.dropLast
      f.ensureDirectory ⟨absolute, names⟩
  | _ => f.ensureDirectory ⟨absolute, names⟩
  termination_by names.length
  decreasing_by
    have := List.length_pos_iff.2 _h
    rw [List.length_dropLast]
    exact Nat.sub_lt this Nat.one_pos

/-- Writes a file, in a directory that exists. -/
def write (f : Files) (p : Path) (bytes : ByteArray) : Except FileFault Files := do
  let location ← f.locate p
  match f.at? location, f.at? location.dropLast with
  | some .directory, _ => throw .isDirectory
  | _, some .directory => pure (f.set location (.file bytes))
  | _, some (.file _) => throw .notDirectory
  | _, none => throw .missing

/-- Moves a file to another place, over a file that may be there. -/
def rename (f : Files) (source target : Path) : Except FileFault Files := do
  let location ← f.locate source
  let place ← f.locate target
  match f.at? location, f.at? place with
  | some (.file _), some .directory => throw .isDirectory
  | some (.file bytes), _ => pure ((f.remove location).set place (.file bytes))
  | _, _ => throw .missing

/-- Carries out one step. -/
def step (f : Files) : FileStep → Except FileFault Files
  | .makeDirectories p => f.makeDirectories p.absolute p.names
  | .write p bytes => f.write p bytes
  | .rename source target => f.rename source target

/-- Carries out steps up to the first one that cannot be. -/
def steps (f : Files) : List FileStep → Files × Option FileFault
  | [] => (f, none)
  | s :: rest =>
    match f.step s with
    | .ok f => steps f rest
    | .error e => (f, some e)

/-- The text that bytes hold, every break made of carriage returns turned into a line feed. -/
def text? (bytes : ByteArray) : Option String :=
  (String.fromUTF8? bytes).map fun s => String.ofList (Text.unifyBreaks s.toList)

def lexLe (a b : List String) : Bool := !decide (b < a)

/-- The files below a location by the names that lead to them, in the order of those names. -/
def filesBelow (f : Files) (location : Location) : List (List String × ByteArray) :=
  let found := f.entries.filterMap fun e => match e.2 with
    | .file bytes =>
      if location.isPrefixOf e.1 then some (e.1.drop location.length, bytes) else none
    | .directory => none
  found.mergeSort fun a b => lexLe a.1 b.1

/-- Everything below a location, directories too, by path text in increasing order. -/
def listing (f : Files) (location : Location) : List String :=
  let found := f.entries.filterMap fun e =>
    if location.isPrefixOf e.1 && location.length < e.1.length then
      some (String.intercalate "/" (e.1.drop location.length))
    else none
  found.mergeSort fun a b => decide (a ≤ b)

end Files

end Runbook
