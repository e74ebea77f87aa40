import Runbook.Files
import Runbook.Json.Reader
import Runbook.Log.Recorded
import Runbook.Workflow.RunRecord

/-!
Stores of runs: in memory, or in a file that holds a list of records. Putting a run replaces the
first one with its identifier or adds it at the end. The file is written next to its place and
then moved there; where this goes wrong midway, what was made before stays. Records that cannot be
read are left out with a warning, and so is a file that is no list.
-/
namespace Runbook.Workflow

open Log

inductive Store where
  | memory (runs : List (String × Run))
  | file (path : Path)

/-- Why a store does not answer. -/
inductive StoreFault where
  | file (f : FileFault)
  /-- The file holds bytes that are no text. -/
  | notText
  /-- An integer in the file has more digits than are read. -/
  | tooManyDigits (digits : Nat)
  /-- A file is nested more deeply than is read, or a run more deeply than is copied. -/
  | tooDeep
  /-- A run is nested more deeply than is recorded. -/
  | tooNested
  /-- A text has halves of surrogate pairs, which a file cannot hold. -/
  | halved
  /-- Runs with and without a known offset of their times have no common order. -/
  | unordered
  deriving DecidableEq, Repr

def StoreFault.message : StoreFault → String
  | .file .missing => "No such file or directory"
  | .file .notDirectory => "Not a directory"
  | .file .isDirectory => "Is a directory"
  | .file .exists => "File exists"
  | .file .tooLong => "File name too long"
  | .file .zero => "embedded null byte"
  | .notText => "The file is not a text in UTF-8"
  | .tooManyDigits n => Number.tooLongToRead n
  | .tooDeep => "maximum recursion depth exceeded"
  | .tooNested => "Circular reference detected (depth exceeded)"
  | .file .halved | .halved => "A text holds a half of a surrogate pair"
  | .unordered => "Times with and without an offset have no common order"

namespace Store

def logger : String := "toolsmith.workflow.run_store"

def warn (message : String) (path : Path) (about : Fields) : Recorded StoreFault Unit :=
  Recorded.write (.plain warning logger message (("path", .text path.text) :: about))

/-- What a warning says of a record besides the file: the identifier it has, if it is a record. -/
def identifier : Value → Fields
  | .record fields => [("run_id", (Keyed.get? "run_id" fields).getD .null)]
  | _ => []

/-- The runs among records. -/
def readRecords (path : Path) : List Value → Recorded StoreFault (List Run)
  | [] => pure []
  | v :: rest =>
    match Run.read v with
    | .ok run => do return run :: (← readRecords path rest)
    | .error _ => do
      warn "Skipping malformed run record" path (identifier v)
      readRecords path rest

/-- The runs in the text of a file. -/
def readRuns (path : Path) (s : String) : Recorded StoreFault (List Run) :=
  match Json.read s with
  | .error .malformed => do
    warn "Run state file is not valid JSON; treating as empty" path []
    pure []
  | .error (.tooManyDigits n) => throw (.tooManyDigits n)
  | .error .tooDeep => throw .tooDeep
  | .ok (.list items) => readRecords path items
  | .ok _ => do
    warn "Run state file has unexpected shape; treating as empty" path []
    pure []

/-- The runs of a store in the order in which it keeps them. A file that is not there has none. -/
def runs (files : Files) : Store → Recorded StoreFault (List Run)
  | .memory runs => pure (runs.map (·.2))
  | .file path =>
    match files.read path with
    | .error .isDirectory => throw (.file .isDirectory)
    | .error .tooLong => throw (.file .tooLong)
    | .error _ => pure []
    | .ok bytes =>
      match Files.text? bytes with
      | none => throw .notText
      | some s => readRuns path s

def get (files : Files) (id : String) (s : Store) : Recorded StoreFault (Option Run) := do
  return (← s.runs files).find? fun r => r.id == id

/-- How many values lie in one another at most among those bound in a run. -/
def levels (r : Run) : Nat := Value.fieldLevels r.bindings

/-- A value at this level is not recorded any more. -/
def recordLimit : Nat := 255

/-- A value at this level is not copied any more. -/
def copyLimit : Nat := 494

/-- The record of a run, unless its values are nested too deeply. -/
def record (r : Run) : Except StoreFault Value :=
  if levels r < recordLimit then .ok r.record else .error .tooNested

def getRecord (files : Files) (id : String) (s : Store) : Recorded StoreFault (Option Value) := do
  match ← s.get files id with
  | some r => some <$> Recorded.ofExcept (record r)
  | none => pure none

/-- Runs by the time they were made, those of one time in the order in which they are kept. -/
def inOrder? (runs : List Run) : Option (List Run) :=
  if runs.all (fun r => r.created.offset.isSome) || runs.all (fun r => r.created.offset.isNone) then
    some (runs.mergeSort fun a b => decide (a.created.orderKey ≤ b.created.orderKey))
  else none

def list (files : Files) (s : Store) : Recorded StoreFault (List Run) := do
  match inOrder? (← s.runs files) with
  | some runs => pure runs
  | none => throw .unordered

def replaceFirst (run : Run) : List Run → List Run
  | [] => [run]
  | r :: rest => if r.id = run.id then run :: rest else r :: replaceFirst run rest

/-- The text of a file that holds some runs. -/
def fileText (runs : List Run) : Except StoreFault String := do
  return Json.spread 0 (.list (← runs.mapM record)) ++ "\n"

/-- What comes of putting a run: the files and the store afterwards, what was written to the log,
and why the run was not put. -/
structure Putting where
  files : Files
  store : Store
  records : List Record
  fault? : Option StoreFault

/-- Steps on the way to a file of runs, and what ends them early. -/
def saving (path : Path) (runs : List Run) : List FileStep × Option StoreFault :=
  let draft := path.extend ".tmp"
  let way := FileStep.makeDirectories path.parent
  match fileText runs with
  | .error f => ([way], some f)
  | .ok s =>
    if Text.hasHalves s then ([way, .write draft .empty], some .halved)
    else ([way, .write draft s.toUTF8, .rename draft path], none)

/-- Saves runs in a file. -/
def save (files : Files) (path : Path) (runs : List Run) : Files × Option StoreFault :=
  let (steps, early) := saving path runs
  match files.steps steps with
  | (files, some f) => (files, some (.file f))
  | (files, none) => (files, early)

def put (files : Files) (run : Run) (s : Store) : Putting :=
  match s with
  | .memory runs =>
    if levels run < copyLimit then ⟨files, .memory (Keyed.set run.id run runs), [], none⟩
    else ⟨files, s, [], some .tooDeep⟩
  | .file path =>
    match (s.runs files).outcome with
    | (.error f, records) => ⟨files, s, records, some f⟩
    | (.ok kept, records) =>
      let (files, fault?) := save files path (replaceFirst run kept)
      ⟨files, s, records, fault?⟩

end Store

end Runbook.Workflow
