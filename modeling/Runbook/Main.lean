import Runbook.CommandLine
import Std.Time.DateTime.Timestamp

/-!
The program. It takes in the files that a command may look at, carries the command out on them,
and then writes what has changed.
-/
namespace Runbook.Main

open CommandLine

/-- Takes in a file or a directory with everything below it. -/
partial def gather (e : IO.FS.DirEntry) (location : Location) (f : Files) : IO Files := do
  if ← e.path.isDir then
    let entries ← e.path.readDir
    entries.foldlM (fun f e => gather e (location ++ [e.fileName]) f) (f.place location .directory)
  else return f.place location (.file (← IO.FS.readBinFile e.path))

/-- Takes in what a path leads to, if there is anything. -/
def gatherPath (f : Files) (p : Path) : IO Files := do
  let location := p.resolve f.base
  let e : IO.FS.DirEntry := ⟨(Path.ofNames location.dropLast).text, location.getLast?.getD "."⟩
  if ← e.path.pathExists then gather e location f else return f

/-- Writes what is new in files. A file is written next to its place and then moved there. -/
def saveChanges (before after : Files) : IO Unit :=
  after.entries.forM fun (location, content) => do
    let target := (Path.ofNames location).text
    if !(before.at? location).any content.same then
      match content with
      | .directory => IO.FS.createDirAll target
      | .file bytes =>
        IO.FS.createDirAll (Path.ofNames location.dropLast).text
        IO.FS.writeBinFile (target ++ ".tmp") bytes
        IO.FS.rename (target ++ ".tmp") target

/-- The variables that settings are taken from, in capitals and in small letters. -/
def variableNames : List String :=
  let names := ["TOOLSMITH_LOG_LEVEL", "TOOLSMITH_DEBUG", "TOOLSMITH_RESOURCES", "TOOLSMITH_RUNS",
    "TOOLSMITH_RESOURCES_DIR_NAME", "TOOLSMITH_RESOURCES_HOME_DIR", "TOOLSMITH_RUNS_STATE_PATH",
    "TOOLSMITH_RUNS_PERSIST", "TOOLSMITH_RUNS_MAX_STEPS"]
  "HOME" :: names ++ names.map Text.lowered

def environment : IO (List (String × String)) := do
  let found ← variableNames.mapM fun name => do
    return (← IO.getEnv name).map fun value => (name, value)
  return found.filterMap id

/-- Microseconds of universal time since 1970. -/
def now : IO Int := do
  return (← Std.Time.Timestamp.now).toNanosecondsSinceUnixEpoch.val / 1000

def hexText (n : Nat) : String := String.ofList (Text.hexDigits 32 n)

def surroundings : IO Surroundings := do
  let time ← now
  let seed ← IO.rand 0 (Nat.pow 2 128 - 1)
  return ⟨fun n => ⟨time + n, some 0⟩, fun n => hexText (seed + n)⟩

/-- Waits for a number of seconds, down to the millisecond. -/
def sleep (seconds : Number.Binary64) : IO Unit :=
  IO.sleep (seconds.magnitude * 1000 / Number.Binary64.grain).toUInt32

def workplace : IO Workplace := do
  let base := (Path.ofString (← IO.currentDir).toString).names
  let home := Path.ofString ((← IO.getEnv "HOME").getD "/")
  let files ← gatherPath ((⟨[], base⟩ : Files).place base .directory) (Path.ofString ".env")
  return ⟨files, ← environment, home, 0, 0⟩

def carryOut (debug : Bool) (c : Command) : IO UInt32 := do
  let around ← surroundings
  let w ← workplace
  let files ← match settings w debug with
    | .ok s => (places w s).foldlM gatherPath w.files
    | .error _ => pure w.files
  let outcome := execute around { w with files := files } debug c
  outcome.sleeps.forM sleep
  saveChanges files outcome.workplace.files
  let time : Timestamp := ⟨← now, some 0⟩
  outcome.records.forM fun r => IO.eprintln (r.line (time.text 'T'))
  IO.print outcome.reply.output
  IO.eprint outcome.reply.complaint
  return outcome.reply.exit.toUInt32

end Runbook.Main

def main (words : List String) : IO UInt32 := do
  match Runbook.CommandLine.readRequest words with
  | .misuse =>
    IO.eprintln "usage: toolsmith [--version] [--debug] prompt|flow|validate|dirs ..."
    return 2
  | .version =>
    IO.print Runbook.CommandLine.versionText
    return 0
  | .command debug c => Runbook.Main.carryOut debug c
