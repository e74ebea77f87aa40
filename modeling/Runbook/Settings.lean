import Runbook.Checked
import Runbook.Files.Path
import Runbook.Json.Reader
import Runbook.Log.Level
import Runbook.Settings.EnvFile
import Runbook.Text.Truth

/-!
Settings. Each is taken from what is given by the caller, or else from a variable of the
environment, or else from one of a file, or else it has a default. Letter case does not matter
in names of variables. A section of settings may also stand in one variable as a JSON record,
whose fields then count as given.
-/
namespace Runbook

open Checked Number Text

structure Settings where
  logLevel : String
  debug : Bool
  /-- The directory that holds resources. -/
  dirName : String
  /-- The user's own directory, if it is not that of the system. -/
  home : Option Path
  /-- The file that holds runs. -/
  statePath : Path
  persist : Bool
  maxSteps : Int
  deriving DecidableEq, Repr

/-- Why there are no settings. -/
inductive SettingsFault where
  /-- A variable that should hold JSON does not. -/
  | notJson (name : String)
  /-- The file of variables is no text. -/
  | notText
  /-- A variable holds JSON that is nested more deeply than is read. -/
  | tooDeep
  | invalid (spots : List Spot)
  deriving DecidableEq, Repr

namespace Settings

structure Sources where
  given : Fields
  environment : List (String × String)
  file : List (String × Option String)

/-- The last entry of a list under a name, in any letter case. -/
def lastUnder {α : Type} (name : String) (entries : List (String × α)) : Option α :=
  (entries.reverse.find? fun e => lowered e.1 == lowered name).map (·.2)

def Sources.inVariables? (s : Sources) (name : String) : Option String :=
  (lastUnder name s.environment).or ((lastUnder name s.file).bind id)

/-- The value of a setting of a section whose variables begin in the same way. -/
def Sources.value? (s : Sources) (group key : String) : Option Value :=
  (Keyed.get? key s.given).or ((s.inVariables? (group ++ key)).map .text)

/-- A setting, or its default if no source has it. -/
def setting {α : Type} (s : Sources) (group key : String) (default : α)
    (read : Value → Checked α) : Checked α :=
  match s.value? group key with
  | none => .ok default
  | some v => under key (read v)

def readLevel : Value → Checked String
  | .text s =>
    let level := uppered (strip s)
    if (Log.level? level).isSome then .ok level else wrong
  | _ => wrong

/-- A truth value, as such, as a word, or as the number one or zero. -/
def readFlag : Value → Checked Bool
  | .bool b => .ok b
  | .text s => ofOption (truthWord? s)
  | v => if v.eq (.int 1) then .ok true else if v.eq (.int 0) then .ok false else wrong

/-- Digits with single underscores between them; zeros in front may have more. -/
def readDigits? (cs : List Char) : Option Nat :=
  let digits := if cs.head? == some '0' then
      match cs.dropWhile fun c => c == '0' || c == '_' with
      | [] => if cs.getLast? == some '0' then ['0'] else []
      | rest => rest
    else cs
  match plainDigits? false digits with
  | some plain =>
    let isShort := decide (plain.length ≤ digitLimit)
    if isShort && allDigits plain && digits.all fun c => isAsciiDigit c || c == '_' then
      some (digitsValue 10 plain)
    else none
  | none => none

/-- A whole number in a text; a point with zeros may end it. -/
def readWhole? (s : String) : Option Int :=
  let cs := trimSpaces s.toList
  let whole := cs.takeWhile (· != '.')
  let places := (cs.dropWhile (· != '.')).drop 1
  if !places.all (· == '0') then none
  else
    let (negative, digits) := takeSign whole
    (readDigits? digits).map fun n => if negative then -(n : Int) else n

/-- The whole number that a double is, if it has 63 bits. -/
def wholeOf? (x : Binary64) : Option Int :=
  let n : Int := Int.tdiv x.scaled Binary64.grain
  if n.natAbs < Nat.pow 2 63 && (Value.float x).eq (.int n) then some n else none

/-- A number of steps, which is not zero. -/
def readSteps (v : Value) : Checked Int :=
  let n := match v with
    | .int n => some n
    | .bool b => some (if b then 1 else 0)
    | .float x => wholeOf? x
    | .text s => readWhole? s
    | _ => none
  ofOption (n.filter (0 < ·))

def readPath : Value → Checked Path
  | .text s => .ok (Path.ofString s)
  | _ => wrong

/-- Where resources are found. -/
structure ResourceSection where
  dirName : String
  home : Option Path

def ResourceSection.read (s : Sources) : Checked ResourceSection :=
  let group := "TOOLSMITH_RESOURCES_"
  let resources := (setting s group "dir_name" ".toolsmith" Checked.text).map ResourceSection.mk
  also resources (setting s group "home_dir" none (optional readPath))

/-- How runs are kept and driven. -/
structure RunSection where
  statePath : Path
  persist : Bool
  maxSteps : Int

def defaultStatePath : Path := Path.ofString ".toolsmith/runs.json"

def RunSection.read (s : Sources) : Checked RunSection :=
  let group := "TOOLSMITH_RUNS_"
  let runs := (setting s group "state_path" defaultStatePath readPath).map RunSection.mk
  let runs := also runs (setting s group "persist" true readFlag)
  also runs (setting s group "max_steps" 1000 readSteps)

/-- The fields of a record under the names of a section's settings, in any letter case. -/
def renameFields (names : List String) (fields : Fields) : Fields :=
  Keyed.ofList (fields.map fun f =>
    ((names.find? fun n => lowered n == lowered f.1).getD f.1, f.2))

mutual

/-- One value laid over another: records are joined, their own records too. -/
def layOver (base top : Value) : Value :=
  match base, top with
  | .record fields, .record above => .record (layFields fields above)
  | _, top => top

def layFields (base : Fields) : Fields → Fields
  | [] => base
  | (k, v) :: rest =>
    let v := match Keyed.get? k base with
      | some w => layOver w v
      | none => v
    layFields (Keyed.set k v base) rest

end

/-- What a variable holds for a section; null is nothing. -/
def jsonSection (name : String) (names : List String) (text : Option String) :
    Except SettingsFault (Option Value) :=
  match text with
  | none => .ok none
  | some s =>
    match Json.read s with
    | .error .tooDeep => .error .tooDeep
    | .error _ => .error (.notJson name)
    | .ok .null => .ok none
    | .ok (.record fields) => .ok (some (.record (renameFields names fields)))
    | .ok v => .ok (some v)

/-- A section as a whole, if any source has it. -/
def wholeSection (s : Sources) (key name : String) (names : List String) :
    Except SettingsFault (Option Value) := do
  let ofFile ← jsonSection name names ((lastUnder name s.file).bind id)
  let ofEnvironment ← jsonSection name names (lastUnder name s.environment)
  let layers := ofFile.toList ++ ofEnvironment.toList ++ (Keyed.get? key s.given).toList
  match layers with
  | [] => pure none
  | first :: rest => pure (some (rest.foldl layOver first))

/-- Reads a section. What is wrong in one that no source has as a whole is wrong at once. -/
def readSection {α : Type} (s : Sources) (key name : String) (names : List String)
    (read : Sources → Checked α) : Except SettingsFault (Checked α) := do
  match ← wholeSection s key name names with
  | none =>
    match read { s with given := [] } with
    | .ok a => pure (.ok a)
    | .error spots => throw (.invalid spots)
  | some (.record fields) => pure (under key (read { s with given := fields }))
  | some _ => pure (under key wrong)

def ofSections (logLevel : String) (debug : Bool) (resources : ResourceSection)
    (runs : RunSection) : Settings :=
  ⟨logLevel, debug, resources.dirName, resources.home, runs.statePath, runs.persist,
    runs.maxSteps⟩

def read (s : Sources) : Except SettingsFault Settings := do
  let resources ← readSection s "resources" "TOOLSMITH_RESOURCES" ["dir_name", "home_dir"]
    ResourceSection.read
  let runs ← readSection s "runs" "TOOLSMITH_RUNS" ["state_path", "persist", "max_steps"]
    RunSection.read
  let settings := (setting s "TOOLSMITH_" "log_level" "WARNING" readLevel).map ofSections
  let settings := also settings (setting s "TOOLSMITH_" "debug" false readFlag)
  (also (also settings resources) runs).mapError .invalid

/-- The least level of what is logged. -/
def rootLevel (s : Settings) : Int := (Log.level? s.logLevel).getD Log.warning

/-- The least level that loggers of this program have for themselves, or zero for none. -/
def ownLevel (s : Settings) : Int := if s.debug then Log.debug else 0

/-- The least level that this program writes. -/
def leastLevel (s : Settings) : Int := if s.debug then Log.debug else s.rootLevel

end Settings

end Runbook
