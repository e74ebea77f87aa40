import Runbook.CommandLine.Arguments
import Runbook.Settings
import Runbook.Toolkit

/-!
The command line: what a command prints and how it ends. Zero is success, one a failed run or an
error that nobody foresaw, two a misuse or a finding of a check, and three a refusal that has a
reason.
-/
namespace Runbook.CommandLine

open Workflow

/-- How a command ends: its exit code, its output, and its complaint apart from log lines. -/
structure Reply where
  exit : Nat
  output : String
  complaint : String
  deriving DecidableEq, Repr

def versionText : String := "toolsmith 0.1.0\n"

def logger : String := "toolsmith.app.main"

def linesText (lines : List String) : String := String.join (lines.map (· ++ "\n"))

def Reply.ofLines (lines : List String) : Reply := ⟨0, linesText lines, ""⟩

/-- Variables from words with a name and a value around an equals sign, or a word that is none. -/
def readVariables : Fields → List String → Except String Fields
  | bindings, [] => .ok bindings
  | bindings, word :: rest =>
    let (key, value) := splitEquals word.toList
    let key := String.ofList (Text.trim key)
    match value with
    | some value =>
      if key.isEmpty then .error word
      else readVariables (Keyed.set key (.text (String.ofList value)) bindings) rest
    | none => .error word

def runLines (r : Run) : List String :=
  let joined := String.intercalate ", " r.current
  let states := if joined.isEmpty then "-" else joined
  s!"Run {r.id} [{r.status.name}] {r.workflow}: {states}" ::
    (r.failure.map fun f => s!"  failure: {f.text}").toList

def visitLine (v : Visit) : String :=
  let entered := v.entered.text 'T'
  let left := (v.exited.map (Timestamp.text 'T')).getD "-"
  s!"  {v.state}\t{entered}\t{left}"

def stateLine (s : State) : String :=
  let mark := if s.kind = .normal then "" else s!" <<{s.kind.name}>>"
  let actions := if s.actions.isEmpty then "" else s!" ({s.actions.length} actions)"
  s!"  {s.id}{mark}{actions}"

def transitionLine (t : Transition) : String :=
  let guard := match t.guard with
    | some g => if g.isEmpty then "" else " \x7b" ++ g ++ "\x7d"
    | none => ""
  let label := match t.label with
    | some l => if l.isEmpty then "" else s!" : {l}"
    | none => ""
  s!"  {t.source} --> {t.target}{guard}{label}"

def workflowLines (d : Definition) : List String :=
  [s!"{d.name} (v{d.metadata.version})"] ++
    (if d.metadata.description.isEmpty then [] else [s!"  {d.metadata.description}"]) ++
    ["States:"] ++ d.named.map stateLine ++ ["Transitions:"] ++ d.transitions.map transitionLine

def tierLines (sources : List (String × Tier)) : List String :=
  sources.map fun s => s!"{s.1}\t{s.2.name}"

/-- A run as a reply; a failed one is a failure of the command. -/
def runReply (r : Run) : Reply :=
  ⟨if r.status = .failed then 1 else 0, linesText (runLines r), ""⟩

def promptReply (name : String) (p : Option Prompt) : Reply :=
  match p with
  | none => ⟨3, "", s!"Prompt not found: {Text.quoted name}\n"⟩
  | some p =>
    let heading := match p.description with
      | some d => if d.isEmpty then [] else [s!"# {d}"]
      | none => []
    .ofLines (heading ++ [p.template])

def reportReply (quiet : Bool) (r : Report) : Reply :=
  let shown := if quiet then r.errors else r.findings
  let summary := s!"{r.filesChecked} workflows checked: {r.errors.length} errors, " ++
    s!"{r.warnings.length} warnings"
  ⟨if r.hasErrors then 2 else 0,
    linesText (shown.map Finding.text ++ if quiet then [] else [summary]), ""⟩

/-- Starts a run with variables, and goes on with it if the variables can be read. -/
def starting (around : Surroundings) (name : String) (words : List String)
    (next : String → Work Run) : Work Reply := do
  match readVariables [] words with
  | .error word => pure ⟨2, "", s!"Expected KEY=VALUE, got {Text.quoted word}\n"⟩
  | .ok bindings =>
    let id ← Toolkit.start around name bindings
    return runReply (← next id)

def directoryLines (k : Toolkit.Kind) : Work (List String) := do
  return (← Toolkit.directories k).map fun p => s!"{k.name}\t{p.text}"

def perform (around : Surroundings) (c : Command) : Work Reply := do
  match c with
  | .listPrompts => return .ofLines (tierLines (← Toolkit.list .prompts))
  | .showPrompt name => return promptReply name (← Toolkit.prompt? name)
  | .listWorkflows => return .ofLines (tierLines (← Toolkit.list .workflows))
  | .showWorkflow name => return .ofLines (workflowLines (← Toolkit.workflow name))
  | .runWorkflow name words limit =>
    starting around name words fun id => Toolkit.settle around id limit
  | .startWorkflow name words => starting around name words Toolkit.storedRun
  | .step id => return runReply (← Toolkit.advance around id)
  | .status id =>
    let r ← Toolkit.storedRun id
    return .ofLines (runLines r ++ r.history.map visitLine)
  | .suspend id => return runReply (← Toolkit.suspend around id)
  | .resume id => return runReply (← Toolkit.resume around id)
  | .cancel id => return runReply (← Toolkit.cancel around id)
  | .runs => return .ofLines ((← Toolkit.runs).flatMap runLines)
  | .validate quiet => return reportReply quiet (← Toolkit.validate .workflows)
  | .directories none =>
    return .ofLines ((← Toolkit.Kind.all.mapM directoryLines).flatten)
  | .directories (some name) => return .ofLines (← directoryLines (← Toolkit.kind name))

/-- The reply to a fault. One that a user can do something about is explained. -/
def faultReply (f : ToolkitFault) : Reply × Log.Record :=
  match f.logName? with
  | some name =>
    (⟨3, "", f.message ++ "\n"⟩,
      .plain Log.warning logger f.message [("error", .text name)])
  | none =>
    (⟨1, "", ""⟩, ⟨Log.error, logger, "Command failed", [], some f.message⟩)

/-- What the command line works on: files, variables of the environment, the user's own
directory, and how often the clock was read and a run was named before. -/
structure Workplace where
  files : Files
  environment : List (String × String)
  home : Path
  reads : Nat
  named : Nat

structure Outcome where
  reply : Reply
  /-- The records that are written, in order. -/
  records : List Log.Record
  /-- How long to wait, in seconds, time after time. -/
  sleeps : List Number.Binary64
  workplace : Workplace

/-- The variables in the file for them, if there is one. -/
def fileVariables (w : Workplace) : Except SettingsFault (List (String × Option String)) :=
  match w.files.read (Path.ofString ".env") with
  | .error _ => .ok []
  | .ok bytes =>
    match Files.text? bytes with
    | some s => .ok (EnvFile.read w.environment s)
    | none => .error .notText

def settings (w : Workplace) (debug : Bool) : Except SettingsFault Settings := do
  Settings.read
    ⟨if debug then [("debug", .bool true)] else [], w.environment, ← fileVariables w⟩

def SettingsFault.reply : SettingsFault → Reply
  | .notJson name => ⟨1, "", s!"The variable {name} does not hold JSON\n"⟩
  | .notText => ⟨1, "", "The file of variables is not a text in UTF-8\n"⟩
  | .tooDeep => ⟨1, "", "A variable is nested too deeply\n"⟩
  | .invalid spots =>
    ⟨2, "", linesText ("Configuration error (check your .env):" ::
      spots.map (String.intercalate "."))⟩

/-- Where resources may lie, and the file of runs: all that a command may look at. -/
def places (w : Workplace) (s : Settings) : List Path :=
  let directories := s.home.getD w.home :: Layers.ancestors w.files.base
  (Toolkit.Kind.all.flatMap fun k => directories.map fun d => Layers.place d s.dirName k.name) ++
    [s.statePath]

/-- A toolkit for one command. -/
def session (w : Workplace) (s : Settings) : Session where
  toolkit := Toolkit.new (s.home.getD w.home) (Path.ofNames w.files.base) s.dirName s.maxSteps
    (if s.persist then .file s.statePath else .memory [])
  files := w.files
  reads := w.reads
  named := w.named
  journal := []

/-- Carries out a command. -/
def execute (around : Surroundings) (w : Workplace) (debug : Bool) (c : Command) : Outcome :=
  match settings w debug with
  | .error f => ⟨SettingsFault.reply f, [], [], w⟩
  | .ok s =>
    let (result, after) := (perform around c).run.run (session w s)
    let (reply, last) := match result with
      | .ok reply => (reply, [])
      | .error f => let (reply, record) := faultReply f; (reply, [record])
    let records := (after.journal.records ++ last).filter fun r =>
      Log.isWritten s.leastLevel r.level
    ⟨reply, records, after.journal.sleeps,
      { w with files := after.files, reads := after.reads, named := after.named }⟩

end Runbook.CommandLine
