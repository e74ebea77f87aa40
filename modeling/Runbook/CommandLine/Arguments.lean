import Runbook.Number.Numeral

/-!
The arguments of a command line. Words before the command are options of the program; the
command takes all words after it. A word that begins with a hyphen is an option, unless it is a
negative number or holds a space. A double hyphen makes values of all words after it. Options
may be cut short where that is clear, and may have their value behind an equals sign.
-/
namespace Runbook.CommandLine

open Number Text

inductive Command where
  | listPrompts
  | showPrompt (name : String)
  | listWorkflows
  | showWorkflow (name : String)
  | runWorkflow (name : String) (settings : List String) (maxSteps : Option Int)
  | startWorkflow (name : String) (settings : List String)
  | step (run : String)
  | status (run : String)
  | suspend (run : String)
  | resume (run : String)
  | cancel (run : String)
  | runs
  | validate (quiet : Bool)
  | directories (kind : Option String)
  deriving DecidableEq, Repr

inductive Request where
  /-- The words make no command. -/
  | misuse
  | version
  | command (debug : Bool) (c : Command)
  deriving DecidableEq, Repr

/-- What a word is to a command that has some options. -/
inductive Word where
  | value
  | option (name : String) (given : Option String)
  | unknown
  | ambiguous
  deriving DecidableEq, Repr

/-- The parts of a word before and after its first equals sign. -/
def splitEquals (cs : List Char) : List Char × Option (List Char) :=
  let key := cs.takeWhile (· != '=')
  match cs.drop key.length with
  | [] => (key, none)
  | _ :: value => (key, some value)

def isNegativeNumber (cs : List Char) : Bool :=
  match cs with
  | '-' :: body =>
    let body := if body.getLast? == some '\n' then body.dropLast else body
    let places := body.dropWhile isDigit
    match places with
    | [] => !body.isEmpty
    | '.' :: ds => !ds.isEmpty && ds.all isDigit
    | _ => false
  | _ => false

def readUnknown (cs : List Char) : Word :=
  if isNegativeNumber cs || cs.contains ' ' then .value else .unknown

/-- The option that every command has; its one letter takes a value that follows at once. -/
def helpOption : String := "--help"

/-- Reads a word, given the names of the options, all of which begin with two hyphens. -/
def readWord (options : List String) (s : String) : Word :=
  let options := helpOption :: options
  let cs := s.toList
  match cs with
  | [] => .value
  | ['-'] => .value
  | '-' :: 'h' :: value => .option helpOption (some (String.ofList value))
  | '-' :: second :: _ =>
    let (key, given) := splitEquals cs
    let given := given.map String.ofList
    if options.contains s then .option s none
    else if options.contains (String.ofList key) then .option (String.ofList key) given
    else if second != '-' then readUnknown cs
    else
      match options.filter fun o => key.isPrefixOf o.toList with
      | [] => readUnknown cs
      | [o] => .option o given
      | _ => .ambiguous
  | _ => .value

/-- What a command takes besides options. -/
inductive Operand where
  | none
  | required
  | optional
  deriving DecidableEq, Repr

structure Form where
  flags : List String
  valued : List String
  operand : Operand

/-- The options and the operand that a command was given. -/
structure Given where
  options : List (String × String)
  operand : Option String
  deriving Repr

def Given.addOption (g : Given) (name value : String) : Given :=
  { g with options := g.options ++ [(name, value)] }

/-- The end of the words: all that is required is there. -/
def Form.finish (f : Form) (g : Given) : Option Given :=
  if f.operand = .required && g.operand.isNone then none else some g

/-- Words after a double hyphen. `fresh` says that the operand stands right before it. -/
def Form.readAfterMark (f : Form) (fresh : Bool) (g : Given) : List String → Option Given
  | [] => if fresh || (f.operand = .optional && g.operand.isNone) then f.finish g else none
  | [s] =>
    if f.operand ≠ .none && g.operand.isNone then f.finish { g with operand := some s } else none
  | _ => none

/-- Reads the words of a command. -/
def Form.read (f : Form) (fresh : Bool) (g : Given) : List String → Option Given
  | [] => f.finish g
  | "--" :: rest => f.readAfterMark fresh g rest
  | s :: rest =>
    match readWord (f.flags ++ f.valued) s with
    | .value =>
      if f.operand ≠ .none && g.operand.isNone then
        f.read true { g with operand := some s } rest
      else none
    | .option name (some v) =>
      if f.valued.contains name then f.read false (g.addOption name v) rest else none
    | .option name none =>
      if f.flags.contains name then f.read false (g.addOption name "") rest
      else if !f.valued.contains name then none
      else
        match rest with
        | v :: rest' =>
          if v != "--" && readWord (f.flags ++ f.valued) v = .value then
            f.read false (g.addOption name v) rest'
          else none
        | [] => none
    | .unknown | .ambiguous => none

def Given.has (g : Given) (name : String) : Bool := g.options.any fun o => o.1 == name

def Given.values (g : Given) (name : String) : List String :=
  (g.options.filter fun o => o.1 == name).map (·.2)

def readForm (flags valued : List String) (operand : Operand) (words : List String) :
    Option Given :=
  Form.read ⟨flags, valued, operand⟩ false ⟨[], none⟩ words

/-- A command without options and operand. -/
def bare (c : Command) (words : List String) : Option Command :=
  (readForm [] [] .none words).map fun _ => c

/-- A command with one operand. -/
def named (c : String → Command) (words : List String) : Option Command :=
  (readForm [] [] .required words).bind fun g => g.operand.map c

def readRun (words : List String) : Option Command := do
  let g ← readForm [] ["--var", "--max-steps"] .required words
  let name ← g.operand
  let limits ← (g.values "--max-steps").mapM fun s => (readInt s.toList).toOption
  pure (.runWorkflow name (g.values "--var") limits.getLast?)

def readStart (words : List String) : Option Command := do
  let g ← readForm [] ["--var"] .required words
  let name ← g.operand
  pure (.startWorkflow name (g.values "--var"))

def readDirectories (words : List String) : Option Command := do
  let g ← readForm [] [] .optional words
  match g.operand with
  | none => pure (.directories none)
  | some k => if k = "prompts" ∨ k = "workflows" then pure (.directories (some k)) else none

def readPromptCommand : List String → Option Command
  | "list" :: rest => bare .listPrompts rest
  | "show" :: rest => named .showPrompt rest
  | _ => none

def readFlowCommand : List String → Option Command
  | "list" :: rest => bare .listWorkflows rest
  | "show" :: rest => named .showWorkflow rest
  | "run" :: rest => readRun rest
  | "start" :: rest => readStart rest
  | "step" :: rest => named .step rest
  | "status" :: rest => named .status rest
  | "suspend" :: rest => named .suspend rest
  | "resume" :: rest => named .resume rest
  | "cancel" :: rest => named .cancel rest
  | "runs" :: rest => bare .runs rest
  | _ => none

def readCommand : List String → Option Command
  | "prompt" :: rest => readPromptCommand rest
  | "flow" :: rest => readFlowCommand rest
  | "validate" :: rest =>
    (readForm ["--quiet"] [] .none rest).map fun g => .validate (g.has "--quiet")
  | "dirs" :: rest => readDirectories rest
  | _ => none

def programOptions : List String := ["--version", "--debug"]

/-- Reads options of the program up to the command. `clean` says that all of them are known. -/
def readProgram (debug clean : Bool) : List String → Request
  | [] => .misuse
  | s :: rest =>
    match readWord programOptions s with
    | .option "--version" none => .version
    | .option "--debug" none => readProgram true clean rest
    | .unknown => readProgram debug false rest
    | .value =>
      match readCommand (s :: rest) with
      | some c => if clean then .command debug c else .misuse
      | none => .misuse
    | _ => .misuse

/-- Reads the words of a command line. A word that could be several options of the program is a
misuse wherever it stands. -/
def readRequest (words : List String) : Request :=
  if (words.takeWhile (· != "--")).any fun s => readWord programOptions s = .ambiguous then .misuse
  else readProgram false true words

end Runbook.CommandLine
