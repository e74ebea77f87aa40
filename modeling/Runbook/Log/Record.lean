import Runbook.Json.Writer
import Runbook.Log.Level

/-!
Log records and the lines they are written as. A line is one JSON object: the time, level,
logger and message, then the run, workflow and resource the record is about where they are
given, and all other fields together under one key. Fields whose name begins with an underscore
are not written.
-/
namespace Runbook.Log

structure Record where
  level : Int
  logger : String
  message : String
  extra : Fields
  /-- The text of the error the record is about. -/
  exception : Option String
  deriving Repr, Inhabited

namespace Record

def plain (level : Int) (logger message : String) (extra : Fields) : Record :=
  ⟨level, logger, message, extra, none⟩

/-- Fields that have a place of their own in a line. -/
def contextKeys : List String := ["run_id", "workflow", "resource"]

def isPrivate (key : String) : Bool := key.toList.head? == some '_'

def context (extra : Fields) : Fields :=
  contextKeys.filterMap fun key => (Keyed.get? key extra).map fun v => (key, v)

def others (extra : Fields) : Fields :=
  extra.filter fun f => !isPrivate f.1 && !contextKeys.contains f.1

/-- What a line says apart from the time. -/
def fields (r : Record) : Fields :=
  let rest := others r.extra
  [("level", .text (levelName r.level)), ("logger", .text r.logger),
      ("message", .text r.message)] ++
    context r.extra ++
    (if rest.isEmpty then [] else [("extra", .record rest)]) ++
    (r.exception.map fun e => ("exception", Value.text e)).toList

/-- The line of a record, without the line feed after it. -/
def line (time : String) (r : Record) : String :=
  Json.write (.record (("timestamp", .text time) :: r.fields))

/-- Names that every record has for itself, which extra fields may not take. -/
def reservedKeys : List String :=
  ["name", "msg", "args", "levelname", "levelno", "pathname", "filename", "module", "exc_info",
    "exc_text", "stack_info", "lineno", "funcName", "created", "msecs", "relativeCreated",
    "thread", "threadName", "processName", "process", "message", "asctime"]

/-- The first extra field with a reserved name. -/
def reserved? (extra : Fields) : Option String :=
  (extra.map (·.1)).find? reservedKeys.contains

end Record

end Runbook.Log
