import Runbook.Text.LetterCase

/-!
Levels of log records: numbers, some of which have names, and one or two names for each of those.
-/
namespace Runbook.Log

def debug : Int := 10

def info : Int := 20

def warning : Int := 30

def error : Int := 40

/-- Names of levels. The first name of a level is the one that is written. -/
def levelNames : List (String × Int) :=
  [("CRITICAL", 50), ("ERROR", error), ("WARNING", warning), ("INFO", info), ("DEBUG", debug),
    ("NOTSET", 0), ("FATAL", 50), ("WARN", warning)]

/-- The level with a name, in any letter case. -/
def level? (name : String) : Option Int :=
  let upper := Text.uppered name
  (levelNames.find? fun l => l.1 == upper).map (·.2)

def levelName (level : Int) : String :=
  ((levelNames.find? fun l => l.2 == level).map (·.1)).getD s!"Level {level}"

/-- Whether a record of a level is written where another level is the least; level zero and below
never is. -/
def isWritten (least level : Int) : Bool := 0 < level && least ≤ level

end Runbook.Log
