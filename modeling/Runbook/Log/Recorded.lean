import Runbook.Log.Record

/-!
Work that writes log records. Records are kept in the order in which they were written, also
those of work that has failed.
-/
namespace Runbook.Log

abbrev Recorded (ε α : Type) : Type := ExceptT ε (StateM (List Record)) α

namespace Recorded

variable {ε α : Type}

def write (r : Record) : Recorded ε Unit := modify (· ++ [r])

/-- Work that writes nothing. -/
def ofExcept (x : Except ε α) : Recorded ε α := ExceptT.mk (pure x)

/-- What work comes to, and the records it has written. -/
def outcome (x : Recorded ε α) : Except ε α × List Record := StateT.run (ExceptT.run x) []

end Recorded

end Runbook.Log
