import Runbook.Fault
import Runbook.Files

/-!
Resources: named contents and the tier that supplies each. A file's resource is named by the
path that leads to it from its root, without the extension of the file.
-/
namespace Runbook

structure Resource where
  name : String
  content : String
  tier : Tier
  /-- The file it was read from, if it is not built in. -/
  path : Option Path
  deriving DecidableEq, Repr

namespace Resource

/-- The longest extension in a list that ends a file name and is not all of it. -/
def extension? (filename : List Char) : List (List Char) → Option (List Char)
  | [] => none
  | e :: rest =>
    let other := extension? filename rest
    if e.isSuffixOf filename && e.length < filename.length then
      match other with
      | some o => if o.length < e.length then some e else some o
      | none => some e
    else other

/-- A file name without its extension, if it has one. The empty extension leaves nothing. -/
def stripExtension (filename : String) (extensions : List String) : Option String :=
  let cs := filename.toList
  (extension? cs (extensions.map String.toList)).map fun e =>
    if e.isEmpty then "" else String.ofList (cs.take (cs.length - e.length))

/-- The name of the resource in a file, given the names that lead to it from its root. -/
def nameOf? (extensions names : List String) : Option String :=
  names.getLast?.bind fun file =>
    (stripExtension file extensions).map fun stem =>
      ((⟨false, names.dropLast⟩ : Path).child stem).text

end Resource

end Runbook
