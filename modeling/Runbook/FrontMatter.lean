import Runbook.Problem
import Runbook.Text.Lines
import Runbook.Yaml.Content

/-!
Front matter: entries between two fences at the head of a text. The first line decides whether
there is any. The body is everything after the second fence but for the line feeds at its front.
-/
namespace Runbook

open Text

namespace FrontMatter

def isFence (line : String) : Bool := strip line == "---"

def dropLineFeeds (s : String) : String := String.ofList (s.toList.dropWhile (· == '\n'))

def readEntries (header : String) : Parsed Yaml.Entries :=
  match Yaml.Content.read header with
  | .error (.malformed problem _) =>
    .error (.fault (.atLine 1 (.malformedFrontMatter problem) none))
  | .error (.scalar f) => .error (.scalar f)
  | .error .tooDeep => .error .tooDeep
  | .ok content =>
    match Yaml.Entries.ofContent? content with
    | some entries => .ok entries
    | none => .error (.fault (.atLine 2 .frontMatterNotPairs none))

/-- The entries and the body of a text. -/
def split (content : String) : Parsed (Yaml.Entries × String) :=
  match fullLines content with
  | [] => .ok (.none, content)
  | first :: rest =>
    if !isFence first then .ok (.none, content)
    else
      match rest.dropWhile fun l => !isFence l with
      | [] => .error (.fault (.atLine 1 .unclosedFrontMatter (some "---")))
      | _ :: body => do
        let entries ← readEntries (String.join (rest.takeWhile fun l => !isFence l))
        pure (entries, dropLineFeeds (String.join body))

end FrontMatter

end Runbook
