import Runbook.Yaml.Failure

/-!
Tokens of a YAML text. Indentation is made explicit: a block collection begins and ends with
tokens of its own, and the key of a block mapping is announced by a token before it.
-/
namespace Runbook.Yaml

inductive TokenKind where
  | streamEnd
  | versionDirective (major minor : Nat)
  | tagDirective (handle expansion : String)
  | otherDirective
  | documentStart
  | documentEnd
  | blockSequence
  | blockMapping
  | blockEnd
  | flowSequenceStart
  | flowSequenceEnd
  | flowMappingStart
  | flowMappingEnd
  | entry
  | flowEntry
  | key
  | value
  | alias (name : String)
  | anchor (name : String)
  /-- A tag's handle, if it has one, and its suffix. -/
  | tag (handle : Option String) (suffix : String)
  | scalar (text : String) (isPlain : Bool)
  deriving DecidableEq, Repr

/-- A token and the lines of its first character and of the end of it. -/
structure Token where
  kind : TokenKind
  first : Nat
  last : Nat
  deriving Repr

def TokenKind.shown : TokenKind → String
  | .streamEnd => "<stream end>"
  | .versionDirective .. | .tagDirective .. | .otherDirective => "<directive>"
  | .documentStart => "<document start>"
  | .documentEnd => "<document end>"
  | .blockSequence => "<block sequence start>"
  | .blockMapping => "<block mapping start>"
  | .blockEnd => "<block end>"
  | .flowSequenceStart => "["
  | .flowSequenceEnd => "]"
  | .flowMappingStart => "\x7b"
  | .flowMappingEnd => "\x7d"
  | .entry => "-"
  | .flowEntry => ","
  | .key => "?"
  | .value => ":"
  | .alias _ => "<alias>"
  | .anchor _ => "<anchor>"
  | .tag .. => "<tag>"
  | .scalar .. => "<scalar>"

/-- The tokens that can be told from a text, and why there are no more of them if the text goes
wrong before its end. -/
structure TokenStream where
  tokens : List Token
  failure : Option Failure
  deriving Repr

end Runbook.Yaml
