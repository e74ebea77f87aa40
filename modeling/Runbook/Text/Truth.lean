/-!
Words for truth values, in any letter case.
-/
namespace Runbook.Text

def trueWords : List String := ["1", "t", "y", "on", "yes", "true"]

def falseWords : List String := ["0", "f", "n", "no", "off", "false"]

/-- The truth value that a word stands for. -/
def truthWord? (s : String) : Option Bool :=
  let word := s.map Char.toLower
  if trueWords.contains word then some true
  else if falseWords.contains word then some false
  else none

end Runbook.Text
