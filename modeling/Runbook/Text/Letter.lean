import Runbook.Text.WordRanges

/-!
Letters, identifiers and keywords. Identifiers are ASCII; the names of variables may go on with
word characters of any script. Keywords are recognised in any letter case, which takes in the
four characters outside ASCII whose other case is one of the letters i, k and s.
-/
namespace Runbook.Text

def isAsciiLetter (c : Char) : Bool := ('a' ≤ c && c ≤ 'z') || ('A' ≤ c && c ≤ 'Z')

def isAsciiDigit (c : Char) : Bool := '0' ≤ c && c ≤ '9'

/-- What an identifier begins with. -/
def isIdentStart (c : Char) : Bool := isAsciiLetter c || c == '_'

/-- What an identifier goes on with. -/
def isIdentChar (c : Char) : Bool := isIdentStart c || isAsciiDigit c

/-- Letters and numerals of every script and the underscore. -/
def isWord (c : Char) : Bool :=
  let n := c.toNat
  if n < 128 then isIdentChar c else wordRanges.any fun r => r.1 ≤ n && n ≤ r.2

/-- The dotted and dotless i, the long s and the Kelvin sign. -/
def isCaseVariant (c : Char) : Bool := c == 'İ' || c == 'ı' || c == 'ſ' || c == '\u212a'

/-- An identifier's first character where letter case does not count. -/
def isIdentStartAnyCase (c : Char) : Bool := isIdentStart c || isCaseVariant c

def isIdentCharAnyCase (c : Char) : Bool := isIdentChar c || isCaseVariant c

/-- Whether a character is the given lower-case ASCII letter in some letter case. -/
def sameLetter (letter c : Char) : Bool :=
  c == letter || (isAsciiLetter c && c.toLower == letter) ||
    (letter == 'i' && (c == 'İ' || c == 'ı')) || (letter == 's' && c == 'ſ') ||
    (letter == 'k' && c == '\u212a')

/-- The rest of a text that begins with a keyword in any letter case. -/
def dropKeyword? : List Char → List Char → Option (List Char)
  | [], cs => some cs
  | _ :: _, [] => none
  | k :: ks, c :: cs => if sameLetter k c then dropKeyword? ks cs else none

/-- An identifier at the front of a text, as long as it goes. -/
def takeIdent? : List Char → Option (List Char × List Char)
  | [] => none
  | c :: cs =>
    if isIdentStart c then some (c :: cs.takeWhile isIdentChar, cs.dropWhile isIdentChar) else none

end Runbook.Text
