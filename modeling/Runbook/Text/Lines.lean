/-!
Lines of a text. A line ends at a line feed, a carriage return, both together, a vertical tab, a
form feed, one of the information separators, or one of the two separators of general
punctuation. A text that ends with such a break has no empty last line.
-/
namespace Runbook.Text

def isLineBreak (c : Char) : Bool :=
  let n := c.toNat
  (10 ≤ n && n ≤ 13) || (28 ≤ n && n ≤ 30) || n == 0x85 || n == 0x2028 || n == 0x2029

/-- The lines of a text, each with the break that ended it; the last break may be missing. -/
def brokenLines : List Char → List (List Char × List Char)
  | [] => []
  | '\r' :: '\n' :: cs => ([], ['\r', '\n']) :: brokenLines cs
  | c :: cs =>
    if isLineBreak c then ([], [c]) :: brokenLines cs
    else match brokenLines cs with
      | [] => [([c], [])]
      | (line, ending) :: rest => (c :: line, ending) :: rest

/-- The lines of a text without their breaks. -/
def lines (s : String) : List String :=
  (brokenLines s.toList).map fun l => String.ofList l.1

/-- The lines of a text with their breaks. -/
def fullLines (s : String) : List String :=
  (brokenLines s.toList).map fun l => String.ofList (l.1 ++ l.2)

theorem flatten_brokenLines (cs : List Char) :
    ((brokenLines cs).map fun l => l.1 ++ l.2).flatten = cs := by
  fun_induction brokenLines cs with
  | case1 => rfl
  | case2 cs ih => simp [ih]
  | case3 c cs _ _ ih => simp [ih]
  | case4 c cs _ _ h ih => simp_all
  | case5 c cs _ _ line ending rest h ih => simp_all

/-- Reading a file turns every break made of carriage returns into a line feed. -/
def unifyBreaks : List Char → List Char
  | [] => []
  | '\r' :: '\n' :: cs => '\n' :: unifyBreaks cs
  | c :: cs => (if c = '\r' then '\n' else c) :: unifyBreaks cs

end Runbook.Text
