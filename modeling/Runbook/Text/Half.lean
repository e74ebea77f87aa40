/-!
Halves of surrogate pairs. A half on its own is a code point and no character. Texts hold a
private character in its place, which they do not hold otherwise; messages show the half by its
code.
-/
namespace Runbook.Text

/-- Whether a code point is one of a pair. -/
def isHalfCode (n : Nat) : Bool := 0xd800 ≤ n && n < 0xe000

/-- The character of a code point, or the one that stands for a half. -/
def codeChar (n : Nat) : Char := Char.ofNat (if isHalfCode n then n + 0x100000 else n)

/-- The code of the half that a character stands for. -/
def halfCode? (c : Char) : Option Nat :=
  let n := c.toNat - 0x100000
  if isHalfCode n then some n else none

def isHalf (c : Char) : Bool := (halfCode? c).isSome

/-- Whether a text has halves. Bytes cannot hold such a text. -/
def hasHalves (s : String) : Bool := s.toList.any isHalf

/-- A text with every half replaced, each of its three bytes by a sign that there is none. -/
def replaceHalves (s : String) : String :=
  String.ofList (s.toList.flatMap fun c => if isHalf c then List.replicate 3 '\ufffd' else [c])

end Runbook.Text
