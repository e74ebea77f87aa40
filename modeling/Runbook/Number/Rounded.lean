import Runbook.Number.Shortest

/-!
Decimal text of a double with a count of digits that is given: so many places after the point, or
so many significant digits. The digits are those of the exact value, rounded once, a tie going to
the even digit. The texts have no sign.
-/
namespace Runbook.Number

def zeroPadded (width : Nat) (digits : List Char) : List Char :=
  List.replicate (width - digits.length) '0' ++ digits

/-- Digits with the point between them; a point with nothing after it is left out unless it is to
be kept. -/
def pointed (keep : Bool) (whole places : List Char) : List Char :=
  if places.isEmpty && !keep then whole else whole ++ '.' :: places

def dropTrailingZeros (cs : List Char) : List Char :=
  (cs.reverse.dropWhile (· == '0')).reverse

namespace Decimal

/-- The number of the given count of significant digits nearest to a finite number. -/
def nearest (x : Binary64) (count : Nat) : Decimal :=
  if x.magnitude = 0 then ⟨0, 1 - count⟩
  else
    let exponent := leading x - (count - 1 : Nat)
    let num := x.magnitude * Nat.pow 10 (-exponent).toNat
    let den := Binary64.grain * Nat.pow 10 exponent.toNat
    let digits := Binary64.roundToEven num den
    if digits = Nat.pow 10 count then ⟨digits / 10, exponent + 1⟩ else ⟨digits, exponent⟩

end Decimal

namespace Binary64

/-- No double has so many significant digits, or so many places: all digits after these are
zeros. -/
def digitBound : Nat := 1100

def zeros (n : Nat) : List Char := List.replicate n '0'

/-- The text of a finite number with a fixed count of places. -/
def fixedText (keep : Bool) (places : Nat) (x : Binary64) : List Char :=
  let shown := min places digitBound
  let scaled := roundToEven (x.magnitude * Nat.pow 10 shown) grain
  let digits := zeroPadded (shown + 1) (toString scaled).toList
  let size := digits.length - shown
  pointed keep (digits.take size) (digits.drop size ++ zeros (places - shown))

/-- A count of significant digits of a finite number, and the place of the decimal point counted
from the first of them. -/
def significant (count : Nat) (x : Binary64) : List Char × Int :=
  let shown := min count digitBound
  let d := Decimal.nearest x shown
  (zeroPadded shown (toString d.digits).toList ++ zeros (count - shown), d.exponent + shown)

/-- The text of a finite number with one digit before the point and a fixed count after it. -/
def scientificText (keep : Bool) (places : Nat) (x : Binary64) : List Char :=
  let (digits, point) := x.significant (places + 1)
  pointed keep (digits.take 1) (digits.drop 1) ++ exponentText (point - 1)

/-- The text of a finite number with at most a count of significant digits. Numbers from
`10 ^ (-4)` up to ten to that count are written with all their places. Zeros at the end are left
out unless the point is to be kept. -/
def generalText (keep : Bool) (count : Nat) (x : Binary64) : List Char :=
  let (digits, point) := x.significant count
  let tidy := fun (places : List Char) => if keep then places else dropTrailingZeros places
  if -4 < point && point ≤ count then
    let filled := zeros (1 - point).toNat ++ digits
    let size := if point ≤ 0 then 1 else point.toNat
    pointed keep (filled.take size) (tidy (filled.drop size))
  else pointed keep (digits.take 1) (tidy (digits.drop 1)) ++ exponentText (point - 1)

end Binary64

end Runbook.Number
