import Runbook.Number.Binary64

/-!
Decimal text of a double: the fewest significant digits that read back as the same number, and of
those the nearest. The reals that round to a number form an interval, ends included exactly when the
significand is even. For one, two, up to seventeen digits the two neighbours of the number on that
decimal grid are tried, and the first grid with a neighbour inside the interval gives the digits.
-/
namespace Runbook.Number

namespace Binary64

/-- Four times a positive finite number, and the ends of its rounding interval, in one unit; the
unit is the least positive double. -/
structure Neighbourhood where
  low : Nat
  value : Nat
  high : Nat
  closed : Bool
  deriving Repr

/-- Below a power of two the next number is half as far away as above it. -/
def neighbourhood (x : Binary64) : Neighbourhood :=
  let unit := if x.exponent = 0 then 1 else Nat.pow 2 (x.exponent - 1)
  let value := 4 * x.magnitude
  let low := if x.fraction = 0 && 1 < x.exponent then value - unit else value - 2 * unit
  ⟨low, value, value + 2 * unit, x.fraction % 2 == 0⟩

/-- Whether `num / den` lies in the interval, for a numerator in the interval's unit. -/
def Neighbourhood.holds (n : Neighbourhood) (num den : Nat) : Bool :=
  if n.closed then n.low * den ≤ num && num ≤ n.high * den
  else n.low * den < num && num < n.high * den

end Binary64

/-- Significant digits and the power of ten of the last one. -/
structure Decimal where
  digits : Nat
  exponent : Int
  deriving DecidableEq, Repr

namespace Decimal

/-- The exponent of the leading digit of a positive finite number. -/
def leading (x : Binary64) : Int :=
  let shifted := x.magnitude * Nat.pow 10 400 / Binary64.grain
  (toString shifted).length - 401

/-- The best number of the given count of digits inside the rounding interval, if there is one. -/
def withDigits? (n : Binary64.Neighbourhood) (lead : Int) (count : Nat) : Option Decimal :=
  let exponent := lead - (count - 1 : Nat)
  -- one step of the grid is `step / den` in the unit of the interval
  let step := 4 * Binary64.grain * Nat.pow 10 exponent.toNat
  let den := Nat.pow 10 (-exponent).toNat
  let lower := n.value * den / step
  let upper := lower + 1
  let lowerIn := n.holds (lower * step) den && lower != 0
  let upperIn := n.holds (upper * step) den
  let lowerFar := n.value * den - lower * step
  let upperFar := upper * step - n.value * den
  if lowerIn && upperIn then
    let lowerWins := lowerFar < upperFar || (lowerFar == upperFar && lower % 2 == 0)
    some ⟨if lowerWins then lower else upper, exponent⟩
  else if lowerIn then some ⟨lower, exponent⟩
  else if upperIn then some ⟨upper, exponent⟩
  else none

/-- The shortest decimal that reads back as a positive finite number. -/
def shortest (x : Binary64) : Decimal :=
  let n := x.neighbourhood
  let lead := leading x
  match (List.range 17).findSome? fun i => withDigits? n lead (i + 1) with
  | some d => d
  | none => ⟨x.magnitude, -1074⟩

/-- Significant digits without the zeros at the end, and the place of the decimal point counted from
the first of them. -/
def significant (d : Decimal) : List Char × Int :=
  let cs := (toString d.digits).toList
  let kept := (cs.reverse.dropWhile (· == '0')).reverse
  (kept, d.exponent + cs.length)

end Decimal

/-- An exponent with its sign and at least two digits. -/
def exponentText (exponent : Int) : List Char :=
  let size := (toString exponent.natAbs).toList
  let sized := if size.length < 2 then '0' :: size else size
  'e' :: (if exponent < 0 then '-' else '+') :: sized

/-- Numbers from `10 ^ (-4)` up to `10 ^ 16` are written with all their places and at least one
after the point; the others have one digit before the point and an exponent. -/
def positional (digits : List Char) (point : Int) : List Char :=
  if -4 < point && point ≤ 16 then
    if point ≤ 0 then '0' :: '.' :: List.replicate (-point).toNat '0' ++ digits
    else if digits.length ≤ point.toNat then
      digits ++ List.replicate (point.toNat - digits.length) '0' ++ ['.', '0']
    else digits.take point.toNat ++ '.' :: digits.drop point.toNat
  else
    let mantissa := match digits with
      | [] => ['0']
      | [d] => [d]
      | d :: ds => d :: '.' :: ds
    mantissa ++ exponentText (point - 1)

namespace Binary64

def text (x : Binary64) : String :=
  if x.isNaN then "nan"
  else
    let body :=
      if x.isInfinite then ['i', 'n', 'f']
      else if x.magnitude = 0 then ['0', '.', '0']
      else
        let (digits, point) := (Decimal.shortest x).significant
        positional digits point
    String.ofList (if x.isNegative then '-' :: body else body)

end Binary64

end Runbook.Number
