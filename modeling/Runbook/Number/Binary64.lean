/-!
Double-precision numbers as their 64 bits. A finite number is an integer multiple of the least
positive one, so its exact value is an integer, `scaled`, and order, equality with integers and
arithmetic are integer arithmetic. Every operation is its exact result rounded once to the
nearest number, a tie going to the even significand.
-/
namespace Runbook.Number

structure Binary64 where
  bits : UInt64
  deriving DecidableEq, Repr, Inhabited

namespace Binary64

def word (x : Binary64) : Nat := x.bits.toNat

def isNegative (x : Binary64) : Bool := Nat.pow 2 63 ≤ x.word

/-- The biased exponent. -/
def exponent (x : Binary64) : Nat := x.word / Nat.pow 2 52 % Nat.pow 2 11

def fraction (x : Binary64) : Nat := x.word % Nat.pow 2 52

def isNaN (x : Binary64) : Bool := x.exponent == 2047 && x.fraction != 0

def isInfinite (x : Binary64) : Bool := x.exponent == 2047 && x.fraction == 0

/-- The least positive number is `2 ^ (-1074)`; this is its reciprocal. -/
def grain : Nat := Nat.pow 2 1074

/-- The absolute value of a finite number as a multiple of the least positive one. -/
def magnitude (x : Binary64) : Nat :=
  if x.exponent = 0 then x.fraction else (Nat.pow 2 52 + x.fraction) * Nat.pow 2 (x.exponent - 1)

/-- The value of a finite number as a multiple of the least positive one. -/
def scaled (x : Binary64) : Int := if x.isNegative then -(x.magnitude : Int) else x.magnitude

/-- The word of positive infinity, which is the successor of the largest finite word. -/
def infinityWord : Nat := 2047 * Nat.pow 2 52

def ofWord (negative : Bool) (word : Nat) : Binary64 :=
  ⟨UInt64.ofNat (if negative then Nat.pow 2 63 + word else word)⟩

def zero (negative : Bool) : Binary64 := ofWord negative 0

def infinity (negative : Bool) : Binary64 := ofWord negative infinityWord

def nan : Binary64 := ofWord false (infinityWord + Nat.pow 2 51)

/-- A quotient rounded to the nearest integer, a tie going to the even one. -/
def roundToEven (num den : Nat) : Nat :=
  let whole := num / den
  let rest := num % den
  if 2 * rest < den then whole
  else if den < 2 * rest then whole + 1
  else if whole % 2 = 0 then whole else whole + 1

/-- The word of the number nearest to a quotient of multiples of the least positive number. The
significand has 53 bits unless the number is too small for that, and a significand rounded up to the
next power of two carries into the exponent by plain addition. -/
def roundedWord (num den : Nat) : Nat :=
  let shift := (num / den).log2 - 52
  min (shift * Nat.pow 2 52 + roundToEven num (den * Nat.pow 2 shift)) infinityWord

/-- The number nearest to `num / den` times the least positive number. -/
def ofScaled (negative : Bool) (num den : Nat) : Binary64 := ofWord negative (roundedWord num den)

/-- The number nearest to `num / den`. -/
def ofQuotient (negative : Bool) (num den : Nat) : Binary64 := ofScaled negative (num * grain) den

def ofInt (n : Int) : Binary64 := ofQuotient (n < 0) n.natAbs 1

/-- The number nearest to `digits * 10 ^ exponent`. Exponents far outside the range are settled
beforehand, so that no needless power is computed. -/
def ofDecimal (negative : Bool) (digits : Nat) (exponent : Int) : Binary64 :=
  let places : Int := (toString digits).length
  if digits = 0 then zero negative
  else if 310 < exponent + places then infinity negative
  else if exponent + places < -330 then zero negative
  else if 0 ≤ exponent then ofQuotient negative (digits * Nat.pow 10 exponent.toNat) 1
  else ofQuotient negative digits (Nat.pow 10 (-exponent).toNat)

def neg (x : Binary64) : Binary64 := ⟨x.bits ^^^ 0x8000000000000000⟩

def mul (x y : Binary64) : Binary64 :=
  let sign := x.isNegative != y.isNegative
  if x.isNaN || y.isNaN then nan
  else if x.isInfinite || y.isInfinite then
    if (!x.isInfinite && x.magnitude == 0) || (!y.isInfinite && y.magnitude == 0) then nan
    else infinity sign
  else ofScaled sign (x.magnitude * y.magnitude) grain

def div (x y : Binary64) : Binary64 :=
  let sign := x.isNegative != y.isNegative
  if x.isNaN || y.isNaN then nan
  else if x.isInfinite then if y.isInfinite then nan else infinity sign
  else if y.isInfinite then zero sign
  else if y.magnitude = 0 then if x.magnitude = 0 then nan else infinity sign
  else ofScaled sign (x.magnitude * grain) y.magnitude

def add (x y : Binary64) : Binary64 :=
  if x.isNaN || y.isNaN then nan
  else if x.isInfinite then
    if y.isInfinite && x.isNegative != y.isNegative then nan else x
  else if y.isInfinite then y
  else
    let sum := x.scaled + y.scaled
    let sign := if sum = 0 then x.isNegative && y.isNegative else decide (sum < 0)
    ofScaled sign sum.natAbs 1

end Binary64

/-- A number without its format: an infinity, or an exact multiple of the least positive double. -/
inductive Extent where
  | below
  | finite (scaled : Int)
  | above
  deriving DecidableEq, Repr

namespace Extent

def ofInt (n : Int) : Extent := .finite (n * Binary64.grain)

/-- The extent of a double; a NaN has none. -/
def ofBinary64? (x : Binary64) : Option Extent :=
  if x.isNaN then none
  else if x.isInfinite then some (if x.isNegative then .below else .above)
  else some (.finite x.scaled)

def lt : Extent → Extent → Bool
  | .below, .below => false
  | .below, _ => true
  | .finite a, .finite b => a < b
  | .finite _, .above => true
  | _, _ => false

end Extent

end Runbook.Number
