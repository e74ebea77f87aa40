import Runbook.Number.Numeral
import Runbook.Number.Rounded
import Runbook.Value

/-!
Message templates. A percent sign opens a place that is filled with an argument: as plain text,
as shown text, as an integer, in hexadecimal or octal digits, as a decimal number, or as a single
character. Between the sign and the letter may stand a field name, flags, a width and a
precision; an asterisk takes the width or the precision from the arguments. A template is filled
only if its places and its arguments match one to one; a record of arguments may have fields left
over.
-/
namespace Runbook.Log

open Number

/-- A width or a precision as a template gives it. -/
inductive Size where
  | given (n : Nat)
  | argument
  deriving DecidableEq, Repr

/-- How a place is filled. -/
structure Place where
  field : Option String
  left : Bool
  zeros : Bool
  plus : Bool
  space : Bool
  alternate : Bool
  width : Nat
  precision : Option Nat
  letter : Char

def isFlag (c : Char) : Bool := "-0+ #".toList.contains c

/-- A name up to the parenthesis that closes it, with the parentheses inside it, and what follows.
The name is held backwards. -/
def takeName? : Nat → List Char → List Char → Option (String × List Char)
  | _, _, [] => none
  | depth, held, c :: cs =>
    if c = '(' then takeName? (depth + 1) (c :: held) cs
    else if c = ')' then
      match depth with
      | 0 => some (String.ofList held.reverse, cs)
      | depth + 1 => takeName? depth (c :: held) cs
    else takeName? depth (c :: held) cs

/-- A field name in parentheses, if there is one, and what follows. -/
def takeField? (cs : List Char) : Option (Option String × List Char) :=
  match cs with
  | '(' :: rest => (takeName? 0 [] rest).map fun (name, after) => (some name, after)
  | rest => some (none, rest)

/-- A size, and what follows it. Where there are no digits it is zero. -/
def takeSize (cs : List Char) : Size × List Char :=
  match cs with
  | '*' :: rest => (.argument, rest)
  | cs =>
    (.given (digitsValue 10 (cs.takeWhile Text.isAsciiDigit)), cs.dropWhile Text.isAsciiDigit)

/-- What follows the mark of a length, if there is one; the mark says nothing. -/
def dropLength (cs : List Char) : List Char :=
  match cs with
  | c :: rest => if "hlL".toList.contains c then rest else cs
  | [] => []

/-- What places are filled from: a list in order, or one record by its field names. A record has
one value at hand: itself at first, and then that of the field named last, once. -/
inductive Arguments where
  | items (values : List Value)
  | named (fields : Fields) (atHand : Option Value)

/-- Puts the value of a field at hand. -/
def Arguments.select? (a : Arguments) (field : Option String) : Option Arguments :=
  match field, a with
  | none, a => some a
  | some key, .named fields _ =>
    (Keyed.get? key fields).map fun v => .named fields (some v)
  | some _, .items _ => none

def Arguments.take? : Arguments → Option (Value × Arguments)
  | .items (v :: rest) => some (v, .items rest)
  | .items [] => none
  | .named fields (some v) => some (v, .named fields none)
  | .named _ none => none

def Arguments.spent : Arguments → Bool
  | .items rest => rest.isEmpty
  | .named _ _ => true

def integer? : Value → Option Int
  | .int n => some n
  | .bool b => some (if b then 1 else 0)
  | _ => none

/-- Widths and precisions are less than this number. -/
def sizeLimit : Nat := 2147483648

/-- A size with the argument it may take. -/
def Size.take? (s : Size) (a : Arguments) : Option (Int × Arguments) := do
  let (n, a) ← match s with
    | .given n => some ((n : Int), a)
    | .argument => do
      let (v, a) ← a.take?
      pure (← integer? v, a)
  guard (n.natAbs < sizeLimit)
  pure (n, a)

/-- A place after its percent sign, the arguments left for it, and what follows it. A negative
width puts the text to the left. -/
def takePlace? (a : Arguments) (cs : List Char) : Option (Place × Arguments × List Char) := do
  let (field, cs) ← takeField? cs
  let a ← a.select? field
  let flags := cs.takeWhile isFlag
  let (width, cs) := takeSize (cs.dropWhile isFlag)
  let (width, a) ← width.take? a
  let (precision, a, cs) ← match cs with
    | '.' :: rest => do
      let (size, after) := takeSize rest
      let (n, a) ← size.take? a
      pure (some n.toNat, a, after)
    | rest => some (none, a, rest)
  let cs := dropLength cs
  let letter ← cs.head?
  pure (⟨field, flags.contains '-' || width < 0, flags.contains '0', flags.contains '+',
    flags.contains ' ', flags.contains '#', width.natAbs, precision, letter⟩, a, cs.tail)

def spaces (n : Nat) : List Char := List.replicate n ' '

/-- A text in its width. -/
def Place.padText (p : Place) (cs : List Char) : List Char :=
  if p.left then cs ++ spaces (p.width - cs.length) else spaces (p.width - cs.length) ++ cs

def Place.signed (p : Place) (negative : Bool) : List Char :=
  if negative then ['-'] else if p.plus then ['+'] else if p.space then [' '] else []

/-- A number in its width; zeros go between the sign and the digits. -/
def Place.padNumber (p : Place) (negative : Bool) (mark digits : List Char) : List Char :=
  let front := p.signed negative ++ mark
  if p.zeros && !p.left then front ++ zeroPadded (p.width - front.length) digits
  else p.padText (front ++ digits)

def upperChars (cs : List Char) : List Char := cs.map Char.toUpper

def Place.fillInt (p : Place) (base : Nat) (upper : Bool) (mark : List Char) (n : Int) :
    List Char :=
  let digits := zeroPadded (p.precision.getD 1) (Nat.toDigits base n.natAbs)
  p.padNumber (n < 0) (if p.alternate then mark else [])
    (if upper then upperChars digits else digits)

/-- A double cut to an integer. -/
def truncated? (x : Binary64) : Option Int :=
  if x.isNaN || x.isInfinite then none else some (Int.tdiv x.scaled Binary64.grain)

/-- A double, or an integer that is not too large for one. -/
def number? : Value → Option Binary64
  | .float x => some x
  | v => (integer? v).bind fun n =>
    let x := Binary64.ofInt n
    if x.isInfinite then none else some x

/-- The digits of a finite number in the form a letter stands for. -/
def Place.decimal (p : Place) (x : Binary64) : List Char :=
  let precision := p.precision.getD 6
  match p.letter.toLower with
  | 'e' => x.scientificText p.alternate precision
  | 'g' => x.generalText p.alternate (max 1 precision)
  | _ => x.fixedText p.alternate precision

def Place.fillDecimal (p : Place) (x : Binary64) : List Char :=
  let body :=
    if x.isNaN then "nan".toList else if x.isInfinite then "inf".toList else p.decimal x
  p.padNumber (x.isNegative && !x.isNaN) [] (if p.letter.isUpper then upperChars body else body)

def Place.cut (p : Place) (cs : List Char) : List Char :=
  match p.precision with
  | some n => cs.take n
  | none => cs

/-- The text of an argument in a place. -/
def Place.fill? (p : Place) (v : Value) : Option (List Char) :=
  match p.letter with
  | 's' => some (p.padText (p.cut v.plain.toList))
  | 'r' => some (p.padText (p.cut v.shown.toList))
  | 'a' => some (p.padText (p.cut (Text.asciiOnly v.shown.toList)))
  | 'd' | 'i' | 'u' =>
    match v with
    | .float x => (truncated? x).map (p.fillInt 10 false [])
    | v => (integer? v).map (p.fillInt 10 false [])
  | 'x' => (integer? v).map (p.fillInt 16 false ['0', 'x'])
  | 'X' => (integer? v).map (p.fillInt 16 true ['0', 'X'])
  | 'o' => (integer? v).map (p.fillInt 8 false ['0', 'o'])
  | 'e' | 'E' | 'f' | 'F' | 'g' | 'G' => (number? v).map p.fillDecimal
  | 'c' =>
    match v with
    | .text s => if s.length = 1 then some (p.padText s.toList) else none
    | v => (integer? v).bind fun n =>
      if 0 ≤ n ∧ n < 0x110000 then some (p.padText [Char.ofNat n.toNat]) else none
  | _ => none

/-- Fills the places of a template. Two percent signs stand for one. -/
def fillPlaces? : Nat → Arguments → List Char → Option (List Char)
  | _, a, [] => if a.spent then some [] else none
  | 0, _, _ => none
  | fuel + 1, a, '%' :: '%' :: cs => (fillPlaces? fuel a cs).map ('%' :: ·)
  | fuel + 1, a, '%' :: cs => do
    let (p, a, rest) ← takePlace? a cs
    let (v, a) ← a.take?
    let text ← p.fill? v
    let more ← fillPlaces? fuel a rest
    pure (text ++ more)
  | fuel + 1, a, c :: cs => (fillPlaces? fuel a cs).map (c :: ·)

/-- A template with its arguments; without arguments it stands as it is. -/
def fillTemplate? (template : String) (arguments : List Value) : Option String :=
  let cs := template.toList
  let fill := fun a => (fillPlaces? (cs.length + 1) a cs).map String.ofList
  match arguments with
  | [] => some template
  | [.record (f :: fs)] => fill (.named (f :: fs) (some (.record (f :: fs))))
  | values => fill (.items values)

end Runbook.Log
