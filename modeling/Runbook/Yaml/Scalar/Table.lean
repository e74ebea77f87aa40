import Runbook.Yaml.Scalar

/-!
The order in which a set lists its members. Numbers take places in a table by their hashes, each
the first free one on a path that begins where its hash points, and are listed in the order of
their places. Equal numbers have equal hashes, whatever their kinds. A set with any other member
lists its members in the order in which they came.
-/
namespace Runbook.Yaml.Scalar

open Number

/-- Hashes of numbers are residues of this prime. -/
def hashPrime : Nat := Nat.pow 2 61 - 1

/-- The residue of a finite number, of which the grain's inverse is `2 ^ 24`, with its sign; the
two infinities have hashes of their own. -/
def extentHash (e : Extent) : Int :=
  let h : Int := match e with
    | .finite n => n.sign * (n.natAbs * Nat.pow 2 24 % hashPrime : Nat)
    | .below => -314159
    | .above => 314159
  if h = -1 then -2 else h

/-- The hash of a number that is one, as an unsigned word. -/
def hash? (s : Scalar) : Option Nat :=
  match s.numeric? with
  | some (.extent e) => some (extentHash e % (Nat.pow 2 64 : Nat)).toNat
  | _ => none

/-- The size of the table for a number of members: above four of them at least double that
number, and a power of two. -/
def tableSize (members : Nat) : Nat :=
  if members < 5 then 8 else Nat.pow 2 (Nat.log2 (2 * members) + 1)

/-- The places that are tried one after another from one on: ten of them, if there are so many
before the end of the table. -/
def stretch (size start : Nat) : List Nat :=
  if start + 9 < size then (List.range 10).map (start + ·) else [start]

/-- The first free place on the path from a place. -/
def freePlace (size : Nat) (taken : Nat → Bool) : Nat → Nat → Nat → Nat
  | 0, start, _ => start
  | fuel + 1, start, rest =>
    match (stretch size start).find? fun i => !taken i with
    | some i => i
    | none => freePlace size taken fuel ((start * 5 + 1 + rest / 32) % size) (rest / 32)

/-- Puts a member with its hash into a table. -/
def settle (table : Array (Option Scalar)) (member : Scalar × Nat) : Array (Option Scalar) :=
  let size := table.size
  let taken := fun i => ((table[i]?).getD none).isSome
  let place := freePlace size taken (13 + size) (member.2 % size) member.2
  table.setIfInBounds place (some member.1)

/-- The members of a set in the order in which they are listed. -/
def tableOrder (members : List Scalar) : List Scalar :=
  match members.mapM fun s => s.hash?.map (s, ·) with
  | none => members
  | some hashed =>
    (hashed.foldl settle (Array.replicate (tableSize members.length) none)).toList.filterMap id

end Runbook.Yaml.Scalar
