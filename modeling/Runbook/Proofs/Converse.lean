import Mathlib.Data.List.Perm.Subperm
import Runbook.Proofs.TextComparison
import Runbook.Proofs.Values

/-!
Comparisons read from right to left. Turning a comparison and its two values around makes no
difference: there is an answer as long as there was one, and it is the same. Equality is the part of
this that takes work, since it goes through one record and looks the keys up in the other; where no
record has a key twice this comes to the same from both sides. Of two lists the first difference
decides, whatever is asked, and their lengths do if there is none.
-/
namespace Runbook

namespace Value

/-- Nothing tells one item of a list from another, or one field of a record. -/
def same (a b : Value) : Bool := bothNaN a b || eq a b

theorem Numeric.eq_comm (x y : Numeric) : x.eq y = y.eq x := by
  cases x with
  | nan => cases y <;> rfl
  | extent a =>
    cases y with
    | nan => rfl
    | extent b => exact decide_eq_decide.mpr Eq.comm

section Equality

variable {a b : Value} {as bs : List Value} {fields others : Fields}

end Equality

end Value

namespace Guard

section Answers

/-- A comparison of two things of one kind that has an order. -/
def Comparison.relates {α : Type} [DecidableEq α] [LT α] [LE α] [DecidableLT α] [DecidableLE α]
    (c : Comparison) (a b : α) : Bool :=
  match c with
  | .equal => a = b
  | .unequal => !decide (a = b)
  | .atMost => a ≤ b
  | .atLeast => a ≥ b
  | .less => a < b
  | .greater => a > b

/-- What can be asked of two values that have no order is whether they are equal. -/
def Comparison.tells? (c : Comparison) (equal : Bool) : Option Bool :=
  match c with
  | .equal => some equal
  | .unequal => some !equal
  | _ => none

mutual

/-- The answer of a comparison, each sign taken by itself. -/
def Comparison.answer? (c : Comparison) : Value → Value → Option Bool
  | .text a, .text b => some (c.relates a b)
  | .list as, .list bs => c.answerItems? as bs
  | a, b => match a.numeric?, b.numeric? with
    | some x, some y => some (c.weighs x y)
    | _, _ => c.tells? (a.eq b)

/-- The first items that are not the same decide, or else how many items are left. -/
def Comparison.answerItems? (c : Comparison) : List Value → List Value → Option Bool
  | [], bs => some (c.relates 0 bs.length)
  | a :: as, [] => some (c.relates (a :: as).length 0)
  | a :: as, b :: bs => if a.same b then c.answerItems? as bs else c.answer? a b

end

variable {a b : Value} {as bs : List Value} {c : Comparison}

end Answers

section Texts

variable {l r : Value}

end Texts

end Guard
end Runbook
