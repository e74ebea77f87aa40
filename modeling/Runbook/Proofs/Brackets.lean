import Mathlib.Data.List.Basic
import Mathlib.Data.List.Induction
import Runbook.Proofs.Declarations

/-!
Fork and join markers as brackets. Brackets are balanced where each of them matches another one, and
in general they leave some forks open, the innermost of which is the last one without a match. A
join that comes when no fork is open matches none. So every list of brackets has a first join
without a match or leaves certain forks open, and not both.
-/
namespace Runbook.Workflow

/-- The marker of a fork, which opens a region, or of a join, which closes one, and its line. -/
inductive Bracket where
  | opening (fork : String) (line : Nat)
  | closing (join : String) (line : Nat)
  deriving DecidableEq, Repr

namespace Bracket

/-- Every bracket matches another one. -/
inductive Balanced : List Bracket → Prop
  | nil : Balanced []
  | pair {before inner : List Bracket} {fork join : String} {first last : Nat}
      (hbefore : Balanced before) (hinner : Balanced inner) :
      Balanced (before ++ .opening fork first :: (inner ++ [.closing join last]))

/-- The forks without a match, the innermost first, with the lines of their markers. -/
inductive Leaves : List Bracket → List (String × Nat) → Prop
  | nothing {bs : List Bracket} (h : Balanced bs) : Leaves bs []
  | opening {before inner : List Bracket} {forks : List (String × Nat)} {fork : String} {line : Nat}
      (hbefore : Leaves before forks) (hinner : Balanced inner) :
      Leaves (before ++ .opening fork line :: inner) ((fork, line) :: forks)

def join? : Bracket → Option String
  | .opening .. => none
  | .closing join _ => some join

/-- Regions that brackets enclose: one for each join, in their order, from the fork that the join
matches. -/
structure Encloses (bs : List Bracket) (regions : List Region) : Prop where
  joins : regions.map Region.join = bs.filterMap join?
  forks : ∀ before join last after, bs = before ++ .closing join last :: after →
    ∃ outside fork first inside, before = outside ++ .opening fork first :: inside ∧
      Balanced inside ∧ regions[(before.filterMap join?).length]? = some ⟨fork, join⟩

variable {bs bs' rest before before' after after' : List Bracket}
  {forks forks' : List (String × Nat)}
  {fork join : String} {line first last : Nat} {regions : List Region}

theorem Balanced.append (h : Balanced bs) (h' : Balanced bs') : Balanced (bs ++ bs') := by
  induction h' with
  | nil =>
    rw [List.append_nil]
    exact h
  | pair _ hinner ih _ =>
    rw [← List.append_assoc]
    exact .pair ih hinner

theorem leaves_nil_iff : Leaves bs [] ↔ Balanced bs := by
  constructor
  · rintro ⟨h⟩
    exact h
  · exact .nothing

theorem Leaves.append_balanced (h : Leaves bs forks) (h' : Balanced bs') :
    Leaves (bs ++ bs') forks := by
  cases h with
  | nothing h => exact .nothing (h.append h')
  | opening hbefore hinner =>
    rw [List.append_assoc, List.cons_append]
    exact .opening hbefore (hinner.append h')

theorem Leaves.open (h : Leaves bs forks) :
    Leaves (bs ++ [.opening fork line]) ((fork, line) :: forks) :=
  .opening h .nil

/-- The innermost fork that is open has balanced brackets behind it. -/
theorem Leaves.exists_innermost (h : Leaves bs ((fork, first) :: forks)) : ∃ outside inside,
    bs = outside ++ .opening fork first :: inside ∧ Leaves outside forks ∧ Balanced inside := by
  cases h with
  | @opening outside inside _ _ _ hbefore hinner => exact ⟨outside, inside, rfl, hbefore, hinner⟩

/-- A join closes the innermost fork that is open. -/
theorem Leaves.close (h : Leaves bs ((fork, first) :: forks)) :
    Leaves (bs ++ [.closing join last]) forks := by
  obtain ⟨outside, inside, rfl, hbefore, hinner⟩ := h.exists_innermost
  rw [List.append_assoc, List.cons_append]
  exact hbefore.append_balanced (.pair .nil hinner)

/-! Brackets read one after another. -/

/-- The forks that are open behind some brackets, none if one of them closes nothing. -/
def scan : List (String × Nat) → List Bracket → Option (List (String × Nat))
  | forks, [] => some forks
  | forks, .opening fork line :: rest => scan ((fork, line) :: forks) rest
  | _ :: forks, .closing .. :: rest => scan forks rest
  | [], .closing .. :: _ => none

theorem Balanced.scan_append (h : Balanced bs) : scan forks (bs ++ rest) = scan forks rest := by
  induction h generalizing forks rest with
  | nil => rfl
  | pair _ _ ihbefore ihinner =>
    rw [List.append_assoc, ihbefore, List.cons_append, scan, List.append_assoc, ihinner]
    rfl

theorem Leaves.scan_append (h : Leaves bs forks) : scan [] (bs ++ rest) = scan forks rest := by
  induction h generalizing rest with
  | nothing h => exact h.scan_append
  | opening _ hinner ih =>
    rw [List.append_assoc, ih, List.cons_append, scan, hinner.scan_append]

theorem Leaves.scan_eq (h : Leaves bs forks) : scan [] bs = some forks := by
  have hscan : scan [] (bs ++ []) = scan forks [] := h.scan_append
  rw [List.append_nil] at hscan
  exact hscan

theorem Leaves.unique (h : Leaves bs forks) (h' : Leaves bs forks') : forks = forks' :=
  Option.some.inj (h.scan_eq.symm.trans h'.scan_eq)

theorem Balanced.not_leaves_closing (h : Balanced before) :
    ¬ Leaves (before ++ .closing join last :: after) forks := by
  intro hleaves
  have hscan := hleaves.scan_eq
  rw [h.scan_append] at hscan
  cases hscan

/-- There is one first join without a match. -/
theorem Balanced.closing_unique {join' : String} {last' : Nat} (h : Balanced before)
    (h' : Balanced before')
    (heq : before ++ .closing join last :: after = before' ++ .closing join' last' :: after') :
    join = join' ∧ last = last' := by
  rcases List.append_eq_append_iff.mp heq with ⟨more, rfl, hrest⟩ | ⟨more, rfl, hrest⟩
  · cases more with
    | nil =>
      obtain ⟨hsame, -⟩ := List.cons.inj hrest
      cases hsame
      exact ⟨rfl, rfl⟩
    | cons b more =>
      obtain ⟨rfl, -⟩ := List.cons.inj hrest
      exact absurd (Leaves.nothing h') h.not_leaves_closing
  · cases more with
    | nil =>
      obtain ⟨hsame, -⟩ := List.cons.inj hrest
      cases hsame
      exact ⟨rfl, rfl⟩
    | cons b more =>
      obtain ⟨rfl, -⟩ := List.cons.inj hrest
      exact absurd (Leaves.nothing h) h'.not_leaves_closing

/-- Brackets have a first join without a match, or they leave certain forks open. -/
theorem unmatched_or_leaves (bs : List Bracket) :
    (∃ before join last after, bs = before ++ .closing join last :: after ∧ Balanced before) ∨
      ∃ forks, Leaves bs forks := by
  induction bs using List.reverseRecOn with
  | nil => exact Or.inr ⟨[], .nothing .nil⟩
  | append_singleton bs b ih =>
    rcases ih with ⟨before, join, last, after, rfl, hbefore⟩ | ⟨forks, hleaves⟩
    · refine Or.inl ⟨before, join, last, after ++ [b], ?_, hbefore⟩
      rw [List.append_assoc, List.cons_append]
    · cases b with
      | opening fork line => exact Or.inr ⟨_, hleaves.open⟩
      | closing join last =>
        cases forks with
        | nil => exact Or.inl ⟨bs, join, last, [], rfl, leaves_nil_iff.mp hleaves⟩
        | cons innermost outer => exact Or.inr ⟨outer, hleaves.close⟩

/-! Regions. -/

theorem encloses_nil : Encloses [] [] :=
  ⟨rfl, fun _ _ _ _ h =>
    absurd h (List.append_ne_nil_of_right_ne_nil _ (List.cons_ne_nil _ _)).symm⟩

/-- A bracket behind others is the last one or stands before it. -/
theorem eq_or_concat_of_concat_eq {b b' : Bracket} (h : bs ++ [b] = before ++ b' :: after) :
    (bs = before ∧ b = b' ∧ after = []) ∨
      ∃ more, after = more ++ [b] ∧ bs = before ++ b' :: more := by
  rcases List.eq_nil_or_concat after with rfl | ⟨more, last, rfl⟩
  · obtain ⟨rfl, hsame⟩ := List.append_inj' h rfl
    exact Or.inl ⟨rfl, List.singleton_inj.mp hsame, rfl⟩
  · rw [List.concat_eq_append, ← List.cons_append, ← List.append_assoc] at h
    obtain ⟨rfl, hsame⟩ := List.append_inj' h rfl
    obtain rfl := List.singleton_inj.mp hsame
    exact Or.inr ⟨more, List.concat_eq_append, rfl⟩

theorem Encloses.open (h : Encloses bs regions) :
    Encloses (bs ++ [.opening fork line]) regions := by
  refine ⟨?_, fun before join last after heq => ?_⟩
  · rw [h.joins, List.filterMap_append]
    exact (List.append_nil _).symm
  · rcases eq_or_concat_of_concat_eq heq with ⟨-, hb, -⟩ | ⟨more, -, hbs⟩
    · cases hb
    · exact h.forks before join last more hbs

/-- A join encloses a region with the innermost fork that is open. -/
theorem Encloses.close (h : Encloses bs regions) (hleaves : Leaves bs ((fork, first) :: forks)) :
    Encloses (bs ++ [.closing join last]) (regions ++ [⟨fork, join⟩]) := by
  have hcount : (bs.filterMap join?).length = regions.length := by
    rw [← h.joins, List.length_map]
  refine ⟨?_, fun before join' last' after heq => ?_⟩
  · rw [List.map_append, h.joins, List.filterMap_append]
    rfl
  · rcases eq_or_concat_of_concat_eq heq with ⟨rfl, hb, -⟩ | ⟨more, -, hbs⟩
    · cases hb
      obtain ⟨outside, inside, hbefore, -, hinside⟩ := hleaves.exists_innermost
      refine ⟨outside, fork, first, inside, hbefore, hinside, ?_⟩
      rw [hcount]
      exact List.getElem?_concat_length
    · obtain ⟨outside, fork', first', inside, hbefore, hinside, hregion⟩ :=
        h.forks before join' last' more hbs
      refine ⟨outside, fork', first', inside, hbefore, hinside, ?_⟩
      obtain ⟨hlt, -⟩ := List.getElem?_eq_some_iff.mp hregion
      rw [List.getElem?_append_left hlt]
      exact hregion

end Bracket

end Runbook.Workflow
