import Runbook.Text.CaseRuns
import Runbook.Text.CasedRanges
import Runbook.Text.Letter

/-!
Lower and upper case of letters of every script. One letter may become several. A capital sigma at
the end of a word has a lower case of its own: the last letter before it has a case, and the next
one after it, if there is one, has none; marks that stand between letters are passed over.
-/
namespace Runbook.Text

def isWithin (ranges : List (Nat × Nat)) (c : Char) : Bool :=
  let n := c.toNat
  ranges.any fun r => r.1 ≤ n && n ≤ r.2

def isCased (c : Char) : Bool := isWithin casedRanges c

def isCaseIgnorable (c : Char) : Bool := isWithin caseIgnorableRanges c

/-- The letter that stands where the run a letter is in points to. -/
def otherCase (runs : List (Nat × Nat × Nat × Int)) (c : Char) : Char :=
  let n := c.toNat
  match runs.find? fun (first, last, step, _) =>
    first ≤ n && n ≤ last && (n - first) % step == 0 with
  | some (_, _, _, shift) => Char.ofNat (n + shift).toNat
  | none => c

def lowerChar (c : Char) : List Char :=
  if c.toNat < 128 then [c.toLower]
  else if c == 'İ' then ['i', '\u0307']
  else [otherCase lowerRuns c]

def upperChar (c : Char) : List Char :=
  if c.toNat < 128 then [c.toUpper]
  else match upperSpellings.find? fun s => s.1 == c.toNat with
    | some (_, spelling) => spelling.map Char.ofNat
    | none => [otherCase upperRuns c]

/-- Whether a word ends between two texts, of which the first is given from its end. -/
def endsWord (before after : List Char) : Bool :=
  (before.dropWhile isCaseIgnorable).head?.any isCased &&
    !(after.dropWhile isCaseIgnorable).head?.any isCased

/-- Lower case of the rest of a text, behind what is given from its end. -/
def lowerAfter (before : List Char) : List Char → List Char
  | [] => []
  | c :: cs =>
    (if c == 'Σ' && endsWord before cs then ['ς'] else lowerChar c) ++ lowerAfter (c :: before) cs

def lower (cs : List Char) : List Char := lowerAfter [] cs

def upper (cs : List Char) : List Char := cs.flatMap upperChar

def lowered (s : String) : String := String.ofList (lower s.toList)

def uppered (s : String) : String := String.ofList (upper s.toList)

theorem lowerAfter_ascii (cs : List Char) (h : ∀ c ∈ cs, c.toNat < 128) (before : List Char) :
    lowerAfter before cs = cs.map Char.toLower := by
  induction cs generalizing before with
  | nil => rfl
  | cons c cs ih =>
    have hc := h c (List.mem_cons_self ..)
    have hs : (c == 'Σ') = false := by
      rw [beq_eq_false_iff_ne]
      rintro rfl
      exact absurd hc (by decide)
    simp [lowerAfter, lowerChar, hs, hc, ih fun d hd => h d (List.mem_cons_of_mem _ hd)]

/-- Among ASCII characters only letters change. -/
theorem lower_ascii (cs : List Char) (h : ∀ c ∈ cs, c.toNat < 128) :
    lower cs = cs.map Char.toLower := lowerAfter_ascii cs h []

end Runbook.Text
