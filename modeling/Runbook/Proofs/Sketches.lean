import Mathlib.Data.List.DropRight
import Runbook.Proofs.Elements
import Runbook.Proofs.WellDrawn

/-!
What a list of statements shows. Its states, transitions, regions and notes are told here from the
list as a whole: a state's kind by the marks it is given, its description by the last statement that
has one, and its region by the forks that are open where it is first mentioned. For each of these
there is a law that says what one more statement changes.
-/
namespace Runbook.Workflow

open Definition (addNew)
open Draft (sourceId targetId)

/-- The statements of a diagram with the numbers of the lines they begin on. -/
abbrev Sketch := List (Nat × Element)

namespace Element

/-- The states a statement mentions, in their order. A note declares nothing. -/
def mentions : Element → List String
  | .transition source target _ _ => [sourceId source, targetId target]
  | .marker id _ | .description id _ => [id]
  | .note .. | .block .. => []

/-- The mark a statement gives to a state. -/
def markOf? (id : String) : Element → Option Mark
  | .marker other mark => if other = id then some mark else none
  | _ => none

/-- The description a statement gives to a state. -/
def textOf? (id : String) : Element → Option String
  | .description other text => if other = id then some text else none
  | _ => none

def note? : Element → Option Note
  | .note side id text => some ⟨text, id, side.name⟩
  | .block side id lines => some ⟨"\n".intercalate lines, id, side.name⟩
  | _ => none

def transition? (line : Nat) : Element → Option Transition
  | .transition source target guard label =>
    some ⟨sourceId source, targetId target, guard, label, some line⟩
  | _ => none

/-- The forks whose regions are open behind a statement, the innermost first. -/
def forksAfter (forks : List String) : Element → List String
  | .marker id .fork => id :: forks
  | .marker _ .join => forks.tail
  | _ => forks

/-- The region a statement closes. -/
def region? (forks : List String) : Element → Option Region
  | .marker id .join => forks.head?.map fun fork => ⟨fork, id⟩
  | _ => none

/-- Whether a statement is a transition out of the initial pseudostate. -/
def begins : Element → Bool
  | .transition .pseudo _ _ _ => true
  | _ => false

/-- Whether a statement closes a region. -/
def closes : Element → Bool
  | .marker _ .join => true
  | _ => false

/-- Whether two statements give one state two kinds. -/
def clashes : Element → Element → Bool
  | .marker id mark, .marker other given => id == other && mark != given
  | _, _ => false

theorem markOf?_eq_some_iff {e : Element} {id : String} {mark : Mark} :
    e.markOf? id = some mark ↔ e = .marker id mark := by
  cases e <;> simp [markOf?]

theorem textOf?_eq_some_iff {e : Element} {id text : String} :
    e.textOf? id = some text ↔ e = .description id text := by
  cases e <;> simp [textOf?]

theorem mem_mentions_of_markOf? {e : Element} {id : String} {mark : Mark}
    (h : e.markOf? id = some mark) : id ∈ e.mentions := by
  rw [markOf?_eq_some_iff.mp h]
  exact List.mem_singleton_self id

theorem mem_mentions_of_textOf? {e : Element} {id text : String} (h : e.textOf? id = some text) :
    id ∈ e.mentions := by
  rw [textOf?_eq_some_iff.mp h]
  exact List.mem_singleton_self id

end Element

namespace Sketch

/-- The states that are mentioned, in the order of their first mention. -/
def ids (sk : Sketch) : List String := (sk.flatMap fun x => x.2.mentions).foldl addNew []

def transitions (sk : Sketch) : List Transition := sk.filterMap fun x => x.2.transition? x.1

def notes (sk : Sketch) : List Note := sk.filterMap fun x => x.2.note?

/-- The forks whose regions are open at the end, the innermost first. -/
def forks (sk : Sketch) : List String := sk.foldl (fun forks x => x.2.forksAfter forks) []

/-- The regions that are closed, where some are open already. -/
def regionsFrom (forks : List String) : Sketch → List Region
  | [] => []
  | x :: rest => (x.2.region? forks).toList ++ regionsFrom (x.2.forksAfter forks) rest

def regions (sk : Sketch) : List Region := regionsFrom [] sk

def mark? (sk : Sketch) (id : String) : Option Mark := sk.findSome? fun x => x.2.markOf? id

/-- The last description a state is given. -/
def text? (sk : Sketch) (id : String) : Option String :=
  sk.reverse.findSome? fun x => x.2.textOf? id

/-- The fork of the region a state lies in: the innermost that is open where the state is first
mentioned, but for a join the innermost that stays open when it has closed its last region. -/
def region (sk : Sketch) (id : String) : Option String :=
  let closed := sk.rdropWhile fun x => x.2.markOf? id != some .join
  let before := sk.takeWhile fun x => !x.2.mentions.contains id
  (forks (if closed.isEmpty then before else closed)).head?

/-- A state as it is shown, without its actions. -/
def state (sk : Sketch) (id : String) : State :=
  if id = startId then ⟨id, .initial, [], "", none⟩
  else if id = endId then ⟨id, .terminal, [], "", none⟩
  else ⟨id, ((mark? sk id).map Mark.kind).getD .normal, [], (text? sk id).getD "", region sk id⟩

section Snoc

variable {sk : Sketch} {x : Nat × Element} {id : String}

theorem mem_ids : id ∈ ids sk ↔ ∃ x ∈ sk, id ∈ x.2.mentions := by
  unfold ids
  rw [Definition.mem_foldl_addNew, List.mem_flatMap]
  simp

theorem ids_snoc : ids (sk ++ [x]) = x.2.mentions.foldl addNew (ids sk) := by
  unfold ids
  rw [List.flatMap_append, List.foldl_append, List.flatMap_singleton]

theorem transitions_snoc :
    transitions (sk ++ [x]) = transitions sk ++ (x.2.transition? x.1).toList := by
  unfold transitions
  rw [List.filterMap_append]
  cases h : x.2.transition? x.1 <;> simp [h]

theorem notes_snoc : notes (sk ++ [x]) = notes sk ++ x.2.note?.toList := by
  unfold notes
  rw [List.filterMap_append]
  cases h : x.2.note? <;> simp [h]

theorem forks_snoc : forks (sk ++ [x]) = x.2.forksAfter (forks sk) := by
  unfold forks
  rw [List.foldl_append]
  rfl

theorem regions_snoc : regions (sk ++ [x]) = regions sk ++ (x.2.region? (forks sk)).toList := by
  suffices h : ∀ opened, regionsFrom opened (sk ++ [x]) = regionsFrom opened sk ++
      (x.2.region? (sk.foldl (fun forks x => x.2.forksAfter forks) opened)).toList from h []
  induction sk with
  | nil => simp [regionsFrom]
  | cons y rest ih =>
    intro opened
    rw [List.cons_append, regionsFrom, ih, regionsFrom, List.append_assoc]
    rfl

theorem mark?_snoc : mark? (sk ++ [x]) id = (mark? sk id).or (x.2.markOf? id) := by
  unfold mark?
  rw [List.findSome?_append]
  cases h : x.2.markOf? id <;> simp [h]

theorem text?_snoc : text? (sk ++ [x]) id = (x.2.textOf? id).or (text? sk id) := by
  unfold text?
  rw [List.reverse_append, List.reverse_singleton, List.singleton_append, List.findSome?_cons]
  cases x.2.textOf? id <;> rfl

theorem mark?_eq_none (h : id ∉ ids sk) : mark? sk id = none := by
  unfold mark?
  rw [List.findSome?_eq_none_iff]
  intro x hx
  by_contra hmark
  obtain ⟨mark, hmark⟩ := Option.ne_none_iff_exists'.mp hmark
  exact h (mem_ids.mpr ⟨x, hx, Element.mem_mentions_of_markOf? hmark⟩)

theorem text?_eq_none (h : id ∉ ids sk) : text? sk id = none := by
  unfold text?
  rw [List.findSome?_eq_none_iff]
  intro x hx
  by_contra htext
  obtain ⟨text, htext⟩ := Option.ne_none_iff_exists'.mp htext
  exact h (mem_ids.mpr ⟨x, List.mem_reverse.mp hx, Element.mem_mentions_of_textOf? htext⟩)

theorem takeWhile_eq_self (h : id ∉ ids sk) :
    sk.takeWhile (fun x => !x.2.mentions.contains id) = sk := by
  rw [List.takeWhile_eq_self_iff]
  intro x hx
  have hnot : id ∉ x.2.mentions := fun hid => h (mem_ids.mpr ⟨x, hx, hid⟩)
  simp [hnot]

theorem rdropWhile_eq_nil (h : id ∉ ids sk) :
    sk.rdropWhile (fun x => x.2.markOf? id != some .join) = [] := by
  rw [List.rdropWhile_eq_nil_iff]
  intro x hx
  rw [bne_iff_ne]
  intro hmark
  exact h (mem_ids.mpr ⟨x, hx, Element.mem_mentions_of_markOf? hmark⟩)

/-- A state that is not mentioned would lie in the innermost region. -/
theorem region_of_not_mem (h : id ∉ ids sk) : region sk id = (forks sk).head? := by
  unfold region
  simp only [rdropWhile_eq_nil h, takeWhile_eq_self h, List.isEmpty_nil, if_true]

theorem region_joined (h : x.2.markOf? id = some .join) :
    region (sk ++ [x]) id = (forks (sk ++ [x])).head? := by
  have hclosed : (sk ++ [x]).rdropWhile (fun x => x.2.markOf? id != some .join) = sk ++ [x] :=
    List.rdropWhile_concat_neg _ _ _ (by simp [h])
  unfold region
  simp only [hclosed]
  rw [if_neg (by simp)]

/-- Where a state lies is settled when it is first mentioned, but by the marks of a join. -/
theorem region_snoc (h : x.2.markOf? id ≠ some .join) (hid : id ∈ ids (sk ++ [x])) :
    region (sk ++ [x]) id = region sk id := by
  have hclosed : (sk ++ [x]).rdropWhile (fun x => x.2.markOf? id != some .join) =
      sk.rdropWhile fun x => x.2.markOf? id != some .join :=
    List.rdropWhile_concat_pos _ _ _ (bne_iff_ne.mpr h)
  have hbefore : (sk ++ [x]).takeWhile (fun x => !x.2.mentions.contains id) =
      sk.takeWhile fun x => !x.2.mentions.contains id := by
    by_cases hold : id ∈ ids sk
    · obtain ⟨y, hy, hmentions⟩ := mem_ids.mp hold
      rw [List.takeWhile_append, if_neg]
      intro hlength
      have hself := List.takeWhile_eq_self_iff.mp
        ((List.takeWhile_sublist _).eq_of_length hlength) y hy
      simp [hmentions] at hself
    · have hnew : id ∈ x.2.mentions := by
        rw [ids_snoc, Definition.mem_foldl_addNew] at hid
        exact hid.resolve_left hold
      rw [List.takeWhile_append, takeWhile_eq_self hold, if_pos rfl]
      simp [hnew]
  unfold region
  simp only [hclosed, hbefore]

/-- A statement that neither marks nor describes a state leaves it as it is shown. -/
theorem state_snoc (hmark : x.2.markOf? id = none) (htext : x.2.textOf? id = none)
    (hid : id ∈ ids (sk ++ [x])) : state (sk ++ [x]) id = state sk id := by
  have hregion : region (sk ++ [x]) id = region sk id :=
    region_snoc (by rw [hmark]; nofun) hid
  unfold state
  rw [mark?_snoc, text?_snoc, hmark, htext, Option.or_none, Option.none_or, hregion]

theorem mark?_marked {mark : Mark} (hmark : x.2.markOf? id = some mark)
    (hsame : ∀ given, mark? sk id = some given → given = mark) :
    mark? (sk ++ [x]) id = some mark := by
  rw [mark?_snoc, hmark]
  cases hgiven : mark? sk id with
  | none => rfl
  | some given => rw [hsame given hgiven, Option.some_or]

section Changed

variable {mark : Mark} (hstart : id ≠ startId) (hend : id ≠ endId)
include hstart hend

theorem state_described {text : String} (hmark : x.2.markOf? id = none)
    (htext : x.2.textOf? id = some text) :
    state (sk ++ [x]) id = { state sk id with description := text } := by
  have hid : id ∈ ids (sk ++ [x]) := mem_ids.mpr
    ⟨x, List.mem_append_right _ (List.mem_singleton_self x), Element.mem_mentions_of_textOf? htext⟩
  have hregion : region (sk ++ [x]) id = region sk id := region_snoc (by rw [hmark]; nofun) hid
  unfold state
  rw [if_neg hstart, if_neg hend, if_neg hstart, if_neg hend, mark?_snoc, text?_snoc, hmark, htext,
    Option.or_none, hregion]
  rfl

theorem state_marked (hmark : x.2.markOf? id = some mark) (htext : x.2.textOf? id = none)
    (hsame : ∀ given, mark? sk id = some given → given = mark) (hjoin : mark ≠ .join) :
    state (sk ++ [x]) id = { state sk id with kind := mark.kind } := by
  have hid : id ∈ ids (sk ++ [x]) := mem_ids.mpr
    ⟨x, List.mem_append_right _ (List.mem_singleton_self x), Element.mem_mentions_of_markOf? hmark⟩
  have hregion : region (sk ++ [x]) id = region sk id := by
    refine region_snoc ?_ hid
    rw [hmark]
    exact fun h => hjoin (Option.some.inj h)
  unfold state
  rw [if_neg hstart, if_neg hend, if_neg hstart, if_neg hend,
    mark?_marked hmark hsame, text?_snoc, htext, Option.none_or, hregion]
  rfl

theorem state_joined (hmark : x.2.markOf? id = some .join) (htext : x.2.textOf? id = none)
    (hsame : ∀ given, mark? sk id = some given → given = .join) :
    state (sk ++ [x]) id =
      { state sk id with kind := .join, region := (forks (sk ++ [x])).head? } := by
  unfold state
  rw [if_neg hstart, if_neg hend, if_neg hstart, if_neg hend,
    mark?_marked hmark hsame, text?_snoc, htext, Option.none_or, region_joined hmark]
  rfl

end Changed

theorem state_of_not_mem (hstart : id ≠ startId) (hend : id ≠ endId) (h : id ∉ ids sk) :
    state sk id = ⟨id, .normal, [], "", (forks sk).head?⟩ := by
  unfold state
  rw [if_neg hstart, if_neg hend, mark?_eq_none h, text?_eq_none h, region_of_not_mem h]
  rfl

theorem nodup_ids (sk : Sketch) : (ids sk).Nodup := by
  unfold ids
  generalize sk.flatMap (fun x => x.2.mentions) = mentioned
  suffices h : ∀ seen : List String, seen.Nodup → (mentioned.foldl addNew seen).Nodup from
    h [] List.nodup_nil
  induction mentioned with
  | nil => exact fun _ h => h
  | cons id rest ih => exact fun seen h => ih _ (Draft.nodup_addNew h id)

end Snoc

/-- A list of statements as an author may give it. -/
structure Coherent (sk : Sketch) : Prop where
  /-- The pseudostate begins one transition at most. -/
  begins : (sk.filter fun x => x.2.begins).length ≤ 1
  /-- No state has two kinds. -/
  marks : ∀ x ∈ sk, ∀ y ∈ sk, ∀ id mark mark', x.2 = .marker id mark → y.2 = .marker id mark' →
    mark = mark'
  /-- Fork and join markers are bracketed. -/
  paired : ∀ before line id after, sk = before ++ (line, .marker id .join) :: after →
    forks before ≠ []
  closed : forks sk = []
  /-- Only forks have several unguarded exits. -/
  exits : ∀ id, (state sk id).kind ≠ .fork →
    ((transitions sk).filter fun t => t.source == id && t.guard.isNone).length ≤ 1

section Coherence

variable {sk : Sketch}

/-- Whether each join closes a region, where some are open already. -/
def closesOpened : List String → Sketch → Bool
  | _, [] => true
  | opened, x :: rest =>
    !(x.2.closes && opened.isEmpty) && closesOpened (x.2.forksAfter opened) rest

theorem closesOpened_iff {opened : List String} :
    closesOpened opened sk = true ↔ ∀ before line id after,
      sk = before ++ (line, .marker id .join) :: after →
        before.foldl (fun forks x => x.2.forksAfter forks) opened ≠ [] := by
  induction sk generalizing opened with
  | nil => simp [closesOpened]
  | cons x rest ih =>
    rw [closesOpened, Bool.and_eq_true, ih]
    constructor
    · rintro ⟨hfirst, hrest⟩ before line id after hsplit
      cases before with
      | nil =>
        cases hsplit
        simpa [Element.closes] using hfirst
      | cons y before =>
        cases hsplit
        exact hrest before line id after rfl
    · intro h
      refine ⟨?_, fun before line id after hsplit => h (x :: before) line id after (hsplit ▸ rfl)⟩
      obtain ⟨line, e⟩ := x
      cases e with
      | marker id mark =>
        cases mark with
        | join => simpa [Element.closes] using h [] line id rest rfl
        | _ => rfl
      | _ => rfl

theorem clashes_eq_false_iff {e e' : Element} : e.clashes e' = false ↔
    ∀ id mark mark', e = .marker id mark → e' = .marker id mark' → mark = mark' := by
  constructor
  · rintro h id mark mark' rfl rfl
    simpa [Element.clashes] using h
  · intro h
    unfold Element.clashes
    split
    · rename_i id mark other given
      by_cases hid : id = other
      · have hsame := h id mark given rfl (hid ▸ rfl)
        simp [hsame]
      · simp [hid]
    · rfl

/-- Only what a transition leaves has exits. -/
theorem few_exits_iff : (∀ id, (state sk id).kind ≠ .fork →
      ((transitions sk).filter fun t => t.source == id && t.guard.isNone).length ≤ 1) ↔
    ∀ x ∈ transitions sk, (state sk x.source).kind ≠ .fork →
      ((transitions sk).filter fun t => t.source == x.source && t.guard.isNone).length ≤ 1 := by
  refine ⟨fun h x _ => h x.source, fun h id hkind => ?_⟩
  by_cases hleft : ∃ x ∈ transitions sk, x.source = id
  · obtain ⟨x, hx, rfl⟩ := hleft
    exact h x hx hkind
  · have hnone : (transitions sk).filter (fun t => t.source == id && t.guard.isNone) = [] := by
      rw [List.filter_eq_nil_iff]
      intro t ht hexit
      rw [Bool.and_eq_true, beq_iff_eq] at hexit
      exact hleft ⟨t, ht, hexit.1⟩
    rw [hnone]
    exact Nat.zero_le 1

instance : DecidablePred Coherent := fun sk =>
  decidable_of_iff ((sk.filter fun x => x.2.begins).length ≤ 1 ∧
      (∀ x ∈ sk, ∀ y ∈ sk, x.2.clashes y.2 = false) ∧ closesOpened [] sk = true ∧ forks sk = [] ∧
      ∀ x ∈ transitions sk, (state sk x.source).kind ≠ .fork →
        ((transitions sk).filter fun t => t.source == x.source && t.guard.isNone).length ≤ 1)
    ⟨fun ⟨hbegins, hmarks, hpaired, hclosed, hexits⟩ =>
      ⟨hbegins, fun x hx y hy => clashes_eq_false_iff.mp (hmarks x hx y hy),
        closesOpened_iff.mp hpaired, hclosed, few_exits_iff.mpr hexits⟩,
    fun h =>
      ⟨h.begins, fun x hx y hy => clashes_eq_false_iff.mpr (h.marks x hx y hy),
        closesOpened_iff.mpr h.paired, h.closed, few_exits_iff.mp h.exits⟩⟩

end Coherence

end Sketch

end Runbook.Workflow
