import Mathlib.Data.List.Forall2
import Mathlib.Data.List.TakeWhile
import Runbook.Workflow.Statement

/-!
The small readers that notations are made of. Each of them takes something off the front of a text,
as long as it goes, and gives what is left; so what it reads is told by a law that puts the text
together again, and says with what the rest does not go on.
-/
namespace Runbook.Text

/-- A piece of white space, which may be empty. -/
def Blanks (gap : List Char) : Prop := ∀ c ∈ gap, isBlank c = true

instance (gap : List Char) : Decidable (Blanks gap) :=
  decidable_of_iff (gap.all isBlank = true) List.all_eq_true

/-- The first character of a text, if it has one, is not of a class. -/
def Stops (p : Char → Bool) (rest : List Char) : Prop := ∀ c ∈ rest.head?, p c = false

instance (p : Char → Bool) (rest : List Char) : Decidable (Stops p rest) :=
  decidable_of_iff (rest.head?.all (fun c => !p c) = true) (by cases rest <;> simp [Stops])

theorem stops_nil (p : Char → Bool) : Stops p [] := nofun

theorem stops_cons {p : Char → Bool} {c : Char} {cs : List Char} :
    Stops p (c :: cs) ↔ p c = false := by
  simp [Stops]

/-- A text is split where a class of characters ends. -/
theorem split_iff {p : Char → Bool} {cs a b : List Char} :
    (cs.takeWhile p = a ∧ cs.dropWhile p = b) ↔
      cs = a ++ b ∧ (∀ x ∈ a, p x = true) ∧ Stops p b := by
  constructor
  · intro h
    obtain ⟨rfl, rfl⟩ := h
    refine ⟨(List.takeWhile_append_dropWhile ..).symm, fun x hx => List.mem_takeWhile_imp hx, ?_⟩
    intro c hc
    have hne : cs.dropWhile p ≠ [] := by
      intro hnil
      rw [hnil] at hc
      cases hc
    have hhead := List.head_dropWhile_not p hne
    rw [List.head?_eq_some_head hne] at hc
    obtain rfl := Option.some.inj hc
    simpa using hhead
  · intro h
    obtain ⟨rfl, ha, hb⟩ := h
    rw [List.takeWhile_append_of_pos ha, List.dropWhile_append_of_pos ha]
    cases b with
    | nil => simp
    | cons c rest =>
      have hc := stops_cons.mp hb
      simp [hc]

theorem split_takeWhile (p : Char → Bool) (cs : List Char) :
    cs = cs.takeWhile p ++ cs.dropWhile p ∧ (∀ x ∈ cs.takeWhile p, p x = true) ∧
      Stops p (cs.dropWhile p) := split_iff.mp ⟨rfl, rfl⟩

section Trimming

theorem trimStart_append {gap : List Char} (h : Blanks gap) (cs : List Char) :
    trimStart (gap ++ cs) = trimStart cs := List.dropWhile_append_of_pos h

theorem trimStart_of_stops {cs : List Char} (h : Stops isBlank cs) : trimStart cs = cs :=
  ((split_iff (a := [])).mpr ⟨rfl, nofun, h⟩).2

/-- A text without blanks at its ends stays as it is. -/
theorem trim_of_stops {cs : List Char} (hfirst : Stops isBlank cs)
    (hlast : Stops isBlank cs.reverse) : trim cs = cs := by
  have hend : cs.reverse.dropWhile isBlank = cs.reverse := trimStart_of_stops hlast
  unfold trim trimEnd
  rw [trimStart_of_stops hfirst, hend, List.reverse_reverse]

theorem toList_strip (line : String) : (strip line).toList = trim line.toList :=
  String.toList_ofList

/-- A text has no blanks at its ends. -/
def Trimmed (cs : List Char) : Prop := Stops isBlank cs ∧ Stops isBlank cs.reverse

instance (cs : List Char) : Decidable (Trimmed cs) := inferInstanceAs (Decidable (_ ∧ _))

/-- What is before a text without blanks at its front is a piece of white space. -/
theorem exists_gap (cs : List Char) :
    ∃ gap, Blanks gap ∧ cs = gap ++ trimStart cs ∧ Stops isBlank (trimStart cs) := by
  obtain ⟨heq, hgap, hstops⟩ := split_takeWhile isBlank cs
  exact ⟨cs.takeWhile isBlank, hgap, heq, hstops⟩

/-- What is behind a text without blanks at its end is a piece of white space. -/
theorem exists_trailing_gap (cs : List Char) :
    ∃ text gap, Blanks gap ∧ cs = text ++ gap ∧ Stops isBlank text.reverse := by
  obtain ⟨gap, hgap, hcs, hstops⟩ := exists_gap cs.reverse
  refine ⟨(trimStart cs.reverse).reverse, gap.reverse, ?_, ?_, ?_⟩
  · exact fun x hx => hgap x (List.mem_reverse.mp hx)
  · rw [ ← List.reverse_append, ← hcs, List.reverse_reverse]
  · rwa [List.reverse_reverse]

/-- The text between blanks is what trimming leaves of them. -/
theorem trim_spaced {gap gap' cs : List Char} (hgap : Blanks gap) (hgap' : Blanks gap')
    (h : Trimmed cs) : trim (gap ++ (cs ++ gap')) = cs := by
  unfold trim trimEnd
  rw [trimStart_append hgap]
  cases cs with
  | nil =>
    have hnone : trimStart gap' = [] := by
      have hall := trimStart_append hgap' []
      rwa [List.append_nil] at hall
    rw [List.nil_append, hnone]
    rfl
  | cons c cs =>
    have hfirst : Stops isBlank (c :: cs ++ gap') := stops_cons.mpr (stops_cons.mp h.1)
    have hlast : Blanks gap'.reverse := fun x hx => hgap' x (List.mem_reverse.mp hx)
    have hend : (gap'.reverse ++ (c :: cs).reverse).dropWhile isBlank = (c :: cs).reverse :=
      (trimStart_append hlast _).trans (trimStart_of_stops h.2)
    rw [trimStart_of_stops hfirst, List.reverse_append, hend, List.reverse_reverse]

theorem trim_gap_append {gap cs : List Char} (hgap : Blanks gap) (h : Trimmed cs) :
    trim (gap ++ cs) = cs := by
  have hnone : Blanks [] := nofun
  have hspaced := trim_spaced hgap hnone h
  rwa [List.append_nil] at hspaced

/-- What trimming leaves is a trimmed text, and it takes away white space at the ends. -/
theorem exists_trim (cs : List Char) :
    ∃ gap gap', Blanks gap ∧ Blanks gap' ∧ cs = gap ++ (trim cs ++ gap') ∧ Trimmed (trim cs) := by
  obtain ⟨gap, hgap, hcs, hfirst⟩ := exists_gap cs
  obtain ⟨text, gap', hgap', hrest, hlast⟩ := exists_trailing_gap (trimStart cs)
  have htext : Trimmed text := by
    refine ⟨?_, hlast⟩
    cases text with
    | nil => exact stops_nil _
    | cons c text => exact stops_cons.mpr (stops_cons.mp (hrest ▸ hfirst))
  rw [hrest] at hcs
  have htrim : trim cs = text := by
    rw [hcs]
    exact trim_spaced hgap hgap' htext
  rw [htrim]
  exact ⟨gap, gap', hgap, hgap', hcs, htext⟩

theorem trimmed_trim (cs : List Char) : Trimmed (trim cs) := by
  obtain ⟨gap, gap', -, -, -, h⟩ := exists_trim cs
  exact h

/-- Blanks around a text make no difference where it is trimmed. -/
theorem trim_append_gaps {gap gap' : List Char} (hgap : Blanks gap) (hgap' : Blanks gap')
    (cs : List Char) : trim (gap ++ (cs ++ gap')) = trim cs := by
  obtain ⟨before, after, hbefore, hafter, hcs, h⟩ := exists_trim cs
  have hfirst : Blanks (gap ++ before) := List.forall_mem_append.mpr ⟨hgap, hbefore⟩
  have hlast : Blanks (after ++ gap') := List.forall_mem_append.mpr ⟨hafter, hgap'⟩
  have hwhole : gap ++ (cs ++ gap') = (gap ++ before) ++ (trim cs ++ (after ++ gap')) := by
    rw [List.append_assoc, ← List.append_assoc (trim cs), ← List.append_assoc before, ← hcs]
  rw [hwhole, trim_spaced hfirst hlast h]

end Trimming

section Letters

theorem isAsciiLetter_iff {c : Char} : isAsciiLetter c = true ↔
    97 ≤ c.toNat ∧ c.toNat ≤ 122 ∨ 65 ≤ c.toNat ∧ c.toNat ≤ 90 := by
  simp only [isAsciiLetter, Bool.or_eq_true, Bool.and_eq_true, decide_eq_true_eq, Char.le_def,
    UInt32.le_iff_toNat_le]
  rfl

theorem isIdentChar_iff {c : Char} : isIdentChar c = true ↔
    97 ≤ c.toNat ∧ c.toNat ≤ 122 ∨ 65 ≤ c.toNat ∧ c.toNat ≤ 90 ∨ c.toNat = 95 ∨
      48 ≤ c.toNat ∧ c.toNat ≤ 57 := by
  have hunderscore : c = '_' ↔ c.toNat = 95 := by
    rw [← Char.toNat_inj]
    rfl
  simp only [isIdentChar, isIdentStart, isAsciiDigit, Bool.or_eq_true, isAsciiLetter_iff,
    beq_iff_eq, hunderscore, Bool.and_eq_true, decide_eq_true_eq, Char.le_def,
    UInt32.le_iff_toNat_le, or_assoc]
  rfl

theorem isIdentChar_of_isIdentStart {c : Char} (h : isIdentStart c = true) :
    isIdentChar c = true := by
  simp [isIdentChar, h]

theorem isBlank_of_isIdentChar {c : Char} (h : isIdentChar c = true) : isBlank c = false := by
  rw [isIdentChar_iff] at h
  have hbound : 33 ≤ c.toNat ∧ c.toNat < 128 := by omega
  rw [Bool.eq_false_iff]
  intro hblank
  simp only [isBlank, Bool.or_eq_true, Bool.and_eq_true, decide_eq_true_eq, beq_iff_eq] at hblank
  omega

theorem Blanks.stops_isIdentChar {gap : List Char} (h : Blanks gap) (hne : gap ≠ [])
    (rest : List Char) : Stops isIdentChar (gap ++ rest) := by
  cases gap with
  | nil => exact absurd rfl hne
  | cons c gap =>
    refine stops_cons.mpr (Bool.eq_false_iff.mpr fun hc => ?_)
    have hblank := h c (List.mem_cons_self ..)
    rw [isBlank_of_isIdentChar hc] at hblank
    cases hblank

end Letters

/-- A letter or an underscore, and then characters of identifiers. -/
def IsIdent (id : List Char) : Prop :=
  ∃ c cs, id = c :: cs ∧ isIdentStart c = true ∧ ∀ x ∈ cs, isIdentChar x = true

theorem IsIdent.isIdentChar {id : List Char} (h : IsIdent id) :
    ∀ x ∈ id, Text.isIdentChar x = true := by
  obtain ⟨c, cs, rfl, hc, hcs⟩ := h
  intro x hx
  rcases List.mem_cons.mp hx with rfl | hx
  · exact isIdentChar_of_isIdentStart hc
  · exact hcs x hx

theorem IsIdent.ne_nil {id : List Char} (h : IsIdent id) : id ≠ [] := by
  obtain ⟨c, cs, rfl, -⟩ := h
  nofun

theorem isIdent_cons {c : Char} {cs : List Char} :
    IsIdent (c :: cs) ↔ isIdentStart c = true ∧ ∀ x ∈ cs, isIdentChar x = true := by
  constructor
  · rintro ⟨_, _, hsplit, h⟩
    cases hsplit
    exact h
  · exact fun h => ⟨c, cs, rfl, h⟩

instance : DecidablePred IsIdent
  | [] => isFalse fun h => h.ne_nil rfl
  | c :: cs => decidable_of_iff (isIdentStart c = true ∧ cs.all isIdentChar = true)
      (by rw [isIdent_cons, List.all_eq_true])

/-- An identifier at the front of a text is read as long as it goes. -/
theorem takeIdent?_eq_some_iff {cs id rest : List Char} :
    takeIdent? cs = some (id, rest) ↔
      cs = id ++ rest ∧ IsIdent id ∧ Stops isIdentChar rest := by
  constructor
  · intro h
    unfold takeIdent? at h
    split at h
    · cases h
    · rename_i c cs
      split at h
      · rename_i hc
        cases h
        obtain ⟨heq, hall, hstops⟩ := split_takeWhile isIdentChar cs
        exact ⟨congrArg (c :: ·) heq, ⟨c, _, rfl, hc, hall⟩, hstops⟩
      · cases h
  · intro h
    obtain ⟨rfl, ⟨c, id, rfl, hc, hid⟩, hstops⟩ := h
    obtain ⟨htake, hdrop⟩ := split_iff.mpr ⟨rfl, hid, hstops⟩
    rw [List.cons_append, takeIdent?, if_pos hc, htake, hdrop]

/-- A keyword, letter by letter in some letter case. -/
def Spells (word : String) (cs : List Char) : Prop :=
  List.Forall₂ (fun letter c => sameLetter letter c = true) word.toList cs

instance (word : String) (cs : List Char) : Decidable (Spells word cs) :=
  inferInstanceAs (Decidable (List.Forall₂ _ _ _))

theorem dropKeyword?_eq_some_iff {word : String} {cs rest : List Char} :
    dropKeyword? word.toList cs = some rest ↔ ∃ keyword, Spells word keyword ∧
      cs = keyword ++ rest := by
  unfold Spells
  generalize word.toList = letters
  induction letters generalizing cs with
  | nil =>
    simp only [dropKeyword?, Option.some.injEq, List.forall₂_nil_left_iff, exists_eq_left,
      List.nil_append]
  | cons letter letters ih =>
    simp only [List.forall₂_cons_left_iff]
    cases cs with
    | nil =>
      simp only [dropKeyword?, reduceCtorEq, false_iff]
      intro h
      obtain ⟨keyword, ⟨c, cs, -, -, rfl⟩, heq⟩ := h
      cases heq
    | cons c cs =>
      rw [dropKeyword?]
      constructor
      · intro h
        split at h
        · rename_i hc
          obtain ⟨keyword, hkeyword, rfl⟩ := ih.mp h
          exact ⟨c :: keyword, ⟨c, keyword, hc, hkeyword, rfl⟩, rfl⟩
        · cases h
      · intro h
        obtain ⟨keyword, ⟨b, bs, hb, hbs, rfl⟩, heq⟩ := h
        obtain ⟨rfl, rfl⟩ := List.cons.inj heq
        rw [if_pos hb]
        exact ih.mpr ⟨bs, hbs, rfl⟩

end Runbook.Text

namespace Runbook.Workflow.Statement

open Text

theorem dropText?_eq_some_iff {word : String} {cs rest : List Char} :
    dropText? word cs = some rest ↔ cs = word.toList ++ rest := by
  unfold dropText?
  rw [← String.length_toList]
  constructor
  · intro h
    split at h
    · rename_i hprefix
      obtain ⟨tail, rfl⟩ := List.isPrefixOf_iff_prefix.mp hprefix
      rw [List.drop_left] at h
      rw [Option.some.inj h]
    · cases h
  · rintro rfl
    rw [if_pos (List.isPrefixOf_iff_prefix.mpr (List.prefix_append ..)), List.drop_left]

theorem isSome_dropText? {word : String} {cs : List Char} :
    (dropText? word cs).isSome = true ↔ word.toList <+: cs := by
  rw [Option.isSome_iff_exists]
  simp only [dropText?_eq_some_iff]
  constructor
  · rintro ⟨rest, rfl⟩
    exact List.prefix_append ..
  · rintro ⟨rest, rfl⟩
    exact ⟨rest, rfl⟩

theorem dropBlanks?_eq_some_iff {cs rest : List Char} :
    dropBlanks? cs = some rest ↔
      ∃ gap, Blanks gap ∧ gap ≠ [] ∧ cs = gap ++ rest ∧ Stops isBlank rest := by
  constructor
  · intro h
    unfold dropBlanks? at h
    split at h
    · rename_i c cs
      split at h
      · rename_i hc
        obtain rfl := Option.some.inj h
        obtain ⟨gap, hgap, heq, hstops⟩ := exists_gap cs
        refine ⟨c :: gap, ?_, nofun, congrArg (c :: ·) heq, hstops⟩
        intro x hx
        rcases List.mem_cons.mp hx with rfl | hx
        · exact hc
        · exact hgap x hx
      · cases h
    · cases h
  · rintro ⟨gap, hgap, hne, rfl, hstops⟩
    cases gap with
    | nil => exact absurd rfl hne
    | cons c gap =>
      have hc := hgap c (List.mem_cons_self ..)
      have hrest : Blanks gap := fun x hx => hgap x (List.mem_cons_of_mem _ hx)
      rw [List.cons_append, dropBlanks?, if_pos hc, trimStart_append hrest,
        trimStart_of_stops hstops]

end Runbook.Workflow.Statement
