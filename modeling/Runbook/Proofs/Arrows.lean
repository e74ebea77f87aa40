import Runbook.Proofs.Notation
import Runbook.Workflow.Draft

/-!
Which lines of a diagram are arrows, and which open a note. Both are told by the shape of a line
without its blanks at the ends: an arrow is two endpoints with the sign between them, the opening of
a note is four words with blanks between them. A line that draws an arrow is read as that arrow,
unless it begins like a line that sets up the drawing; those are passed over before anything else is
tried. What a line is read as is told once, with what stands on it for that.
-/
namespace Runbook.Workflow

open Text

/-- The ways an endpoint is written. -/
inductive Endpoint.IsText : Endpoint → List Char → Prop
  | pseudo : IsText .pseudo "[*]".toList
  | state {id : List Char} (hid : IsIdent id) : IsText (.state (String.ofList id)) id

/-- An identifier is not written further. -/
def Endpoint.EndsBefore (e : Endpoint) (rest : List Char) : Prop :=
  e = .pseudo ∨ Stops isIdentChar rest

/-- An endpoint that has been written begins without blanks, and is not set off as a comment or a
heading. -/
theorem Endpoint.IsText.exists_head {e : Endpoint} {a : List Char} (h : e.IsText a) :
    ∃ c tail, a = c :: tail ∧ isBlank c = false ∧ c ≠ '%' ∧ c ≠ '#' := by
  cases h with
  | pseudo => exact ⟨'[', ['*', ']'], rfl, by decide, by decide, by decide⟩
  | state hid =>
    obtain ⟨c, id, rfl, hc, -⟩ := hid
    refine ⟨c, id, rfl, isBlank_of_isIdentChar (isIdentChar_of_isIdentStart hc), ?_, ?_⟩ <;>
    · rintro rfl
      exact absurd hc (by decide)

namespace Statement

/-- A line has the shape of an arrow between two endpoints, with any text behind it. -/
inductive DrawsArrow (source target : Endpoint) : List Char → Prop
  | intro {a gap gap' b rest : List Char} (hsource : source.IsText a) (hgap : Blanks gap)
      (hgap' : Blanks gap') (htarget : target.IsText b) (hwhole : target.EndsBefore rest) :
      DrawsArrow source target (a ++ (gap ++ ("-->".toList ++ (gap' ++ (b ++ rest)))))

/-- A line begins like one that sets up the drawing. -/
def SetsUp (cs : List Char) : Prop :=
  "stateDiagram".toList <+: cs ∨ "direction ".toList <+: lower cs

instance (cs : List Char) : Decidable (SetsUp cs) :=
  inferInstanceAs (Decidable (_ ∨ _))

/-- A line has the shape of a note's opening, in any letter case. -/
inductive OpensNote : List Char → Prop
  | intro {note gap side gap' of gap'' : List Char} {c : Char} {id : List Char}
      (hnote : Spells "note" note) (hgap : Blanks gap ∧ gap ≠ [])
      (hside : Spells "left" side ∨ Spells "right" side) (hgap' : Blanks gap' ∧ gap' ≠ [])
      (hof : Spells "of" of) (hgap'' : Blanks gap'' ∧ gap'' ≠ [])
      (hstart : isIdentStartAnyCase c = true) (hid : ∀ x ∈ id, isIdentCharAnyCase x = true) :
      OpensNote (note ++ (gap ++ (side ++ (gap' ++ (of ++ (gap'' ++ c :: id))))))

section Arrows

variable {cs : List Char} {source target : Endpoint} {rest : String}

theorem takeEndpoint?_eq_some_iff {e : Endpoint} {after : List Char} :
    takeEndpoint? cs = some (e, after) ↔
      ∃ a, e.IsText a ∧ cs = a ++ after ∧ e.EndsBefore after := by
  unfold takeEndpoint?
  constructor
  · intro h
    split at h
    · rename_i left hdrop
      cases h
      exact ⟨_, .pseudo, dropText?_eq_some_iff.mp hdrop, Or.inl rfl⟩
    · rw [Option.map_eq_some_iff] at h
      obtain ⟨⟨id, left⟩, htake, heq⟩ := h
      cases heq
      obtain ⟨hcs, hid, hstops⟩ := takeIdent?_eq_some_iff.mp htake
      exact ⟨id, .state hid, hcs, Or.inr hstops⟩
  · intro h
    obtain ⟨a, hetext, rfl, hwhole⟩ := h
    cases hetext with
    | pseudo => rw [dropText?_eq_some_iff.mpr rfl]
    | state hid =>
      -- an identifier does not begin like the pseudostate
      have hnot : dropText? "[*]" (a ++ after) = none := by
        rw [Option.eq_none_iff_forall_ne_some]
        intro left hdrop
        obtain ⟨c, id, rfl, hc, -⟩ := hid
        obtain ⟨rfl, -⟩ := List.cons.inj (dropText?_eq_some_iff.mp hdrop)
        exact absurd hc (by decide)
      have htake := takeIdent?_eq_some_iff.mpr ⟨rfl, hid, hwhole.resolve_left nofun⟩
      rw [hnot, htake]
      rfl

theorem readArrow?_eq_some {a gap gap' b after : List Char} (hsource : source.IsText a)
    (hgap : Blanks gap) (hgap' : Blanks gap') (htarget : target.IsText b)
    (hwhole : target.EndsBefore after) :
    readArrow? (a ++ (gap ++ ("-->".toList ++ (gap' ++ (b ++ after))))) =
      some (.arrow source target (strip (String.ofList after))) := by
  have hfirst : source.EndsBefore (gap ++ ("-->".toList ++ (gap' ++ (b ++ after)))) := by
    right
    rcases eq_or_ne gap [] with rfl | hne
    · exact stops_cons.mpr (by decide)
    · exact hgap.stops_isIdentChar hne _
  have hsign : Stops isBlank ("-->".toList ++ (gap' ++ (b ++ after))) :=
    stops_cons.mpr (by decide)
  have hnext : Stops isBlank (b ++ after) := by
    obtain ⟨c, tail, rfl, hc, -⟩ := htarget.exists_head
    exact stops_cons.mpr hc
  unfold readArrow?
  rw [takeEndpoint?_eq_some_iff.mpr ⟨a, hsource, rfl, hfirst⟩]
  simp only [Option.bind_eq_bind, Option.bind_some]
  rw [trimStart_append hgap, trimStart_of_stops hsign, dropText?_eq_some_iff.mpr rfl,
    Option.bind_some, trimStart_append hgap', trimStart_of_stops hnext,
    takeEndpoint?_eq_some_iff.mpr ⟨b, htarget, rfl, hwhole⟩]
  rfl

theorem readArrow?_of_draws (h : DrawsArrow source target cs) :
    ∃ rest, readArrow? cs = some (.arrow source target rest) := by
  obtain ⟨hsource, hgap, hgap', htarget, hwhole⟩ := h
  exact ⟨_, readArrow?_eq_some hsource hgap hgap' htarget hwhole⟩

/-- An identifier is no end of an arrow where the sign does not come next. -/
theorem readArrow?_eq_none {id gap after : List Char} (hid : IsIdent id) (hgap : Blanks gap)
    (hends : Stops isIdentChar (gap ++ after)) (hnext : Stops isBlank after)
    (hsign : ¬ "-->".toList <+: after) : readArrow? (id ++ (gap ++ after)) = none := by
  have hdrop : dropText? "-->" after = none :=
    Option.not_isSome_iff_eq_none.mp (mt isSome_dropText?.mp hsign)
  unfold readArrow?
  rw [takeEndpoint?_eq_some_iff.mpr ⟨id, .state hid, rfl, Or.inr hends⟩]
  simp only [Option.bind_eq_bind, Option.bind_some]
  rw [trimStart_append hgap, trimStart_of_stops hnext, hdrop]
  rfl

theorem draws_of_readArrow? (h : readArrow? cs = some (.arrow source target rest)) :
    DrawsArrow source target cs := by
  unfold readArrow? at h
  simp only [Option.bind_eq_bind, Option.bind_eq_some_iff] at h
  obtain ⟨⟨first, afterFirst⟩, hsource, between, hsign, ⟨second, afterSecond⟩, htarget, hread⟩ := h
  cases hread
  obtain ⟨a, ha, rfl, -⟩ := takeEndpoint?_eq_some_iff.mp hsource
  obtain ⟨b, hb, hrest, hwhole⟩ := takeEndpoint?_eq_some_iff.mp htarget
  obtain ⟨gap, hgap, hafter, -⟩ := exists_gap afterFirst
  obtain ⟨gap', hgap', hbetween, -⟩ := exists_gap between
  rw [hafter, dropText?_eq_some_iff.mp hsign, hbetween, hrest]
  exact .intro ha hgap hgap' hb hwhole

/-- What is neither empty nor set off as a comment or a heading says nothing only where it begins
like a line that sets up the drawing. -/
theorem isSilent_cons_iff {c : Char} {tail : List Char} (hcomment : c ≠ '%') (hheading : c ≠ '#') :
    isSilent (c :: tail) = true ↔ SetsUp (c :: tail) := by
  have hsigns : isHeading (c :: tail) = false := by
    unfold isHeading
    have hnone : (c :: tail).takeWhile (· == '#') = [] := by simp [hheading]
    rw [hnone]
    rfl
  have hmarks : (dropText? "%%" (c :: tail)).isSome = false := by
    rw [Bool.eq_false_iff]
    intro h
    obtain ⟨rest, hrest⟩ := isSome_dropText?.mp h
    exact hcomment (List.cons.inj hrest).1.symm
  unfold isSilent SetsUp
  rw [hsigns, hmarks, ← isSome_dropText?, ← isSome_dropText?]
  simp

theorem DrawsArrow.exists_head (h : DrawsArrow source target cs) :
    ∃ c tail, cs = c :: tail ∧ c ≠ '%' ∧ c ≠ '#' := by
  obtain ⟨hsource⟩ := h
  obtain ⟨c, tail, rfl, -, hcomment, hheading⟩ := hsource.exists_head
  exact ⟨c, _, rfl, hcomment, hheading⟩

/-- A line that draws an arrow is read as that arrow, unless it begins like a line that sets up the
drawing. -/
theorem read_of_draws {line : String} (h : DrawsArrow source target line.toList) :
    if SetsUp line.toList then read line = .silent
    else ∃ rest, read line = .arrow source target rest := by
  have hsilent : isSilent line.toList = true ↔ SetsUp line.toList := by
    obtain ⟨c, tail, hcs, hcomment, hheading⟩ := h.exists_head
    rw [hcs]
    exact isSilent_cons_iff hcomment hheading
  unfold read
  split
  · rename_i hsets
    rw [if_pos (hsilent.mpr hsets)]
  · rename_i hsets
    obtain ⟨rest, hread⟩ := readArrow?_of_draws h
    rw [if_neg (mt hsilent.mp hsets), hread]
    exact ⟨rest, rfl⟩

end Arrows

section Notes

/-- A letter without another case outside ASCII. -/
def isPlainLetter (letter : Char) : Bool :=
  isAsciiLetter letter && letter != 'i' && letter != 's' && letter != 'k'

/-- Such a letter stands for itself and its capital. -/
theorem eq_of_sameLetter {letter c : Char} (hplain : isPlainLetter letter = true)
    (h : sameLetter letter c = true) :
    isAsciiLetter c = true ∧ (c = letter ∨ c.toLower = letter) := by
  simp only [isPlainLetter, Bool.and_eq_true, bne_iff_ne] at hplain
  obtain ⟨⟨⟨hletter, hi⟩, hs⟩, hk⟩ := hplain
  simp only [sameLetter, beq_eq_false_iff_ne.mpr hi, beq_eq_false_iff_ne.mpr hs,
    beq_eq_false_iff_ne.mpr hk, Bool.false_and, Bool.or_false, Bool.or_eq_true, Bool.and_eq_true,
    beq_iff_eq] at h
  rcases h with rfl | ⟨hc, hlower⟩
  · exact ⟨hletter, Or.inl rfl⟩
  · exact ⟨hc, Or.inr hlower⟩

variable {cs : List Char}

/-- A character begins the word that opens a note. -/
structure NoteHead (c : Char) : Prop where
  letter : isAsciiLetter c = true
  lower : c.toLower = 'n'

theorem noteHead_of_sameLetter {c : Char} (h : sameLetter 'n' c = true) : NoteHead c := by
  obtain ⟨hletter, rfl | hlower⟩ := eq_of_sameLetter (by decide) h
  · exact ⟨hletter, by decide⟩
  · exact ⟨hletter, hlower⟩

theorem NoteHead.ne {c : Char} (h : NoteHead c) {b : Char} (hb : b.toLower ≠ 'n') :
    c ≠ b := by
  rintro rfl
  exact hb h.lower

theorem not_setsUp_of_noteHead {c : Char} {tail : List Char} (h : NoteHead c) :
    ¬ SetsUp (c :: tail) := by
  unfold SetsUp
  rw [not_or]
  constructor
  · rintro ⟨rest, hrest⟩
    exact h.ne (b := 's') (by decide) (List.cons.inj hrest).1.symm
  · have hascii : c.toNat < 128 := by
      have hletter := isAsciiLetter_iff.mp h.letter
      omega
    have hsigma : (c == 'Σ') = false := by
      rw [beq_eq_false_iff_ne]
      exact h.ne (by decide)
    rintro ⟨rest, hrest⟩
    rw [lower, lowerAfter, hsigma, lowerChar, if_pos hascii] at hrest
    have hhead : 'd' = c.toLower := (List.cons.inj hrest).1
    rw [h.lower] at hhead
    exact absurd hhead (by decide)

/-- A keyword begins with an ASCII letter, where its first letter has no case outside. -/
theorem exists_cons_of_spells {letter : Char} {letters cs : List Char}
    (hplain : isPlainLetter letter = true)
    (h : List.Forall₂ (fun letter c => sameLetter letter c = true) (letter :: letters) cs) :
    ∃ c tail, cs = c :: tail ∧ sameLetter letter c = true ∧ isAsciiLetter c = true := by
  rw [List.forall₂_cons_left_iff] at h
  obtain ⟨c, tail, hc, -, rfl⟩ := h
  exact ⟨c, tail, rfl, hc, (eq_of_sameLetter hplain hc).1⟩

theorem isIdentStart_of_isAsciiLetter {c : Char} (h : isAsciiLetter c = true) :
    isIdentStart c = true := by
  simp [isIdentStart, h]

theorem isBlank_of_isAsciiLetter {c : Char} (h : isAsciiLetter c = true) : isBlank c = false :=
  isBlank_of_isIdentChar (isIdentChar_of_isIdentStart (isIdentStart_of_isAsciiLetter h))

theorem take_length_of_spells {word : String} {keyword : List Char} (h : Spells word keyword)
    (rest : List Char) : (keyword ++ rest).take word.length = keyword := by
  have hlength : keyword.length = word.length := by
    rw [← h.length_eq, String.length_toList]
  rw [← hlength, List.take_left]

/-- A side begins with a letter of its own, and is read as it is written. -/
theorem takeSide?_of_spells {side : List Char} (h : Spells "left" side ∨ Spells "right" side)
    (rest : List Char) : takeSide? (side ++ rest) = some (side, rest) := by
  unfold takeSide?
  rcases h with hleft | hright
  · rw [List.findSome?_cons, dropKeyword?_eq_some_iff.mpr ⟨side, hleft, rfl⟩, Option.map_some,
      take_length_of_spells hleft]
  · have hnot : dropKeyword? "left".toList (side ++ rest) = none := by
      rw [Option.eq_none_iff_forall_ne_some]
      intro left hdrop
      obtain ⟨keyword, hkeyword, heq⟩ := dropKeyword?_eq_some_iff.mp hdrop
      obtain ⟨c, tail, rfl, hl, -⟩ := exists_cons_of_spells (by decide) hkeyword
      obtain ⟨c', tail', rfl, hr, -⟩ := exists_cons_of_spells (by decide) hright
      obtain ⟨rfl, -⟩ := List.cons.inj heq
      obtain ⟨-, rfl | hlower⟩ := eq_of_sameLetter (by decide) hl
      · exact absurd hr (by decide)
      · obtain ⟨-, rfl | hlower'⟩ := eq_of_sameLetter (by decide) hr
        · exact absurd hlower (by decide)
        · rw [hlower] at hlower'
          exact absurd hlower' (by decide)
    rw [List.findSome?_cons, hnot, Option.map_none, List.findSome?_cons,
      dropKeyword?_eq_some_iff.mpr ⟨side, hright, rfl⟩, Option.map_some,
      take_length_of_spells hright]

theorem spells_of_takeSide? {side rest : List Char} (h : takeSide? cs = some (side, rest)) :
    (Spells "left" side ∨ Spells "right" side) ∧ cs = side ++ rest := by
  obtain ⟨word, hword, hdrop⟩ := List.exists_of_findSome?_eq_some h
  rw [Option.map_eq_some_iff] at hdrop
  obtain ⟨left, hdrop, heq⟩ := hdrop
  obtain ⟨rfl, rfl⟩ := Prod.mk.inj heq
  obtain ⟨keyword, hkeyword, rfl⟩ := dropKeyword?_eq_some_iff.mp hdrop
  rw [take_length_of_spells hkeyword]
  refine ⟨?_, rfl⟩
  simp only [List.mem_cons, List.not_mem_nil, or_false] at hword
  rcases hword with rfl | rfl
  · exact Or.inl hkeyword
  · exact Or.inr hkeyword

theorem isIdentCharAnyCase_of_isBlank {c : Char} (h : isBlank c = true) :
    isIdentCharAnyCase c = false := by
  rw [Bool.eq_false_iff]
  intro hc
  simp only [isIdentCharAnyCase, isCaseVariant, Bool.or_eq_true, beq_iff_eq] at hc
  rcases hc with hc | ((rfl | rfl) | rfl) | rfl
  · rw [isBlank_of_isIdentChar hc] at h
    cases h
  all_goals exact absurd h (by decide)

theorem takeIdentAnyCase?_eq_some_iff {id rest : List Char} :
    takeIdentAnyCase? cs = some (id, rest) ↔ cs = id ++ rest ∧ (∃ c tail, id = c :: tail ∧
      isIdentStartAnyCase c = true ∧ ∀ x ∈ tail, isIdentCharAnyCase x = true) ∧
      Stops isIdentCharAnyCase rest := by
  constructor
  · intro h
    unfold takeIdentAnyCase? at h
    split at h
    · cases h
    · rename_i c cs
      split at h
      · rename_i hc
        cases h
        obtain ⟨heq, hall, hstops⟩ := split_takeWhile isIdentCharAnyCase cs
        exact ⟨congrArg (c :: ·) heq, ⟨c, _, rfl, hc, hall⟩, hstops⟩
      · cases h
  · rintro ⟨rfl, ⟨c, tail, rfl, hc, htail⟩, hstops⟩
    obtain ⟨htake, hdrop⟩ := split_iff.mpr ⟨rfl, htail, hstops⟩
    rw [List.cons_append, takeIdentAnyCase?, if_pos hc, htake, hdrop]

/-- The words before a note's text, or at its opening, say where it stands; nothing but blanks is
between the state's identifier and the sign before a text. -/
theorem readNote?_eq_some {note gap side gap' of gap'' id rest : List Char} {s : Statement}
    (hnote : Spells "note" note) (hgap : Blanks gap ∧ gap ≠ [])
    (hside : Spells "left" side ∨ Spells "right" side) (hgap' : Blanks gap' ∧ gap' ≠ [])
    (hof : Spells "of" of) (hgap'' : Blanks gap'' ∧ gap'' ≠ [])
    (hid : ∃ c tail, id = c :: tail ∧ isIdentStartAnyCase c = true ∧
      ∀ x ∈ tail, isIdentCharAnyCase x = true)
    (h : rest = [] ∧ s = .openNote (lowered (String.ofList side)) (String.ofList id) ∨
      ∃ gap text, Blanks gap ∧ rest = gap ++ ':' :: text ∧
        s = .note (lowered (String.ofList side)) (String.ofList id)
          (strip (String.ofList text))) :
    readNote? (note ++ (gap ++ (side ++ (gap' ++ (of ++ (gap'' ++ (id ++ rest))))))) = some s := by
  have hsideStops : ∀ rest, Stops isBlank (side ++ rest) := by
    intro rest
    rcases hside with hside | hside <;>
    · obtain ⟨b, tail, rfl, -, hb⟩ := exists_cons_of_spells (by decide) hside
      exact stops_cons.mpr (isBlank_of_isAsciiLetter hb)
  have hofStops : ∀ rest, Stops isBlank (of ++ rest) := by
    intro rest
    obtain ⟨b, tail, rfl, -, hb⟩ := exists_cons_of_spells (by decide) hof
    exact stops_cons.mpr (isBlank_of_isAsciiLetter hb)
  have hidStops : Stops isBlank (id ++ rest) := by
    obtain ⟨c, tail, rfl, hstart, -⟩ := hid
    refine stops_cons.mpr ?_
    simp only [isIdentStartAnyCase, isCaseVariant, Bool.or_eq_true, beq_iff_eq] at hstart
    rcases hstart with hstart | ((rfl | rfl) | rfl) | rfl
    · exact isBlank_of_isIdentChar (isIdentChar_of_isIdentStart hstart)
    all_goals decide
  have hends : Stops isIdentCharAnyCase rest := by
    rcases h with ⟨rfl, -⟩ | ⟨gap, text, hgap, rfl, -⟩
    · exact stops_nil _
    · cases gap with
      | nil => exact stops_cons.mpr (by decide)
      | cons c gap => exact stops_cons.mpr (isIdentCharAnyCase_of_isBlank (hgap c (by simp)))
  unfold readNote?
  rw [dropKeyword?_eq_some_iff.mpr ⟨note, hnote, rfl⟩]
  simp only [Option.bind_eq_bind, Option.bind_some]
  rw [dropBlanks?_eq_some_iff.mpr ⟨gap, hgap.1, hgap.2, rfl, hsideStops _⟩, Option.bind_some,
    takeSide?_of_spells hside]
  simp only [Option.bind_some]
  rw [dropBlanks?_eq_some_iff.mpr ⟨gap', hgap'.1, hgap'.2, rfl, hofStops _⟩, Option.bind_some,
    dropKeyword?_eq_some_iff.mpr ⟨of, hof, rfl⟩, Option.bind_some,
    dropBlanks?_eq_some_iff.mpr ⟨gap'', hgap''.1, hgap''.2, rfl, hidStops⟩, Option.bind_some,
    takeIdentAnyCase?_eq_some_iff.mpr ⟨rfl, hid, hends⟩]
  rcases h with ⟨rfl, rfl⟩ | ⟨gap, text, hgap, rfl, rfl⟩
  · rfl
  · have hnext : trimStart (gap ++ ':' :: text) = ':' :: text :=
      (trimStart_append hgap _).trans (trimStart_of_stops (stops_cons.mpr (by decide)))
    simp only [Option.bind_some, hnext]
    cases gap <;> rfl

/-- The opening of a note is read as one. -/
theorem readNote?_of_opensNote (h : OpensNote cs) :
    ∃ position id, readNote? cs = some (.openNote position id) := by
  obtain ⟨hnote, hgap, hside, hgap', hof, hgap'', hstart, hid⟩ := h
  rename_i note gap side gap' of gap'' c id
  refine ⟨lowered (String.ofList side), String.ofList (c :: id), ?_⟩
  have hread := readNote?_eq_some hnote hgap hside hgap' hof hgap'' ⟨c, id, rfl, hstart, hid⟩
    (Or.inl ⟨rfl, rfl⟩)
  rwa [List.append_nil] at hread

theorem opensNote_of_readNote? {position id : String}
    (h : readNote? cs = some (.openNote position id)) : OpensNote cs := by
  unfold readNote? at h
  simp only [Option.bind_eq_bind, Option.bind_eq_some_iff] at h
  obtain ⟨afterNote, hnote, afterGap, hgap, ⟨side, afterSide⟩, hside, afterGap', hgap', afterOf,
    hof, afterGap'', hgap'', ⟨name, rest⟩, hname, hread⟩ := h
  simp only at hgap' hread
  have hrest : rest = [] := by
    split at hread
    · rfl
    · cases hread
    · cases hread
  subst hrest
  obtain ⟨note, hnoteSpells, hcs⟩ := dropKeyword?_eq_some_iff.mp hnote
  obtain ⟨gap, hblanks, hne, hafterNote, -⟩ := dropBlanks?_eq_some_iff.mp hgap
  obtain ⟨hsideSpells, hafterGap⟩ := spells_of_takeSide? hside
  obtain ⟨gap', hblanks', hne', hafterSide, -⟩ := dropBlanks?_eq_some_iff.mp hgap'
  obtain ⟨of, hofSpells, hafterGap'⟩ := dropKeyword?_eq_some_iff.mp hof
  obtain ⟨gap'', hblanks'', hne'', hafterOf, -⟩ := dropBlanks?_eq_some_iff.mp hgap''
  obtain ⟨hafterGap'', ⟨c, tail, rfl, hstart, htail⟩, -⟩ := takeIdentAnyCase?_eq_some_iff.mp hname
  rw [hcs, hafterNote, hafterGap, hafterSide, hafterGap', hafterOf, hafterGap'', List.append_nil]
  exact .intro hnoteSpells ⟨hblanks, hne⟩ hsideSpells ⟨hblanks', hne'⟩ hofSpells
    ⟨hblanks'', hne''⟩ hstart htail

theorem isAsciiLetter_of_spells {letters cs : List Char}
    (hplain : letters.all isPlainLetter = true)
    (h : List.Forall₂ (fun letter c => sameLetter letter c = true) letters cs) :
    ∀ c ∈ cs, isAsciiLetter c = true := by
  induction h with
  | nil => nofun
  | cons hsame _ ih =>
    rw [List.all_cons, Bool.and_eq_true] at hplain
    intro c hc
    rcases List.mem_cons.mp hc with rfl | hc
    · exact (eq_of_sameLetter hplain.1 hsame).1
    · exact ih hplain.2 c hc

theorem isIdent_of_spells_note {note : List Char} (h : Spells "note" note) : IsIdent note := by
  have hall := isAsciiLetter_of_spells (by decide) h
  obtain ⟨c, tail, rfl, -, hc⟩ := exists_cons_of_spells (by decide) h
  exact ⟨c, tail, rfl, isIdentStart_of_isAsciiLetter hc, fun x hx => isIdentChar_of_isIdentStart
    (isIdentStart_of_isAsciiLetter (hall x (List.mem_cons_of_mem _ hx)))⟩

/-- The word that opens a note is no endpoint of an arrow where a side follows it. -/
theorem readArrow?_of_opensNote (h : OpensNote cs) : readArrow? cs = none := by
  obtain ⟨hnote, ⟨hgap, hne⟩, hside⟩ := h
  rename_i note gap side gap' of gap'' c id _ _ _ _ _
  obtain ⟨b, tail, rfl, hb, hsign⟩ : ∃ b tail, side = b :: tail ∧ isBlank b = false ∧ b ≠ '-' := by
    rcases hside with hside | hside <;>
    · obtain ⟨b, tail, rfl, -, hb⟩ := exists_cons_of_spells (by decide) hside
      refine ⟨b, tail, rfl, isBlank_of_isAsciiLetter hb, ?_⟩
      rintro rfl
      exact absurd hb (by decide)
  refine readArrow?_eq_none (isIdent_of_spells_note hnote) hgap (hgap.stops_isIdentChar hne _)
    (stops_cons.mpr hb) ?_
  rintro ⟨left, hleft⟩
  exact hsign (List.cons.inj hleft).1.symm

theorem OpensNote.exists_head (h : OpensNote cs) : ∃ c tail, cs = c :: tail ∧ NoteHead c := by
  obtain ⟨hnote⟩ := h
  obtain ⟨c, tail, rfl, hc, -⟩ := exists_cons_of_spells (by decide) hnote
  exact ⟨c, _, rfl, noteHead_of_sameLetter hc⟩

/-- A line that begins like a note declares no state with a word. -/
theorem no_state_of_noteHead {c : Char} (hc : NoteHead c) (tail : List Char) :
    readMarker? (c :: tail) = none ∧ readAlias? (c :: tail) = none ∧
      isComposite (c :: tail) = false := by
  have hdrop : dropText? "state" (c :: tail) = none := by
    rw [Option.eq_none_iff_forall_ne_some]
    intro left hdrop
    exact hc.ne (b := 's') (by decide) (List.cons.inj (dropText?_eq_some_iff.mp hdrop)).1
  have hstate : dropState? (c :: tail) = none := by
    unfold dropState?
    rw [hdrop]
    rfl
  refine ⟨?_, ?_, ?_⟩
  · unfold readMarker?
    rw [hstate]
    rfl
  · unfold readAlias?
    rw [hstate]
    rfl
  · unfold isComposite
    rw [hstate]
    simp [hc.ne (b := '\x7d') (by decide)]

end Notes

section Inversion

/-- What a line is read as, and what stands on it for that. -/
inductive ReadFrom (cs : List Char) : Statement → Prop
  | silent : ReadFrom cs .silent
  | composite : ReadFrom cs .composite
  | unknown : ReadFrom cs .unknown
  | arrow {source target : Endpoint} (h : DrawsArrow source target cs) (rest : String) :
      ReadFrom cs (.arrow source target rest)
  | marker {id : List Char} (hid : IsIdent id) (word : String) :
      ReadFrom cs (.marker (String.ofList id) word)
  | title {id : List Char} (hid : IsIdent id) (text : String) :
      ReadFrom cs (.alias (String.ofList id) text)
  | description {id : List Char} (hid : IsIdent id) (text : String) :
      ReadFrom cs (.description (String.ofList id) text)
  | note (position id text : String) : ReadFrom cs (.note position id text)
  | openNote {position id : String} (h : OpensNote cs) : ReadFrom cs (.openNote position id)

variable {cs : List Char} {s : Statement}

theorem readFrom_of_readArrow? (h : readArrow? cs = some s) : ReadFrom cs s := by
  have harrow := h
  unfold readArrow? at h
  iterate 3 obtain ⟨_, -, h⟩ := Option.bind_eq_some_iff.mp h
  cases h
  exact .arrow (draws_of_readArrow? harrow) _

theorem readFrom_of_readMarker? (h : readMarker? cs = some s) : ReadFrom cs s := by
  unfold readMarker? at h
  obtain ⟨_, -, h⟩ := Option.bind_eq_some_iff.mp h
  obtain ⟨⟨id, rest⟩, htake, h⟩ := Option.bind_eq_some_iff.mp h
  iterate 3 obtain ⟨_, -, h⟩ := Option.bind_eq_some_iff.mp h
  cases h
  exact .marker (takeIdent?_eq_some_iff.mp htake).2.1 _

theorem readFrom_of_readAlias? (h : readAlias? cs = some s) : ReadFrom cs s := by
  unfold readAlias? at h
  iterate 6 obtain ⟨_, -, h⟩ := Option.bind_eq_some_iff.mp h
  obtain ⟨⟨id, rest⟩, htake, h⟩ := Option.bind_eq_some_iff.mp h
  obtain ⟨_, -, h⟩ := Option.bind_eq_some_iff.mp h
  cases h
  exact .title (takeIdent?_eq_some_iff.mp htake).2.1 _

theorem readFrom_of_readDescription? (h : readDescription? cs = some s) : ReadFrom cs s := by
  unfold readDescription? at h
  obtain ⟨⟨id, rest⟩, htake, h⟩ := Option.bind_eq_some_iff.mp h
  obtain ⟨_, -, h⟩ := Option.bind_eq_some_iff.mp h
  cases h
  exact .description (takeIdent?_eq_some_iff.mp htake).2.1 _

theorem readFrom_of_readNote? (h : readNote? cs = some s) : ReadFrom cs s := by
  have hnote := h
  unfold readNote? at h
  iterate 6 obtain ⟨_, -, h⟩ := Option.bind_eq_some_iff.mp h
  obtain ⟨⟨id, rest⟩, -, h⟩ := Option.bind_eq_some_iff.mp h
  simp only at h
  split at h
  · cases h
    exact .openNote (opensNote_of_readNote? hnote)
  · cases h
    exact .note _ _ _
  · cases h

theorem readFrom (line : String) : ReadFrom line.toList (read line) := by
  unfold read
  simp only
  split
  · exact .silent
  · split
    · rename_i s hs
      rw [Option.or_eq_some_iff, Option.or_eq_some_iff] at hs
      rcases hs with harrow | ⟨-, hmarker | ⟨-, halias⟩⟩
      · exact readFrom_of_readArrow? harrow
      · exact readFrom_of_readMarker? hmarker
      · exact readFrom_of_readAlias? halias
    · split
      · exact .composite
      · cases hother : (readNote? line.toList).or (readDescription? line.toList) with
        | none => exact .unknown
        | some s =>
          rcases Option.or_eq_some_iff.mp hother with hnote | ⟨-, hdescription⟩
          · exact readFrom_of_readNote? hnote
          · exact readFrom_of_readDescription? hdescription

/-- A line is read as the opening of a note exactly when it has the shape of one. -/
theorem read_eq_openNote_iff {line : String} :
    (∃ position id, read line = .openNote position id) ↔ OpensNote line.toList := by
  constructor
  · rintro ⟨position, id, h⟩
    have hfrom := readFrom line
    rw [h] at hfrom
    cases hfrom with
    | openNote hopens => exact hopens
  · intro h
    obtain ⟨position, id, hread⟩ := readNote?_of_opensNote h
    obtain ⟨c, tail, hcs, hc⟩ := h.exists_head
    refine ⟨position, id, ?_⟩
    have hsilent : isSilent line.toList = false := by
      rw [hcs, Bool.eq_false_iff, Ne, isSilent_cons_iff (hc.ne (by decide)) (hc.ne (by decide))]
      exact not_setsUp_of_noteHead hc
    obtain ⟨hmarker, halias, hcomposite⟩ := no_state_of_noteHead hc tail
    rw [ ← hcs] at hmarker halias hcomposite
    unfold read
    simp only [hsilent, Bool.false_eq_true, if_false, readArrow?_of_opensNote h, hmarker, halias,
      Option.or_none, hcomposite, hread, Option.some_or, Option.getD_some]

end Inversion

end Statement

/-- An endpoint is not written with a reserved identifier. -/
def Endpoint.Unreserved (e : Endpoint) : Prop := ∀ id, e = .state id → id ≠ startId ∧ id ≠ endId

/-- Nobody can write a reserved identifier. -/
theorem unreserved_of_isIdent {id : List Char} (hid : IsIdent id) :
    String.ofList id ≠ startId ∧ String.ofList id ≠ endId := by
  obtain ⟨c, tail, rfl, hc, -⟩ := hid
  have hne : ∀ reserved : String, reserved.toList.head? = some '[' →
      String.ofList (c :: tail) ≠ reserved := by
    rintro reserved hhead rfl
    rw [String.toList_ofList, List.head?_cons, Option.some.injEq] at hhead
    rw [hhead] at hc
    exact absurd hc (by decide)
  exact ⟨hne startId (by decide), hne endId (by decide)⟩

theorem Endpoint.IsText.unreserved {e : Endpoint} {a : List Char} (h : e.IsText a) :
    e.Unreserved := by
  cases h with
  | pseudo => nofun
  | state hid =>
    rintro id ⟨⟩
    exact unreserved_of_isIdent hid

theorem Statement.DrawsArrow.unreserved {source target : Endpoint} {cs : List Char}
    (h : DrawsArrow source target cs) : source.Unreserved ∧ target.Unreserved := by
  obtain ⟨hsource, -, -, htarget, -⟩ := h
  exact ⟨hsource.unreserved, htarget.unreserved⟩

end Runbook.Workflow
