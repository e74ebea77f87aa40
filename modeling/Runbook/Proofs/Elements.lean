import Runbook.Proofs.Arrows
import Runbook.Workflow.Draft

/-!
The statements of a diagram as an author means them, and the ways each of them may be written. The
blanks between the parts are free, and so are the letter case of markers and of the words before a
note, the sign of a label, and the place of a guard before or behind it. A line that is written in
one of these ways is read as the statement it is meant to be, and as no other one, unless it begins
like a line that sets up the drawing.
-/
namespace Runbook.Workflow

open Text

/-- What a marker may make of a state. -/
inductive Mark where
  | choice
  | fork
  | join
  deriving DecidableEq, Repr

def Mark.kind : Mark → StateKind
  | .choice => .choice
  | .fork => .fork
  | .join => .join

/-- Where a note stands. -/
inductive Side where
  | left
  | right
  deriving DecidableEq, Repr

def Side.name : Side → String
  | .left => "left"
  | .right => "right"

/-- A statement of a diagram. -/
inductive Element where
  | transition (source target : Endpoint) (guard label : Option String)
  | marker (id : String) (mark : Mark)
  /-- What a state is called, which may be said in quotes in front of it or behind a colon. -/
  | description (id text : String)
  | note (side : Side) (id text : String)
  /-- A note on lines of its own. -/
  | block (side : Side) (id : String) (lines : List String)
  deriving DecidableEq, Repr

section Spellings

def BraceFree (cs : List Char) : Prop := ∀ c ∈ cs, c ≠ '\x7b' ∧ c ≠ '\x7d'

instance (cs : List Char) : Decidable (BraceFree cs) :=
  decidable_of_iff (cs.all (fun c => c != '\x7b' && c != '\x7d') = true) (by simp [BraceFree])

/-- How the label of a transition is written, if it has one: behind a colon or in brackets. -/
inductive LabelText : Option String → List Char → Prop
  | none {gap : List Char} (hgap : Blanks gap) : LabelText none gap
  | colon {gap gap' gap'' label : List Char} (hgap : Blanks gap) (hgap' : Blanks gap')
      (hgap'' : Blanks gap'') (hlabel : Trimmed label) (hne : label ≠ []) :
      LabelText (some (String.ofList label)) (gap ++ ':' :: (gap' ++ (label ++ gap'')))
  | bracketed {gap gap' gap'' gap₃ label : List Char} (hgap : Blanks gap) (hgap' : Blanks gap')
      (hgap'' : Blanks gap'') (hgap₃ : Blanks gap₃) (hlabel : Trimmed label) (hne : label ≠ []) :
      LabelText (some (String.ofList label))
        (gap ++ '[' :: (gap' ++ (label ++ (gap'' ++ ']' :: gap₃))))

/-- How a guard and a label are written behind an arrow. The guard stands in braces; the label is
what there is around it, if there is anything. -/
inductive ExitText : Option String → Option String → List Char → Prop
  | plain {label : Option String} {cs : List Char} (hcs : BraceFree cs)
      (hlabel : LabelText label cs) : ExitText none label cs
  | guarded {label : Option String} {before gap guard gap' after : List Char}
      (hbefore : BraceFree before) (hafter : BraceFree after) (hgap : Blanks gap)
      (hgap' : Blanks gap') (hguard : BraceFree guard) (htrimmed : Trimmed guard)
      (hne : guard ≠ []) (hlabel : LabelText label (before ++ after)) :
      ExitText (some (String.ofList guard)) label
        (before ++ '\x7b' :: ((gap ++ (guard ++ gap')) ++ '\x7d' :: after))

/-- The words that say where a note stands, in any letter case. -/
inductive NoteWords : Side → String → List Char → Prop
  | intro {side : Side} {note gap word gap' of gap'' id : List Char} (hnote : Spells "note" note)
      (hgap : Blanks gap ∧ gap ≠ []) (hside : Spells side.name word)
      (hword : lowered (String.ofList word) = side.name) (hgap' : Blanks gap' ∧ gap' ≠ [])
      (hof : Spells "of" of) (hgap'' : Blanks gap'' ∧ gap'' ≠ []) (hid : IsIdent id) :
      NoteWords side (String.ofList id)
        (note ++ (gap ++ (word ++ (gap' ++ (of ++ (gap'' ++ id))))))

/-- How a statement is written that stands on one line. -/
inductive Element.Written : Element → List Char → Prop
  | transition {source target : Endpoint} {guard label : Option String}
      {a gap gap' b rest : List Char} (hsource : source.IsText a) (hgap : Blanks gap)
      (hgap' : Blanks gap') (htarget : target.IsText b) (hwhole : target.EndsBefore rest)
      (hexit : ExitText guard label rest) :
      Written (.transition source target guard label)
        (a ++ (gap ++ ("-->".toList ++ (gap' ++ (b ++ rest)))))
  | marker {mark : Mark} {gap id gap' gap'' word gap₃ : List Char}
      (hgap : Blanks gap ∧ gap ≠ []) (hid : IsIdent id) (hgap' : Blanks gap')
      (hgap'' : Blanks gap'') (hletters : ∀ c ∈ word, isWord c = true)
      (hword : lowered (String.ofList word) = mark.kind.name) (hgap₃ : Blanks gap₃) :
      Written (.marker (String.ofList id) mark)
        ("state".toList ++ (gap ++ (id ++ (gap' ++ ("<<".toList ++
          (gap'' ++ (word ++ (gap₃ ++ ">>".toList))))))))
  | title {gap text gap' gap'' id : List Char} (hgap : Blanks gap ∧ gap ≠ [])
      (htext : '\x22' ∉ text) (hgap' : Blanks gap' ∧ gap' ≠ []) (hgap'' : Blanks gap'' ∧ gap'' ≠ [])
      (hid : IsIdent id) :
      Written (.description (String.ofList id) (String.ofList text))
        ("state".toList ++ (gap ++ '\x22' :: (text ++ '\x22' :: (gap' ++ ("as".toList ++
          (gap'' ++ id))))))
  | description {id gap gap' text : List Char} (hid : IsIdent id) (hgap : Blanks gap)
      (hgap' : Blanks gap') (htext : Trimmed text) (hend : text.getLast? ≠ some '\x7b') :
      Written (.description (String.ofList id) (String.ofList text))
        (id ++ (gap ++ ':' :: (gap' ++ text)))
  | note {side : Side} {id : String} {words gap gap' text : List Char}
      (hwords : NoteWords side id words) (hgap : Blanks gap) (hgap' : Blanks gap')
      (htext : Trimmed text) :
      Written (.note side id (String.ofList text)) (words ++ (gap ++ ':' :: (gap' ++ text)))

/-- The lines that say nothing: blank ones, comments, headings and those that set up the drawing. -/
inductive SilentText : List Char → Prop
  | blank : SilentText []
  | comment (text : List Char) : SilentText ("%%".toList ++ text)
  | heading {signs : List Char} {c : Char} (hsigns : ∀ x ∈ signs, x = '#') (hone : signs ≠ [])
      (hsix : signs.length ≤ 6) (hc : isBlank c = true) (text : List Char) :
      SilentText (signs ++ c :: text)
  | setsUp {cs : List Char} (h : Statement.SetsUp cs) : SilentText cs

end Spellings

section Exits

variable {label guard : Option String} {cs : List Char}

/-- A label is read from its text, wherever it stands between blanks. -/
theorem labelOf_of_labelText (h : LabelText label cs) : labelOf (trim cs) = .ok label := by
  cases h with
  | none hgap =>
    have htrim : trim (cs ++ ([] ++ [])) = [] := trim_spaced hgap nofun ⟨stops_nil _, stops_nil _⟩
    rw [List.append_nil, List.append_nil] at htrim
    rw [htrim]
    rfl
  | colon hgap hgap' hgap'' hlabel hne =>
    rename_i gap gap' gap'' text
    have htext : Trimmed (':' :: (gap' ++ text)) := by
      refine ⟨stops_cons.mpr (by decide), ?_⟩
      obtain ⟨c, rest, hlast⟩ := List.exists_cons_of_ne_nil (mt List.reverse_eq_nil_iff.mp hne)
      have hc := stops_cons.mp (hlast ▸ hlabel.2)
      rw [List.reverse_cons, List.reverse_append, hlast]
      exact stops_cons.mpr hc
    have htrim : trim (gap ++ ':' :: (gap' ++ (text ++ gap''))) = ':' :: (gap' ++ text) := by
      have hspaced := trim_spaced hgap hgap'' htext
      rwa [List.cons_append, List.append_assoc] at hspaced
    rw [htrim]
    simp only [labelOf, trim_gap_append hgap' hlabel]
    rw [if_neg (by simpa using hne)]
  | bracketed hgap hgap' hgap'' hgap₃ hlabel hne =>
    rename_i gap gap' gap'' gap₃ text
    have htext : Trimmed ('[' :: (gap' ++ (text ++ gap'')) ++ [']']) := by
      refine ⟨stops_cons.mpr (by decide), ?_⟩
      rw [List.reverse_append]
      exact stops_cons.mpr (by decide)
    have htrim : trim (gap ++ '[' :: (gap' ++ (text ++ (gap'' ++ ']' :: gap₃)))) =
        '[' :: ((gap' ++ (text ++ gap'')) ++ [']']) := by
      have hspaced := trim_spaced hgap hgap₃ htext
      simpa only [List.cons_append, List.append_assoc, List.nil_append] using hspaced
    have hinner : trim (gap' ++ (text ++ gap'')) = text := trim_spaced hgap' hgap'' hlabel
    rw [htrim]
    simp only [labelOf, List.getLast?_concat, if_true, List.dropLast_concat, hinner]
    rw [if_neg (by simpa using hne)]

theorem BraceFree.of_append {a b : List Char} (h : BraceFree (a ++ b)) :
    BraceFree a ∧ BraceFree b :=
  ⟨fun c hc => h c (List.mem_append_left _ hc), fun c hc => h c (List.mem_append_right _ hc)⟩

theorem braceFree_of_blanks {gap : List Char} (h : Blanks gap) : BraceFree gap := by
  intro c hc
  have hblank := h c hc
  constructor
  · rintro rfl
    exact absurd hblank (by decide)
  · rintro rfl
    exact absurd hblank (by decide)

theorem bracedPieces_append (h : BraceFree cs) (rest : List Char) :
    bracedPieces none (cs ++ rest) = bracedPieces none rest := by
  induction cs with
  | nil => rfl
  | cons c cs ih =>
    have hc := (h c (List.mem_cons_self ..)).1
    have hrest := ih fun x hx => h x (List.mem_cons_of_mem _ hx)
    rw [List.cons_append, bracedPieces, if_neg hc]
    exact hrest

theorem bracedPieces_of_braceFree (h : BraceFree cs) : bracedPieces none cs = [] := by
  have hpieces := bracedPieces_append h []
  rwa [List.append_nil] at hpieces

/-- A piece without braces is read as it stands, up to the brace that closes it. -/
theorem bracedPieces_held (h : BraceFree cs) (held rest : List Char) :
    bracedPieces (some held) (cs ++ '\x7d' :: rest) =
      (held.reverse ++ cs) :: bracedPieces none rest := by
  induction cs generalizing held with
  | nil =>
    have hopen : ('\x7d' : Char) ≠ '\x7b' := by decide
    rw [List.nil_append, bracedPieces, if_neg hopen, List.append_nil]
    rfl
  | cons c cs ih =>
    obtain ⟨hopen, hclose⟩ := h c (List.mem_cons_self ..)
    have hrest := ih (fun x hx => h x (List.mem_cons_of_mem _ hx)) (c :: held)
    rw [List.cons_append, bracedPieces, if_neg hopen]
    simp only [if_neg hclose]
    rw [hrest, List.reverse_cons, List.append_assoc]
    rfl

theorem dropBraced_guarded {before piece after : List Char} (hbefore : BraceFree before)
    (hpiece : BraceFree piece) :
    dropBraced (before ++ '\x7b' :: (piece ++ '\x7d' :: after)) = before ++ after := by
  induction before with
  | nil =>
    have hall : ∀ c ∈ piece, (c != '\x7b' && c != '\x7d') = true := by
      intro c hc
      simp [hpiece c hc]
    have hdrop : (piece ++ '\x7d' :: after).dropWhile (fun x => x != '\x7b' && x != '\x7d') =
        '\x7d' :: after := by
      rw [List.dropWhile_append_of_pos hall]
      simp
    rw [List.nil_append, dropBraced, if_pos rfl, hdrop]
    rfl
  | cons c before ih =>
    have hc := (hbefore c (List.mem_cons_self ..)).1
    have hrest : BraceFree before := fun x hx => hbefore x (List.mem_cons_of_mem _ hx)
    rw [List.cons_append, dropBraced, if_neg hc, ih hrest]
    rfl

theorem readExit_finish {line : Nat} {left : List Char} (h : labelOf left = .ok label) :
    readExit.finish line guard left = .ok (guard, label) := by
  unfold readExit.finish
  rw [h]

/-- The guard and the label behind an arrow are read from their text. -/
theorem readExit_of_exitText (h : ExitText guard label cs) (line : Nat) :
    readExit line (strip (String.ofList cs)) = .ok (guard, label) := by
  unfold readExit strip
  rw [String.toList_ofList, String.toList_ofList]
  cases h with
  | plain hcs hlabel =>
    obtain ⟨gap, gap', -, -, hsplit, -⟩ := exists_trim cs
    have hfree : BraceFree (trim cs) :=
      (BraceFree.of_append (BraceFree.of_append (hsplit ▸ hcs)).2).1
    simp only [bracedPieces_of_braceFree hfree]
    exact readExit_finish (labelOf_of_labelText hlabel)
  | guarded hbefore hafter hgap hgap' hguard htrimmed hne hlabel =>
    rename_i before gap guard gap' after
    obtain ⟨front, hfront, hbeforeEq, hfirst⟩ := exists_gap before
    obtain ⟨a, back, hback, rfl, hlast⟩ := exists_trailing_gap after
    generalize trimStart before = b at hbeforeEq hfirst
    subst hbeforeEq
    have hb : BraceFree b := (BraceFree.of_append hbefore).2
    have ha : BraceFree a := (BraceFree.of_append hafter).1
    have hpiece : BraceFree (gap ++ (guard ++ gap')) := List.forall_mem_append.mpr
      ⟨braceFree_of_blanks hgap, List.forall_mem_append.mpr ⟨hguard, braceFree_of_blanks hgap'⟩⟩
    have hcore : Trimmed (b ++ '\x7b' :: ((gap ++ (guard ++ gap')) ++ '\x7d' :: a)) := by
      constructor
      · cases b with
        | nil => exact stops_cons.mpr (by decide)
        | cons c b => exact stops_cons.mpr (stops_cons.mp hfirst)
      · rw [List.reverse_append, List.reverse_cons, List.reverse_append, List.reverse_cons]
        cases hend : a.reverse with
        | nil => exact stops_cons.mpr (by decide)
        | cons c rest =>
          rw [hend] at hlast
          exact stops_cons.mpr (stops_cons.mp hlast)
    have hwhole : trim ((front ++ b) ++ '\x7b' :: ((gap ++ (guard ++ gap')) ++
        '\x7d' :: (a ++ back))) = b ++ '\x7b' :: ((gap ++ (guard ++ gap')) ++ '\x7d' :: a) := by
      have hspaced := trim_spaced hfront hback hcore
      simpa only [List.append_assoc, List.cons_append] using hspaced
    have hpieces : bracedPieces none (b ++ '\x7b' :: ((gap ++ (guard ++ gap')) ++ '\x7d' :: a)) =
        [gap ++ (guard ++ gap')] := by
      rw [bracedPieces_append hb, bracedPieces, if_pos rfl, bracedPieces_held hpiece,
        bracedPieces_of_braceFree ha]
      rfl
    -- taking the guard out leaves the label between the blanks that were trimmed before
    have hleft : trim (b ++ a) = trim ((front ++ b) ++ (a ++ back)) := by
      have hgaps := trim_append_gaps hfront hback (b ++ a)
      rw [List.append_assoc, ← List.append_assoc b]
      exact hgaps.symm
    have hname : trim (gap ++ (guard ++ gap')) = guard := trim_spaced hgap hgap' htrimmed
    rw [hwhole]
    simp only [hpieces, hname]
    rw [if_neg (by simpa using hne), dropBraced_guarded hb hpiece, hleft]
    exact readExit_finish (labelOf_of_labelText hlabel)

end Exits

/-! ### What is read -/

/-- A line of a diagram, as it is read, gives the statement that is meant. -/
inductive Element.Reads : Element → Statement → Prop
  | transition {source target : Endpoint} {guard label : Option String} {rest : String}
      (hexit : ∀ line, readExit line rest = .ok (guard, label)) :
      Reads (.transition source target guard label) (.arrow source target rest)
  | marker {id word : String} {mark : Mark} (hkind : Draft.markerKind? word = some mark.kind) :
      Reads (.marker id mark) (.marker id word)
  | title (id text : String) : Reads (.description id text) (.alias id text)
  | description (id text : String) : Reads (.description id text) (.description id text)
  | note (side : Side) (id text : String) : Reads (.note side id text) (.note side.name id text)

namespace Statement

variable {cs : List Char} {s : Statement}

section Order

variable {line : String} (hsilent : isSilent line.toList = false)
include hsilent

theorem read_of_first (h : (readArrow? line.toList).or
      ((readMarker? line.toList).or (readAlias? line.toList)) = some s) : read line = s := by
  unfold read
  simp only [hsilent, h, Bool.false_eq_true, if_false]

theorem read_of_second (harrow : readArrow? line.toList = none)
    (hmarker : readMarker? line.toList = none) (halias : readAlias? line.toList = none)
    (hcomposite : isComposite line.toList = false)
    (h : (readNote? line.toList).or (readDescription? line.toList) = some s) : read line = s := by
  unfold read
  simp only [hsilent, harrow, hmarker, halias, hcomposite, h, Bool.false_eq_true, if_false,
    Option.or_none, Option.getD_some]

end Order

/-- An identifier at the front of a text is told from the text alone. -/
theorem ident_unique {id id' rest rest' : List Char} (hid : IsIdent id) (hid' : IsIdent id')
    (hrest : Stops isIdentChar rest) (hrest' : Stops isIdentChar rest')
    (h : id ++ rest = id' ++ rest') : id = id' ∧ rest = rest' := by
  have hfirst := takeIdent?_eq_some_iff.mpr ⟨rfl, hid, hrest⟩
  have hsecond := takeIdent?_eq_some_iff.mpr ⟨h, hid', hrest'⟩
  exact Prod.mk.inj (Option.some.inj (hfirst.symm.trans hsecond))

theorem isIdent_state : IsIdent "state".toList :=
  ⟨'s', "tate".toList, rfl, by decide, List.all_eq_true.mp (by decide)⟩

theorem dropState?_eq_some_iff {rest : List Char} :
    dropState? cs = some rest ↔ ∃ gap, Blanks gap ∧ gap ≠ [] ∧
      cs = "state".toList ++ (gap ++ rest) ∧ Stops isBlank rest := by
  unfold dropState?
  rw [Option.bind_eq_bind, Option.bind_eq_some_iff]
  constructor
  · rintro ⟨after, hword, hgap⟩
    obtain ⟨gap, hblanks, hne, rfl, hstops⟩ := dropBlanks?_eq_some_iff.mp hgap
    exact ⟨gap, hblanks, hne, dropText?_eq_some_iff.mp hword, hstops⟩
  · rintro ⟨gap, hblanks, hne, rfl, hstops⟩
    exact ⟨gap ++ rest, dropText?_eq_some_iff.mpr rfl,
      dropBlanks?_eq_some_iff.mpr ⟨gap, hblanks, hne, rfl, hstops⟩⟩

/-- Where an identifier is followed by a sign and not by another word, no state is declared with
that word. -/
theorem eq_of_dropState? {id gap after rest : List Char} (hid : IsIdent id) (hgap : Blanks gap)
    (hends : Stops isIdentChar (gap ++ after)) (hnext : Stops isBlank after)
    (h : dropState? (id ++ (gap ++ after)) = some rest) : rest = after := by
  obtain ⟨gap', hgap', hne, hcs, hrest⟩ := dropState?_eq_some_iff.mp h
  obtain ⟨-, htail⟩ := ident_unique hid isIdent_state hends (hgap'.stops_isIdentChar hne _) hcs
  have htrim := congrArg trimStart htail
  rw [trimStart_append hgap, trimStart_append hgap', trimStart_of_stops hnext,
    trimStart_of_stops hrest] at htrim
  exact htrim.symm

theorem takeIdent?_cons_eq_none {c : Char} {rest : List Char} (h : isIdentStart c = false) :
    takeIdent? (c :: rest) = none := by
  rw [takeIdent?, if_neg (by rw [h]; exact Bool.false_ne_true)]

/-- No range of word characters goes over a blank outside ASCII. -/
theorem wordRanges_apart : ∀ r ∈ wordRanges, ∀ blanks ∈ [(0x85, 0x85), (0xa0, 0xa0),
    (0x1680, 0x1680), (0x2000, 0x200a), (0x2028, 0x2029), (0x202f, 0x202f), (0x205f, 0x205f),
    (0x3000, 0x3000)], r.2 < blanks.1 ∨ blanks.2 < r.1 := by
  decide +kernel

theorem isBlank_of_isWord {c : Char} (h : isWord c = true) : isBlank c = false := by
  unfold isWord at h
  dsimp only at h
  split at h
  · exact isBlank_of_isIdentChar h
  · obtain ⟨r, hr, hin⟩ := List.any_eq_true.mp h
    have hapart := wordRanges_apart r hr
    simp only [List.forall_mem_cons] at hapart
    simp only [Bool.and_eq_true, decide_eq_true_eq] at hin
    rw [Bool.eq_false_iff]
    intro hblank
    simp only [isBlank, Bool.or_eq_true, Bool.and_eq_true, decide_eq_true_eq, beq_iff_eq] at hblank
    omega

theorem readMarker?_eq_some {gap id gap' gap'' word gap₃ : List Char}
    (hgap : Blanks gap ∧ gap ≠ []) (hid : IsIdent id) (hgap' : Blanks gap')
    (hgap'' : Blanks gap'') (hletters : ∀ c ∈ word, isWord c = true) (hne : word ≠ [])
    (hgap₃ : Blanks gap₃) :
    readMarker? ("state".toList ++ (gap ++ (id ++ (gap' ++ ("<<".toList ++
      (gap'' ++ (word ++ (gap₃ ++ ">>".toList)))))))) =
      some (.marker (String.ofList id) (String.ofList word)) := by
  have hidStops : ∀ rest, Stops isBlank (id ++ rest) := by
    intro rest
    obtain ⟨c, tail, rfl, hc, -⟩ := hid
    exact stops_cons.mpr (isBlank_of_isIdentChar (isIdentChar_of_isIdentStart hc))
  have hends : Stops isIdentChar
      (gap' ++ ("<<".toList ++ (gap'' ++ (word ++ (gap₃ ++ ">>".toList))))) := by
    rcases eq_or_ne gap' [] with rfl | hne
    · exact stops_cons.mpr (by decide)
    · exact hgap'.stops_isIdentChar hne _
  have hopen : Stops isBlank ("<<".toList ++ (gap'' ++ (word ++ (gap₃ ++ ">>".toList)))) :=
    stops_cons.mpr (by decide)
  have hwordStops : Stops isBlank (word ++ (gap₃ ++ ">>".toList)) := by
    cases word with
    | nil => exact absurd rfl hne
    | cons c word => exact stops_cons.mpr (isBlank_of_isWord (hletters c (List.mem_cons_self ..)))
  have hbehind : Stops isWord (gap₃ ++ ">>".toList) := by
    cases gap₃ with
    | nil => exact stops_cons.mpr (by decide)
    | cons c gap =>
      refine stops_cons.mpr (Bool.eq_false_iff.mpr fun hc => ?_)
      have hblank := hgap₃ c (List.mem_cons_self ..)
      rw [isBlank_of_isWord hc] at hblank
      cases hblank
  obtain ⟨htake, -⟩ := split_iff.mpr ⟨rfl, hletters, hbehind⟩
  have hclose : trimStart (gap₃ ++ ">>".toList) = ['>', '>'] :=
    (trimStart_append hgap₃ _).trans (trimStart_of_stops (stops_cons.mpr (by decide)))
  have hmore : (!word.isEmpty) = true := by simpa using hne
  have hstate := dropState?_eq_some_iff.mpr ⟨gap, hgap.1, hgap.2, rfl, hidStops
    (gap' ++ ("<<".toList ++ (gap'' ++ (word ++ (gap₃ ++ ">>".toList)))))⟩
  have hsign : dropText? "<<" (trimStart
      (gap' ++ ("<<".toList ++ (gap'' ++ (word ++ (gap₃ ++ ">>".toList)))))) =
      some (gap'' ++ (word ++ (gap₃ ++ ">>".toList))) := by
    rw [trimStart_append hgap', trimStart_of_stops hopen, dropText?_eq_some_iff.mpr rfl]
  unfold readMarker?
  refine Option.bind_eq_some_iff.mpr ⟨_, hstate, ?_⟩
  refine Option.bind_eq_some_iff.mpr ⟨_, takeIdent?_eq_some_iff.mpr ⟨rfl, hid, hends⟩, ?_⟩
  refine Option.bind_eq_some_iff.mpr ⟨_, hsign, ?_⟩
  rw [trimStart_append hgap'', trimStart_of_stops hwordStops]
  dsimp only
  rw [htake, List.drop_left, hclose, hmore]
  rfl

theorem readAlias?_eq_some {gap text gap' gap'' id : List Char} (hgap : Blanks gap ∧ gap ≠ [])
    (htext : '\x22' ∉ text) (hgap' : Blanks gap' ∧ gap' ≠ []) (hgap'' : Blanks gap'' ∧ gap'' ≠ [])
    (hid : IsIdent id) :
    readAlias? ("state".toList ++ (gap ++ '\x22' :: (text ++ '\x22' :: (gap' ++ ("as".toList ++
      (gap'' ++ id)))))) = some (.alias (String.ofList id) (String.ofList text)) := by
  have hidStops : Stops isBlank id := by
    obtain ⟨c, tail, rfl, hc, -⟩ := hid
    exact stops_cons.mpr (isBlank_of_isIdentChar (isIdentChar_of_isIdentStart hc))
  have hquote : Stops isBlank
      ('\x22' :: (text ++ '\x22' :: (gap' ++ ("as".toList ++ (gap'' ++ id))))) :=
    stops_cons.mpr (by decide)
  have has : Stops isBlank ("as".toList ++ (gap'' ++ id)) := stops_cons.mpr (by decide)
  have hall : ∀ c ∈ text, (c != '\x22') = true := by
    intro c hc
    rw [bne_iff_ne]
    rintro rfl
    exact htext hc
  have hbehind : Stops (· != '\x22') ('\x22' :: (gap' ++ ("as".toList ++ (gap'' ++ id)))) :=
    stops_cons.mpr (by decide)
  obtain ⟨htake, -⟩ := split_iff.mpr ⟨rfl, hall, hbehind⟩
  have hquoted : ∀ rest, dropText? "\x22" ('\x22' :: rest) = some rest :=
    fun _ => dropText?_eq_some_iff.mpr rfl
  have hstate := dropState?_eq_some_iff.mpr ⟨gap, hgap.1, hgap.2, rfl, hquote⟩
  have hbetween := dropBlanks?_eq_some_iff.mpr ⟨gap', hgap'.1, hgap'.2, rfl, has⟩
  have hbehindAs := dropBlanks?_eq_some_iff.mpr ⟨gap'', hgap''.1, hgap''.2, rfl, hidStops⟩
  have htakeId := takeIdent?_eq_some_iff.mpr ⟨(List.append_nil id).symm, hid, stops_nil _⟩
  unfold readAlias?
  refine Option.bind_eq_some_iff.mpr ⟨_, hstate, ?_⟩
  refine Option.bind_eq_some_iff.mpr ⟨_, hquoted _, ?_⟩
  rw [htake]
  dsimp only
  rw [List.drop_left]
  refine Option.bind_eq_some_iff.mpr ⟨_, hquoted _, ?_⟩
  refine Option.bind_eq_some_iff.mpr ⟨_, hbetween, ?_⟩
  refine Option.bind_eq_some_iff.mpr ⟨_, dropText?_eq_some_iff.mpr rfl, ?_⟩
  refine Option.bind_eq_some_iff.mpr ⟨_, hbehindAs, ?_⟩
  exact Option.bind_eq_some_iff.mpr ⟨_, htakeId, rfl⟩

theorem readMarker?_eq_none (h : ∀ rest, dropState? cs = some rest → takeIdent? rest = none) :
    readMarker? cs = none := by
  unfold readMarker?
  cases hstate : dropState? cs with
  | none => rfl
  | some rest =>
    rw [Option.bind_eq_bind, Option.bind_some, h rest hstate]
    rfl

theorem readAlias?_eq_none (h : ∀ rest, dropState? cs = some rest → dropText? "\x22" rest = none) :
    readAlias? cs = none := by
  unfold readAlias?
  cases hstate : dropState? cs with
  | none => rfl
  | some rest =>
    rw [Option.bind_eq_bind, Option.bind_some, h rest hstate]
    rfl

theorem readDescription?_eq_some {id gap gap' text : List Char} (hid : IsIdent id)
    (hgap : Blanks gap) (hgap' : Blanks gap') (htext : Trimmed text) :
    readDescription? (id ++ (gap ++ ':' :: (gap' ++ text))) =
      some (.description (String.ofList id) (String.ofList text)) := by
  have hends : Stops isIdentChar (gap ++ ':' :: (gap' ++ text)) := by
    rcases eq_or_ne gap [] with rfl | hne
    · exact stops_cons.mpr (by decide)
    · exact hgap.stops_isIdentChar hne _
  have hnext : trimStart (gap ++ ':' :: (gap' ++ text)) = ':' :: (gap' ++ text) :=
    (trimStart_append hgap _).trans (trimStart_of_stops (stops_cons.mpr (by decide)))
  have hcolon : dropText? ":" (':' :: (gap' ++ text)) = some (gap' ++ text) :=
    dropText?_eq_some_iff.mpr rfl
  unfold readDescription? strip
  rw [takeIdent?_eq_some_iff.mpr ⟨rfl, hid, hends⟩]
  simp only [Option.bind_eq_bind, Option.bind_some]
  rw [hnext, hcolon, Option.bind_some, String.toList_ofList, trim_gap_append hgap' htext]
  rfl

/-- A word that a sign follows does not open a note. -/
theorem readNote?_eq_none {id gap after : List Char} (hid : IsIdent id) (hgap : Blanks gap)
    (hends : Stops isIdentChar (gap ++ after)) (hnext : Stops isBlank after)
    (hsign : Stops isAsciiLetter after) : readNote? (id ++ (gap ++ after)) = none := by
  rw [Option.eq_none_iff_forall_ne_some]
  intro s h
  unfold readNote? at h
  obtain ⟨afterNote, hnote, h⟩ := Option.bind_eq_some_iff.mp h
  obtain ⟨afterGap, hblanks, h⟩ := Option.bind_eq_some_iff.mp h
  obtain ⟨⟨side, rest⟩, hside, -⟩ := Option.bind_eq_some_iff.mp h
  obtain ⟨note, hspells, hcs⟩ := dropKeyword?_eq_some_iff.mp hnote
  obtain ⟨gap', hgap', hne, rfl, hafter⟩ := dropBlanks?_eq_some_iff.mp hblanks
  obtain ⟨hword, rfl⟩ := spells_of_takeSide? hside
  obtain ⟨-, htail⟩ := ident_unique hid (isIdent_of_spells_note hspells) hends
    (hgap'.stops_isIdentChar hne _) hcs
  have htrim := congrArg trimStart htail
  rw [trimStart_append hgap, trimStart_append hgap', trimStart_of_stops hnext,
    trimStart_of_stops hafter] at htrim
  have hletter : ∃ c tail, side = c :: tail ∧ isAsciiLetter c = true := by
    rcases hword with hword | hword <;>
    · obtain ⟨c, tail, hcons, -, hc⟩ := exists_cons_of_spells (by decide) hword
      exact ⟨c, tail, hcons, hc⟩
  obtain ⟨c, tail, rfl, hc⟩ := hletter
  rw [htrim, List.cons_append, stops_cons, hc] at hsign
  cases hsign

variable {e : Element}

theorem exists_head_of_isIdent {id : List Char} (h : IsIdent id) :
    ∃ c tail, id = c :: tail ∧ isIdentStart c = true ∧ c ≠ '%' ∧ c ≠ '#' ∧ c ≠ '-' ∧ c ≠ '\x7d' ∧
      c ≠ '\x60' := by
  obtain ⟨c, tail, rfl, hc, -⟩ := h
  refine ⟨c, tail, rfl, hc, ?_, ?_, ?_, ?_, ?_⟩ <;>
  · rintro rfl
    exact absurd hc (by decide)

theorem not_arrow_of_head {c : Char} {rest : List Char} (h : c ≠ '-') :
    ¬ "-->".toList <+: c :: rest := by
  rintro ⟨left, hleft⟩
  exact h (List.cons.inj hleft).1.symm

section Notes

variable {side : Side} {id : String}

theorem exists_head_of_noteWords (h : NoteWords side id cs) :
    ∃ c tail, cs = c :: tail ∧ NoteHead c := by
  obtain ⟨hnote⟩ := h
  obtain ⟨c, tail, rfl, hc, -⟩ := exists_cons_of_spells (by decide) hnote
  exact ⟨c, _, rfl, noteHead_of_sameLetter hc⟩

theorem readArrow?_of_noteWords (h : NoteWords side id cs) (rest : List Char) :
    readArrow? (cs ++ rest) = none := by
  obtain ⟨hnote, ⟨hgap, hne⟩, hside⟩ := h
  rename_i note gap word gap' of gap'' id _ _ _ _ _
  obtain ⟨b, tail, rfl, hb⟩ : ∃ b tail, word = b :: tail ∧ isAsciiLetter b = true := by
    cases side <;>
    · obtain ⟨b, tail, rfl, -, hb⟩ := exists_cons_of_spells (by decide) hside
      exact ⟨b, tail, rfl, hb⟩
  have hsign : b ≠ '-' := by
    rintro rfl
    exact absurd hb (by decide)
  rw [List.append_assoc, List.append_assoc]
  exact readArrow?_eq_none (isIdent_of_spells_note hnote) hgap (hgap.stops_isIdentChar hne _)
    (stops_cons.mpr (isBlank_of_isAsciiLetter hb)) (not_arrow_of_head hsign)

/-- What stands behind the words of a note makes it one on a line or the opening of a longer one. -/
theorem readNote?_of_noteWords (h : NoteWords side id cs) {rest : List Char}
    (hrest : rest = [] ∧ s = .openNote side.name id ∨
      ∃ gap text, Blanks gap ∧ rest = gap ++ ':' :: text ∧
        s = .note side.name id (strip (String.ofList text))) :
    readNote? (cs ++ rest) = some s := by
  obtain ⟨hnote, hgap, hside, hword, hgap', hof, hgap'', hid⟩ := h
  simp only [List.append_assoc]
  refine readNote?_eq_some hnote hgap ?_ hgap' hof hgap'' ?_ (hword ▸ hrest)
  · cases side
    · exact Or.inl hside
    · exact Or.inr hside
  · obtain ⟨c, tail, rfl, hc, htail⟩ := hid
    exact ⟨c, tail, rfl, by simp [isIdentStartAnyCase, hc],
      fun x hx => by simp [isIdentCharAnyCase, htail x hx]⟩

theorem read_of_noteWords_append {line : String} {rest : List Char} (h : NoteWords side id cs)
    (hline : line.toList = cs ++ rest)
    (hrest : rest = [] ∧ s = .openNote side.name id ∨
      ∃ gap text, Blanks gap ∧ rest = gap ++ ':' :: text ∧
        s = .note side.name id (strip (String.ofList text))) : read line = s := by
  have harrow := readArrow?_of_noteWords h rest
  have hnote := readNote?_of_noteWords h hrest
  obtain ⟨c, tail, rfl, hc⟩ := exists_head_of_noteWords h
  obtain ⟨hmarker, halias, hcomposite⟩ := no_state_of_noteHead hc (tail ++ rest)
  have hsilent : isSilent (c :: (tail ++ rest)) = false := by
    rw [Bool.eq_false_iff, Ne, isSilent_cons_iff (hc.ne (by decide)) (hc.ne (by decide))]
    exact not_setsUp_of_noteHead hc
  rw [List.cons_append] at hline harrow hnote
  rw [ ← hline] at hmarker halias hcomposite hsilent harrow hnote
  refine read_of_second hsilent harrow hmarker halias hcomposite ?_
  rw [hnote, Option.some_or]

/-- The words of a note alone open one. -/
theorem read_of_noteWords {line : String} (h : NoteWords side id line.toList) :
    read line = .openNote side.name id :=
  read_of_noteWords_append h (List.append_nil _).symm (Or.inl ⟨rfl, rfl⟩)

end Notes

theorem exists_head_of_written (h : e.Written cs) :
    ∃ c tail, cs = c :: tail ∧ c ≠ '%' ∧ c ≠ '#' ∧ c ≠ '\x60' := by
  cases h with
  | transition hsource =>
    cases hsource with
    | pseudo => exact ⟨'[', _, rfl, by decide, by decide, by decide⟩
    | state hid =>
      obtain ⟨c, tail, rfl, -, hcomment, hheading, -, -, hfence⟩ := exists_head_of_isIdent hid
      exact ⟨c, _, rfl, hcomment, hheading, hfence⟩
  | marker => exact ⟨'s', _, rfl, by decide, by decide, by decide⟩
  | title => exact ⟨'s', _, rfl, by decide, by decide, by decide⟩
  | description hid =>
    obtain ⟨c, tail, rfl, -, hcomment, hheading, -, -, hfence⟩ := exists_head_of_isIdent hid
    exact ⟨c, _, rfl, hcomment, hheading, hfence⟩
  | note hwords =>
    obtain ⟨c, tail, rfl, hc⟩ := exists_head_of_noteWords hwords
    exact ⟨c, _, rfl, hc.ne (by decide), hc.ne (by decide), hc.ne (by decide)⟩

theorem isSilent_of_written (h : e.Written cs) (hplain : ¬ SetsUp cs) : isSilent cs = false := by
  obtain ⟨c, tail, rfl, hcomment, hheading, -⟩ := exists_head_of_written h
  rw [Bool.eq_false_iff, Ne, isSilent_cons_iff hcomment hheading]
  exact hplain

theorem getLast?_ne_of_description {before gap' text : List Char} (hgap' : Blanks gap')
    (hend : text.getLast? ≠ some '\x7b') :
    (before ++ ':' :: (gap' ++ text)).getLast? ≠ some '\x7b' := by
  intro hlast
  rw [List.getLast?_append_cons, List.getLast?_cons, List.getLast?_append] at hlast
  cases htext : text.getLast? with
  | some c =>
    rw [htext] at hlast hend
    exact hend hlast
  | none =>
    rw [htext, Option.none_or] at hlast
    cases hgap : gap'.getLast? with
    | none =>
      rw [hgap] at hlast
      cases hlast
    | some c =>
      rw [hgap] at hlast
      have hblank := hgap' c (List.mem_of_getLast? hgap)
      obtain rfl := Option.some.inj hlast
      exact absurd hblank (by decide)

theorem read_of_silentText {line : String} (h : SilentText line.toList) : read line = .silent := by
  have hsilent : isSilent line.toList = true := by
    generalize line.toList = cs at h
    unfold isSilent
    cases h with
    | blank => rfl
    | comment text =>
      rw [isSome_dropText?.mpr (List.prefix_append "%%".toList text), Bool.or_true, Bool.true_or,
        Bool.true_or, Bool.true_or]
    | heading hsigns hone hsix hc text =>
      rename_i signs c
      have hall : ∀ x ∈ signs, (x == '#') = true := fun x hx => beq_iff_eq.mpr (hsigns x hx)
      have hstops : Stops (· == '#') (c :: text) := by
        refine stops_cons.mpr (beq_eq_false_iff_ne.mpr ?_)
        rintro rfl
        exact absurd hc (by decide)
      obtain ⟨htake, -⟩ := split_iff.mpr ⟨rfl, hall, hstops⟩
      have hheading : isHeading (signs ++ c :: text) = true := by
        unfold isHeading
        simp only [htake, List.drop_left]
        simp [hone, hsix, hc]
      rw [hheading, Bool.or_true]
    | setsUp h =>
      rcases h with h | h
      · simp [isSome_dropText?.mpr h]
      · simp [isSome_dropText?.mpr h]
  unfold read
  rw [if_pos hsilent]

section Declarations

variable {line : String} (hsilent : isSilent line.toList = false)
include hsilent

/-- A line that declares a state with a word is no arrow where no sign of one follows. -/
theorem read_of_state {gap after : List Char} {c : Char} (hgap : Blanks gap ∧ gap ≠ [])
    (hline : line.toList = "state".toList ++ (gap ++ c :: after)) (hc : isBlank c = false)
    (hsign : c ≠ '-') (h : (readMarker? line.toList).or (readAlias? line.toList) = some s) :
    read line = s := by
  have harrow : readArrow? line.toList = none := by
    rw [hline]
    exact readArrow?_eq_none isIdent_state hgap.1 (hgap.1.stops_isIdentChar hgap.2 _)
      (stops_cons.mpr hc) (not_arrow_of_head hsign)
  refine read_of_first hsilent ?_
  rw [harrow, Option.none_or, h]

theorem read_of_description {id gap gap' text : List Char} (hid : IsIdent id) (hgap : Blanks gap)
    (hgap' : Blanks gap') (htext : Trimmed text) (hend : text.getLast? ≠ some '\x7b')
    (hline : line.toList = id ++ (gap ++ ':' :: (gap' ++ text))) :
    read line = .description (String.ofList id) (String.ofList text) := by
  have hends : Stops isIdentChar (gap ++ ':' :: (gap' ++ text)) := by
    rcases eq_or_ne gap [] with rfl | hne
    · exact stops_cons.mpr (by decide)
    · exact hgap.stops_isIdentChar hne _
  have hcolon : Stops isBlank (':' :: (gap' ++ text)) := stops_cons.mpr (by decide)
  have hrest : ∀ rest, dropState? line.toList = some rest → rest = ':' :: (gap' ++ text) :=
    fun rest h => eq_of_dropState? hid hgap hends hcolon (hline ▸ h)
  have harrow : readArrow? line.toList = none :=
    hline ▸ readArrow?_eq_none hid hgap hends hcolon (not_arrow_of_head (by decide))
  have hmarker : readMarker? line.toList = none := by
    refine readMarker?_eq_none fun rest h => ?_
    rw [hrest rest h]
    exact takeIdent?_cons_eq_none (by decide)
  have halias : readAlias? line.toList = none := by
    refine readAlias?_eq_none fun rest h => ?_
    rw [hrest rest h]
    rfl
  have hcomposite : isComposite line.toList = false := by
    have hlast : line.toList.getLast? ≠ some '\x7b' := by
      rw [hline, ← List.append_assoc]
      exact getLast?_ne_of_description hgap' hend
    have hbrace : line.toList ≠ ['\x7d'] := by
      obtain ⟨c, tail, rfl, -, -, -, -, hc, -⟩ := exists_head_of_isIdent hid
      rw [hline]
      exact fun h => hc (List.cons.inj h).1
    unfold isComposite
    rw [beq_eq_false_iff_ne.mpr hlast, beq_eq_false_iff_ne.mpr hbrace, Bool.and_false,
      Bool.or_false]
  have hnote : readNote? line.toList = none :=
    hline ▸ readNote?_eq_none hid hgap hends hcolon (stops_cons.mpr (by decide))
  refine read_of_second hsilent harrow hmarker halias hcomposite ?_
  rw [hnote, Option.none_or, hline]
  exact readDescription?_eq_some hid hgap hgap' htext

end Declarations

theorem ne_nil_of_lowered {word : List Char} {mark : Mark}
    (h : lowered (String.ofList word) = mark.kind.name) : word ≠ [] := by
  rintro rfl
  cases mark <;> exact absurd h (by decide)

theorem markerKind?_of_lowered {word : String} {mark : Mark} (h : lowered word = mark.kind.name) :
    Draft.markerKind? word = some mark.kind := by
  unfold Draft.markerKind?
  rw [h]
  cases mark <;> decide

/-- A line is read as the statement it is written for, unless it begins like a line that sets up the
drawing. -/
theorem reads_of_written {line : String} (h : e.Written line.toList)
    (hplain : ¬ SetsUp line.toList) : e.Reads (read line) := by
  have hsilent := isSilent_of_written h hplain
  generalize hcs : line.toList = cs at h
  cases h with
  | transition hsource hgap hgap' htarget hwhole hexit =>
    have harrow := readArrow?_eq_some hsource hgap hgap' htarget hwhole
    rw [ ← hcs] at harrow
    rw [read_of_first hsilent (by rw [harrow, Option.some_or])]
    exact .transition (readExit_of_exitText hexit)
  | marker hgap hid hgap' hgap'' hletters hword hgap₃ =>
    have hmarker := readMarker?_eq_some hgap hid hgap' hgap'' hletters (ne_nil_of_lowered hword)
      hgap₃
    rw [ ← hcs] at hmarker
    obtain ⟨c, tail, rfl, hc, -, -, hsign, -⟩ := exists_head_of_isIdent hid
    have hblank := isBlank_of_isIdentChar (isIdentChar_of_isIdentStart hc)
    rw [read_of_state hsilent hgap hcs hblank hsign (by rw [hmarker, Option.some_or])]
    exact .marker (markerKind?_of_lowered hword)
  | title hgap htext hgap' hgap'' hid =>
    have halias := readAlias?_eq_some hgap htext hgap' hgap'' hid
    rw [ ← hcs] at halias
    have hmarker : readMarker? line.toList = none := by
      refine readMarker?_eq_none fun rest h => ?_
      rw [hcs, dropState?_eq_some_iff.mpr
        ⟨_, hgap.1, hgap.2, rfl, stops_cons.mpr (by decide)⟩] at h
      obtain rfl := Option.some.inj h
      exact takeIdent?_cons_eq_none (by decide)
    rw [read_of_state hsilent hgap hcs (by decide) (by decide)
      (by rw [hmarker, Option.none_or, halias])]
    exact .title _ _
  | description hid hgap hgap' htext hend =>
    rw [read_of_description hsilent hid hgap hgap' htext hend hcs]
    exact .description _ _
  | note hwords hgap hgap' htext =>
    rename_i side id words gap gap' text
    have htrim : strip (String.ofList (gap' ++ text)) = String.ofList text := by
      unfold strip
      rw [String.toList_ofList, trim_gap_append hgap' htext]
    rw [read_of_noteWords_append hwords hcs (Or.inr ⟨gap, gap' ++ text, hgap, rfl, rfl⟩), htrim]
    exact .note side id _

end Statement

end Runbook.Workflow
