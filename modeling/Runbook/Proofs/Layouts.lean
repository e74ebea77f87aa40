import Runbook.Proofs.Enclosures
import Runbook.Proofs.Renderings
import Runbook.Proofs.Unnumbered

/-!
The two layouts of a document. The header may stand between fences or before a blank line, and the
diagram may stand in a code fence or not. A diagram means the same in both, so long as it describes
no state that it has not mentioned: outside a code fence such a line counts as prose and is refused.
-/
namespace Runbook.Workflow

open Text

namespace Statement

/-- The state that a statement describes, if it is a description. -/
def describes? : Statement → Option String
  | .description id _ => some id
  | _ => none

/-- Every description in a list of statements is of a state that is known or that a statement before
it mentions. -/
def Introduced (known : List String) : List Statement → Prop
  | [] => True
  | s :: rest => (∀ id ∈ s.describes?, id ∈ known) ∧ Introduced (known ++ s.mentions) rest

instance decidableIntroduced (known : List String) :
    (said : List Statement) → Decidable (Introduced known said)
  | [] => .isTrue trivial
  | s :: rest =>
    have := decidableIntroduced (known ++ s.mentions) rest
    inferInstanceAs (Decidable (_ ∧ _))

end Statement

namespace Document

/-- What the lines of a diagram say, without their numbers. -/
def statements (inside : Bool) (lines : List String) : List Statement :=
  (Said.ofLines inside (numberedFrom 1 lines)).map Prod.snd

/-- The header between fences, and the diagram in a code fence. -/
def fencedLines (header diagram : List String) (heading : String) (actions : List String) :
    List String :=
  "---" :: (header ++ "---" :: "\x60\x60\x60mermaid" ::
    (diagram ++ "\x60\x60\x60" :: heading :: actions))

/-- The header before a blank line, and the diagram up to the heading of the actions. -/
def bareLines (header diagram : List String) (heading : String) (actions : List String) :
    List String :=
  header ++ "" :: (diagram ++ heading :: actions)

/-- What a line says, if it is not inside a note, does not hang on its number. -/
theorem map_snd_ofLines_cons (inside : Bool) (line : String) (rest : List String) (n : Nat) :
    (Said.ofLines inside (numberedFrom n (line :: rest))).map Prod.snd =
      (if inside then [] else [Statement.read (strip line)]) ++
        (Said.ofLines (Draft.insideAfter inside (0, line)) (numberedFrom (n + 1) rest)).map
          Prod.snd := by
  have hinside : Draft.insideAfter inside (n, line) = Draft.insideAfter inside (0, line) := by
    unfold Draft.insideAfter
    rfl
  rw [numberedFrom_cons, Said.ofLines, List.map_append, hinside, apply_ite (List.map Prod.snd)]
  simp only [List.map_nil, List.map_cons]

theorem map_snd_ofLines (inside : Bool) (lines : List String) (n : Nat) :
    (Said.ofLines inside (numberedFrom n lines)).map Prod.snd = statements inside lines := by
  unfold statements
  generalize 1 = first
  induction lines generalizing inside n first with
  | nil => rfl
  | cons line rest ih =>
    rw [map_snd_ofLines_cons, map_snd_ofLines_cons, ih _ (n + 1) (first + 1)]

theorem statements_cons (inside : Bool) (line : String) (rest : List String) :
    statements inside (line :: rest) =
      (if inside then [] else [Statement.read (strip line)]) ++
        statements (Draft.insideAfter inside (0, line)) rest := by
  unfold statements
  rw [map_snd_ofLines_cons, map_snd_ofLines]
  rfl

section Parts

variable {header diagram actions : List String} {heading : String}

/-- A heading of actions does not open a diagram. -/
theorem opensDiagram_of_isActionsHeading {line : String} (h : isActionsHeading line = true) :
    opensDiagram line = false := by
  unfold isActionsHeading at h
  unfold opensDiagram
  cases hcs : trim line.toList with
  | nil => decide
  | cons c cs =>
    rw [hcs] at h
    have hsign : c = '#' := by
      by_contra hne
      simp [hne] at h
    have hfence : "\x60\x60\x60mermaid".toList = '\x60' :: "\x60\x60mermaid".toList := by decide
    rw [hfence, List.isPrefixOf_cons_cons, hsign]
    rfl

theorem opensDiagram_of_noFence {line : String}
    (h : ¬ "\x60\x60\x60".toList <+: trim line.toList) : opensDiagram line = false := by
  unfold opensDiagram
  rw [Bool.eq_false_iff]
  intro hprefix
  have hword : "\x60\x60\x60mermaid".toList = "\x60\x60\x60".toList ++ "mermaid".toList := by decide
  rw [hword, List.isPrefixOf_iff_prefix] at hprefix
  exact h ((List.prefix_append ..).trans hprefix)

theorem closesDiagram_of_noFence {line : String}
    (h : ¬ "\x60\x60\x60".toList <+: trim line.toList) : closesDiagram line = false := by
  apply closesDiagram_eq_false
  intro heq
  exact h (heq ▸ List.prefix_refl _)

/-- Numbered lines are split at the first of them that is of a class. -/
theorem split_numberedFrom (p : String → Bool) {before : List String} {line : String}
    (after : List String) (n : Nat) (hbefore : ∀ other ∈ before, p other = false)
    (hline : p line = true) :
    (numberedFrom n (before ++ line :: after)).takeWhile (fun l => !p l.2) =
      numberedFrom n before ∧
    (numberedFrom n (before ++ line :: after)).dropWhile (fun l => !p l.2) =
      (n + before.length, line) :: numberedFrom (n + before.length + 1) after := by
  rw [numberedFrom_append, numberedFrom_cons]
  exact split_at (fun l : NumberedLine => p l.2) (n + before.length, line) _
    (forall_numberedFrom hbefore n) hline

theorem exists_layout_fencedLines (hfence : ∀ line ∈ header, isFence line = false)
    (diagram : List String) (heading : String) (actions : List String) :
    ∃ first n, layout (numberedFrom 1 (fencedLines header diagram heading actions)) =
      .ok ⟨header, first, numberedFrom n
        ("\x60\x60\x60mermaid" :: (diagram ++ "\x60\x60\x60" :: heading :: actions))⟩ := by
  have hopening : isFence "---" = true := by decide
  have hvisible := isBlankLine_of_isFence hopening
  obtain ⟨htake, hdrop⟩ := split_numberedFrom isFence
    ("\x60\x60\x60mermaid" :: (diagram ++ "\x60\x60\x60" :: heading :: actions)) 2 hfence hopening
  refine ⟨2, 2 + header.length + 1, ?_⟩
  unfold layout fencedLines
  rw [numberedFrom_cons, List.dropWhile_cons_of_neg (by rw [hvisible]; decide)]
  simp only [hopening, if_true, htake, hdrop, map_snd_numberedFrom]

theorem exists_layout_bareLines (hne : header ≠ [])
    (hblank : ∀ line ∈ header, isBlankLine line = false)
    (hfence : ∀ line ∈ header, isFence line = false) (diagram : List String) (heading : String)
    (actions : List String) :
    ∃ first n, layout (numberedFrom 1 (bareLines header diagram heading actions)) =
      .ok ⟨header, first, numberedFrom n ("" :: (diagram ++ heading :: actions))⟩ := by
  cases header with
  | nil => exact absurd rfl hne
  | cons line header =>
    obtain ⟨hvisible, hblank⟩ := List.forall_mem_cons.mp hblank
    have hplain := hfence line (List.mem_cons_self ..)
    have hgap : isBlankLine "" = true := by decide
    obtain ⟨htake, hdrop⟩ := split_numberedFrom isBlankLine (diagram ++ heading :: actions) 2
      hblank hgap
    refine ⟨1, 2 + header.length, ?_⟩
    unfold layout bareLines
    rw [List.cons_append, numberedFrom_cons, List.dropWhile_cons_of_neg (by rw [hvisible]; decide)]
    simp only [hplain, Bool.false_eq_true, if_false, htake, hdrop, map_snd_numberedFrom]
    rw [numberedFrom_cons]

theorem exists_afterHeading {between : List String}
    (hbetween : ∀ line ∈ between, isActionsHeading line = false)
    (hheading : isActionsHeading heading = true) (actions : List String) (n : Nat) :
    ∃ k, afterHeading (numberedFrom n (between ++ heading :: actions)) =
      numberedFrom k actions := by
  refine ⟨n + between.length + 1, ?_⟩
  unfold afterHeading
  rw [(split_numberedFrom isActionsHeading actions n hbetween hheading).2]
  rfl

theorem exists_splitBody_fenced (hdiagram : ∀ line ∈ diagram, closesDiagram line = false)
    (hheading : isActionsHeading heading = true) (actions : List String) (n : Nat) :
    ∃ m k, splitBody (numberedFrom n
        ("\x60\x60\x60mermaid" :: (diagram ++ "\x60\x60\x60" :: heading :: actions))) =
      .ok ⟨true, numberedFrom m diagram, numberedFrom k actions⟩ := by
  have hopening : opensDiagram "\x60\x60\x60mermaid" = true := by decide
  have hclosing : closesDiagram "\x60\x60\x60" = true := by decide
  obtain ⟨htake, hdrop⟩ := split_numberedFrom closesDiagram (heading :: actions) (n + 1) hdiagram
    hclosing
  have hbetween : ∀ line ∈ [], isActionsHeading line = false := nofun
  obtain ⟨k, hafter⟩ := exists_afterHeading hbetween hheading actions (n + 1 + diagram.length + 1)
  refine ⟨n + 1, k, ?_⟩
  unfold splitBody
  rw [numberedFrom_cons, List.dropWhile_cons_of_neg (by rw [hopening]; decide)]
  simp only [htake, hdrop]
  rw [ ← hafter]
  rfl

theorem exists_splitBody_bare (hdiagram : ∀ line ∈ diagram, opensDiagram line = false)
    (hplain : ∀ line ∈ diagram, isActionsHeading line = false)
    (hheading : isActionsHeading heading = true)
    (hactions : ∀ line ∈ actions, opensDiagram line = false) (n : Nat) :
    ∃ k, splitBody (numberedFrom n ("" :: (diagram ++ heading :: actions))) =
      .ok ⟨false, numberedFrom n ("" :: diagram), numberedFrom k actions⟩ := by
  have hprose : ∀ line ∈ "" :: (diagram ++ heading :: actions), opensDiagram line = false := by
    intro line hline
    simp only [List.mem_cons, List.mem_append] at hline
    rcases hline with rfl | hline | rfl | hline
    · decide
    · exact hdiagram line hline
    · exact opensDiagram_of_isActionsHeading hheading
    · exact hactions line hline
  have hnone : (numberedFrom n ("" :: (diagram ++ heading :: actions))).dropWhile
      (fun l => !opensDiagram l.2) = [] := by
    rw [List.dropWhile_eq_nil_iff]
    intro l hl
    rw [forall_numberedFrom hprose n l hl]
    rfl
  have hbefore : ∀ line ∈ "" :: diagram, isActionsHeading line = false :=
    List.forall_mem_cons.mpr ⟨by decide, hplain⟩
  have htake := (split_numberedFrom isActionsHeading actions n hbefore hheading).1
  obtain ⟨k, hafter⟩ := exists_afterHeading hbefore hheading actions n
  refine ⟨k, ?_⟩
  unfold splitBody
  rw [hnone, ← List.cons_append, htake, hafter]

end Parts

end Document

namespace Draft

open Document (numberedFrom)

variable {d d' : Draft} {said : Said}

/-- A diagram says the same in a code fence and outside, if what it describes has been introduced.
-/
theorem Same.addLines (h : Same d d') (htells : Tells said d) {known : List String}
    (hknown : ∀ id ∈ known, said.Mentions id) {lines : List String} (n n' : Nat)
    (hlines : Statement.Introduced known (Document.statements d.openNote.isSome lines)) :
    Alike SameFault Same (d.addLines true (numberedFrom n lines))
      (d'.addLines false (numberedFrom n' lines)) := by
  induction lines generalizing d d' said known n n' with
  | nil => exact .ok h
  | cons line lines ih =>
    have hdescribed : d.openNote = none → ∀ id body,
        Statement.read (strip line) = .description id body → id ∈ d.ids := by
      intro hnone id body hread
      rw [Document.statements_cons, hnone, Option.isSome_none, if_neg Bool.false_ne_true,
        List.singleton_append, hread] at hlines
      exact (htells.mentioned id).mpr (hknown id (hlines.1 id rfl))
    have hline : Alike SameFault Same (d.addLine true (n, line)) (d'.addLine false (n', line)) :=
      h.addLine hdescribed
    unfold Draft.addLines at ih ⊢
    rw [Document.numberedFrom_cons, Document.numberedFrom_cons, List.foldlM_cons, List.foldlM_cons]
    refine hline.bind_of_ok fun next next' hnext hsame => ?_
    have htold := htells.addLine hnext
    have hinside : next.openNote.isSome = insideAfter d.openNote.isSome (0, line) := by
      rw [(addLine_eq hnext).2]
      unfold insideAfter
      rfl
    rw [Document.statements_cons, ← hinside] at hlines
    cases hopen : d.openNote.isSome with
    | true =>
      rw [hopen, if_pos rfl, List.append_nil] at htold
      rw [hopen] at hlines
      exact ih hsame htold hknown (n + 1) (n' + 1) hlines
    | false =>
      rw [hopen] at htold hlines
      refine ih hsame htold (fun id hid => ?_) (n + 1) (n' + 1) hlines.2
      rw [if_neg Bool.false_ne_true, Said.mentions_snoc]
      dsimp only
      exact (List.mem_append.mp hid).imp (hknown id) fun hmention => hmention

theorem alike_ofLines {diagram : List String} (actions : List String) (m m' k k' : Nat)
    (hdiagram : Statement.Introduced [] (Document.statements false diagram)) :
    Alike SameFault Same (ofLines true (numberedFrom m diagram) (numberedFrom k actions))
      (ofLines false (numberedFrom m' ("" :: diagram)) (numberedFrom k' actions)) := by
  have hsilent : empty.addLine false (m', "") = .ok empty := rfl
  have hgap : empty.addLines false (numberedFrom m' ("" :: diagram)) =
      empty.addLines false (numberedFrom (m' + 1) diagram) := by
    rw [Document.numberedFrom_cons, addLines, List.foldlM_cons, hsilent]
    rfl
  unfold ofLines
  rw [hgap]
  have hknown : ∀ id ∈ [], Said.Mentions [] id := fun _ hid => absurd hid List.not_mem_nil
  refine ((Same.refl empty).addLines tells_empty hknown m (m' + 1) hdiagram).bind fun d d' h => ?_
  refine h.checkRegions.bind fun _ _ _ => ?_
  refine h.checkExits.bind fun _ _ _ => ?_
  exact h.addActions actions k k'

end Draft

namespace Definition

open Document

/-- A document with a header and a body is read part by part. -/
theorem parse_of_parts {s : String} {l : Layout} {b : Body} (hlayout : layout (numbered s) = .ok l)
    (hbody : splitBody l.body = .ok b) (name : Option String) :
    parse s name = readHeader l.header l.first >>= fun header =>
      (Draft.ofLines b.fenced b.diagram b.actions).mapError .fault >>= fun draft =>
        pure (ofDraft name header draft) := by
  unfold parse
  rw [hlayout]
  change (readHeader l.header l.first >>= fun header =>
    (splitBody l.body).mapError Refusal.fault >>= _) = _
  rw [hbody]
  rfl

/-- A document with a header between fences and its diagram in a code fence, and one with the same
header before a blank line and the same diagram without a fence, come to definitions that are equal
but for the lines of transitions, or are refused alike, but for the numbers of lines. -/
theorem layouts_agree {header diagram actions : List String} {heading s s' : String}
    (hne : header ≠ []) (hblank : ∀ line ∈ header, isBlankLine line = false)
    (hfence : ∀ line ∈ header, isFence line = false)
    (hdiagram : ∀ line ∈ diagram, ¬ "\x60\x60\x60".toList <+: trim line.toList)
    (hplain : ∀ line ∈ diagram, isActionsHeading line = false)
    (hintroduced : Statement.Introduced [] (statements false diagram))
    (hheading : isActionsHeading heading = true)
    (hactions : ∀ line ∈ actions, opensDiagram line = false)
    (hs : lines s = fencedLines header diagram heading actions)
    (hs' : lines s' = bareLines header diagram heading actions) (name : Option String) :
    (∃ d d', parse s name = .ok d ∧ parse s' name = .ok d' ∧ d.unnumbered = d'.unnumbered) ∨
      ∃ r r', parse s name = .error r ∧ parse s' name = .error r' ∧
        r.unnumbered = r'.unnumbered := by
  have halike : Alike SameRefusal (fun d d' => d.unnumbered = d'.unnumbered)
      (parse s name) (parse s' name) := by
    obtain ⟨first, n, hlayout⟩ := exists_layout_fencedLines hfence diagram heading actions
    obtain ⟨first', n', hlayout'⟩ :=
      exists_layout_bareLines hne hblank hfence diagram heading actions
    obtain ⟨m, k, hsplit⟩ := exists_splitBody_fenced
      (fun line hline => closesDiagram_of_noFence (hdiagram line hline)) hheading actions n
    obtain ⟨k', hsplit'⟩ := exists_splitBody_bare
      (fun line hline => opensDiagram_of_noFence (hdiagram line hline)) hplain hheading hactions n'
    rw [ ← hs] at hlayout
    rw [ ← hs'] at hlayout'
    rw [parse_of_parts hlayout hsplit, parse_of_parts hlayout' hsplit']
    refine (alike_readHeader header first first').bind fun read _ hread => ?_
    have hdraft := (Draft.alike_ofLines actions m n' k k' hintroduced).mapError
      fun _ _ h => SameFault.refusal h
    exact hdraft.bind fun d d' h => .ok (hread ▸ unnumbered_ofDraft h name read)
  exact halike.ok_or_error

/-- A diagram with a note that holds what looks like a description, and with a description. -/
def waitingDiagram : List String :=
  ["[*] --> Wait", "note left of Wait", "Done : not yet", "end note", "", "Wait --> Done",
    "Done : at last", "Done --> [*]"]

def waitingFenced : List String :=
  fencedLines ["name: waiting", "version: 2"] waitingDiagram "## Actions" ["- Wait: wait 5 s"]

def waitingBare : List String :=
  bareLines ["name: waiting", "version: 2"] waitingDiagram "## Actions" ["- Wait: wait 5 s"]

theorem layouts_agree_waiting :
    ∃ d d', parse (unlines waitingFenced) none = .ok d ∧ parse (unlines waitingBare) none = .ok d' ∧
      d.unnumbered = d'.unnumbered ∧
      d'.transitions.map Transition.line = [some 4, some 9, some 11] := by
  have hne : ["name: waiting", "version: 2"] ≠ [] := by decide
  have hheader : (∀ line ∈ ["name: waiting", "version: 2"], isBlankLine line = false) ∧
      ∀ line ∈ ["name: waiting", "version: 2"], isFence line = false := by decide
  have hdiagram : (∀ line ∈ waitingDiagram, ¬ "\x60\x60\x60".toList <+: trim line.toList) ∧
      ∀ line ∈ waitingDiagram, isActionsHeading line = false := by decide +kernel
  have hintroduced : Statement.Introduced [] (statements false waitingDiagram) := by decide +kernel
  have hbehind : isActionsHeading "## Actions" = true ∧
      ∀ line ∈ ["- Wait: wait 5 s"], opensDiagram line = false := by decide +kernel
  have hfenced : lines (unlines waitingFenced) = waitingFenced := lines_unlines (by decide +kernel)
  have hbare : lines (unlines waitingBare) = waitingBare := lines_unlines (by decide +kernel)
  have hread : readsWith waitingBare
      (fun d => d.transitions.map Transition.line == [some 4, some 9, some 11]) = true := by
    decide +kernel
  obtain ⟨read, hparse, -, hlines⟩ := exists_read _ _ (by decide +kernel) hread
  rcases layouts_agree hne hheader.1 hheader.2 hdiagram.1 hdiagram.2 hintroduced hbehind.1
    hbehind.2 hfenced hbare none with ⟨d, d', hd, hd', hsame⟩ | ⟨_, r', -, hr', -⟩
  · rw [hparse] at hd'
    cases hd'
    exact ⟨d, read, hd, hparse, hsame, beq_iff_eq.mp hlines⟩
  · rw [hparse] at hr'
    cases hr'

/-- Without lines for the header, the bare layout takes its diagram for one; and a state that only a
note has named may be described in a code fence alone. -/
theorem layouts_differ :
    parse (unlines (fencedLines [] ["[*] --> A"] "## Actions" [])) none =
        .error (.fault (.atLine 2 .headerWithoutName none)) ∧
      (∃ detail, parse (unlines (bareLines [] ["[*] --> A"] "## Actions" [])) none =
        .error (.fault (.atLine 2 (.malformedHeader detail) none))) ∧
      (∃ d, parse (unlines (fencedLines ["name: n"]
        ["[*] --> A", "note left of B : soon", "B : text"] "## Actions" [])) none = .ok d) ∧
      parse (unlines (bareLines ["name: n"]
        ["[*] --> A", "note left of B : soon", "B : text"] "## Actions" [])) none =
        .error (.fault (.atLine 5 .undeclaredDescription (some "B : text"))) := by
  refine ⟨?_, ⟨"expected alphabetic or numeric character", ?_⟩, ?_, ?_⟩
  · rw [parse_unlines (by decide +kernel)]
    decide +kernel
  · rw [parse_unlines (by decide +kernel)]
    decide +kernel
  · have hread : succeedsWith (fun _ => true) (parseLines (numberedFrom 1 (fencedLines ["name: n"]
        ["[*] --> A", "note left of B : soon", "B : text"] "## Actions" [])) none) = true := by
      decide +kernel
    obtain ⟨d, hd, -⟩ := succeedsWith_iff.mp hread
    exact ⟨d, (parse_unlines (by decide +kernel) none).trans hd⟩
  · rw [parse_unlines (by decide +kernel)]
    decide +kernel

end Definition

end Runbook.Workflow
