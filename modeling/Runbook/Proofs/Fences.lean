import Runbook.Proofs.Success
import Runbook.Proofs.Notation
import Runbook.Prompt

/-!
Front matter and the text behind it. A text is cut into lines at many kinds of breaks and the lines
are put together again, and what stands behind the second fence is what was written there, without
the line feeds at its front.
-/
namespace Runbook

/-! Lines of a text in parts. -/

namespace Text

variable {cs ds : List Char}

/-- A text that is empty or ends in a line break. -/
def Ended (cs : List Char) : Prop := ∀ c ∈ cs.getLast?, isLineBreak c = true

instance (cs : List Char) : Decidable (Ended cs) :=
  decidable_of_iff (cs.getLast?.all isLineBreak = true) (by cases h : cs.getLast? <;> simp [Ended, h])

/-- A text begins anew behind another one: no line break lies across the seam. -/
def Apart (cs ds : List Char) : Prop := cs.getLast? = some '\r' → ds.head? ≠ some '\n'

theorem getLast?_cons_of_some {c d : Char} (h : cs.getLast? = some d) :
    (c :: cs).getLast? = some d := by
  rw [List.getLast?_cons, h, Option.getD_some]

theorem Ended.tail {c : Char} (h : Ended (c :: cs)) : Ended cs :=
  fun d hd => h d (getLast?_cons_of_some hd)

theorem Apart.tail {c : Char} (h : Apart (c :: cs) ds) : Apart cs ds :=
  fun hlast => h (getLast?_cons_of_some hlast)

/-- Where a text is apart from what follows, no break comes about at its front. -/
theorem Apart.not_pair {c : Char} (h : Apart (c :: cs) ds)
    (hpair : ∀ rest, c = '\r' → cs = '\n' :: rest → False) :
    ∀ rest, c = '\r' → cs ++ ds = '\n' :: rest → False := by
  intro rest hreturn hfeed
  cases cs with
  | nil =>
    rw [List.nil_append] at hfeed
    rw [hreturn, hfeed] at h
    exact h rfl rfl
  | cons d more =>
    obtain ⟨rfl, -⟩ := List.cons.inj hfeed
    exact hpair more hreturn rfl

/-- The lines of a text that has ended and of what follows it. -/
theorem brokenLines_append_of_ended (hended : Ended cs) (hapart : Apart cs ds) :
    brokenLines (cs ++ ds) = brokenLines cs ++ brokenLines ds := by
  fun_induction brokenLines cs with
  | case1 => rfl
  | case2 cs ih =>
    rw [List.cons_append, List.cons_append, brokenLines, ih hended.tail.tail hapart.tail.tail,
      List.cons_append]
  | case3 c cs hpair hbreak ih =>
    rw [List.cons_append, brokenLines, if_pos hbreak, ih hended.tail hapart.tail, List.cons_append]
    exact hapart.not_pair hpair
  | case4 c cs hpair hbreak hnone ih =>
    -- The last character would be no break.
    have hcs : cs = [] := by
      rw [← flatten_brokenLines cs, hnone]
      rfl
    rw [hcs] at hended
    exact absurd (hended c rfl) hbreak
  | case5 c cs hpair hbreak line ending rest hcs ih =>
    rw [List.cons_append, brokenLines, if_neg hbreak, ih hended.tail hapart.tail, hcs,
      List.cons_append]
    · rfl
    · exact hapart.not_pair hpair

theorem isBlank_of_isLineBreak {c : Char} (h : isLineBreak c = true) : isBlank c = true := by
  simp only [isLineBreak, isBlank, Bool.or_eq_true, Bool.and_eq_true, decide_eq_true_eq,
    beq_iff_eq] at h ⊢
  omega

/-- What ends a line is made of line breaks. -/
theorem isLineBreak_of_mem_brokenLines (cs : List Char) :
    ∀ l ∈ brokenLines cs, ∀ c ∈ l.2, isLineBreak c = true := by
  fun_induction brokenLines cs with
  | case1 => exact fun l hl => absurd hl List.not_mem_nil
  | case2 cs ih =>
    have hpair : ∀ c ∈ ['\r', '\n'], isLineBreak c = true :=
      List.forall_mem_cons.mpr ⟨rfl, List.forall_mem_singleton.mpr rfl⟩
    exact List.forall_mem_cons.mpr ⟨hpair, ih⟩
  | case3 c cs _ hbreak ih =>
    exact List.forall_mem_cons.mpr ⟨List.forall_mem_singleton.mpr hbreak, ih⟩
  | case4 => exact List.forall_mem_singleton.mpr fun c hc => absurd hc List.not_mem_nil
  | case5 c cs _ _ line ending rest hcs ih =>
    rw [hcs] at ih
    exact List.forall_mem_cons.mpr (List.forall_mem_cons.mp ih)

theorem fullLines_append {s t : String} (hended : Ended s.toList)
    (hapart : Apart s.toList t.toList) : fullLines (s ++ t) = fullLines s ++ fullLines t := by
  unfold fullLines
  rw [String.toList_append, brokenLines_append_of_ended hended hapart, List.map_append]

/-- Together the lines of a text are the text. -/
theorem join_fullLines (s : String) : String.join (fullLines s) = s := by
  rw [← String.toList_inj, String.toList_join]
  unfold fullLines
  rw [List.flatMap_map, List.flatMap_def]
  simp only [String.toList_ofList]
  exact flatten_brokenLines s.toList

end Text

/-! Fences. -/

namespace FrontMatter

open Text

/-- The break behind a line does not make it a fence, and does not keep it from being one. -/
theorem map_isFence_fullLines (s : String) :
    (fullLines s).map isFence = (lines s).map isFence := by
  unfold fullLines lines
  rw [List.map_map, List.map_map]
  refine List.map_congr_left fun l hl => ?_
  have hblanks : Blanks l.2 := fun c hc =>
    isBlank_of_isLineBreak (isLineBreak_of_mem_brokenLines s.toList l hl c hc)
  have hnone : Blanks [] := nofun
  have hstrip : strip (String.ofList (l.1 ++ l.2)) = strip (String.ofList l.1) := by
    unfold strip
    rw [String.toList_ofList, String.toList_ofList]
    exact congrArg String.ofList (trim_append_gaps hnone hblanks l.1)
  exact congrArg (· == "---") hstrip

theorem isFence_of_mem_fullLines {s : String} (h : ∀ line ∈ lines s, isFence line = false) :
    ∀ line ∈ fullLines s, isFence line = false := by
  have hmap : ∀ fence ∈ (fullLines s).map isFence, fence = false := by
    rw [map_isFence_fullLines]
    exact List.forall_mem_map.mpr h
  exact List.forall_mem_map.mp hmap

theorem fullLines_fenced {header : String} (hended : Ended header.toList) (body : String) :
    fullLines ("---\n" ++ header ++ "---\n" ++ body) =
      "---\n" :: (fullLines header ++ "---\n" :: fullLines body) := by
  have hfence : ∀ s, fullLines ("---\n" ++ s) = "---\n" :: fullLines s := fun s =>
    fullLines_append (by decide) fun hlast => absurd hlast (by decide)
  have hapart : Apart header.toList ("---\n" ++ body).toList := fun _ => by
    rw [String.toList_append]
    exact fun hhead => absurd (Option.some.inj hhead) (by decide)
  rw [String.append_assoc, String.append_assoc, hfence, fullLines_append hended hapart, hfence]

/-- Entries between two fences are read, and the text behind them is kept. -/
theorem split_fenced {header : String} {entries : Yaml.Entries} (hended : Ended header.toList)
    (hfence : ∀ line ∈ lines header, isFence line = false)
    (hread : readEntries header = .ok entries) (body : String) :
    split ("---\n" ++ header ++ "---\n" ++ body) = .ok (entries, dropLineFeeds body) := by
  have hheader : ∀ line ∈ fullLines header, (!isFence line) = true := fun line hline => by
    rw [isFence_of_mem_fullLines hfence line hline]
    rfl
  have hclosed : ¬ (!isFence "---\n") = true := by decide
  have hafter : (fullLines header ++ "---\n" :: fullLines body).dropWhile (fun l => !isFence l) =
      "---\n" :: fullLines body := by
    rw [List.dropWhile_append_of_pos hheader,
      List.dropWhile_cons_of_neg (p := fun l => !isFence l) hclosed]
  have hbetween : (fullLines header ++ "---\n" :: fullLines body).takeWhile (fun l => !isFence l) =
      fullLines header := by
    rw [List.takeWhile_append_of_pos hheader,
      List.takeWhile_cons_of_neg (p := fun l => !isFence l) hclosed, List.append_nil]
  unfold split
  rw [fullLines_fenced hended]
  dsimp only
  rw [if_neg hclosed, hafter, hbetween]
  dsimp only
  rw [join_fullLines, join_fullLines, hread]
  rfl

theorem split_of_no_fence {content : String}
    (h : ∀ line ∈ (lines content).head?, isFence line = false) :
    split content = .ok (.none, content) := by
  have hhead : ∀ fence ∈ ((fullLines content).map isFence).head?, fence = false := by
    rw [map_isFence_fullLines, List.head?_map]
    intro fence hfence
    obtain ⟨line, hline, rfl⟩ := Option.map_eq_some_iff.mp hfence
    exact h line hline
  unfold split
  cases hlines : fullLines content with
  | nil => rfl
  | cons first rest =>
    have hfirst : isFence first = false := hhead _ (by rw [hlines]; rfl)
    dsimp only
    rw [hfirst]
    rfl

theorem exists_dropLineFeeds (s : String) :
    ∃ n, s = String.ofList (List.replicate n '\n') ++ dropLineFeeds s ∧
      (dropLineFeeds s).toList.head? ≠ some '\n' := by
  obtain ⟨hwhole, hfeeds, hstops⟩ := split_takeWhile (· == '\n') s.toList
  refine ⟨(s.toList.takeWhile (· == '\n')).length, ?_, fun hhead => ?_⟩
  · rw [← List.eq_replicate_of_mem fun c hc => beq_iff_eq.mp (hfeeds c hc)]
    unfold dropLineFeeds
    rw [← String.ofList_append, ← hwhole, String.ofList_toList]
  · unfold dropLineFeeds at hhead
    rw [String.toList_ofList] at hhead
    exact absurd (hstops _ hhead) (by decide)

theorem readEntries_of_read {header : String} {content : Yaml.Content} {entries : Yaml.Entries}
    (hread : Yaml.Content.read header = .ok content)
    (hentries : Yaml.Entries.ofContent? content = some entries) :
    readEntries header = .ok entries := by
  unfold readEntries
  rw [hread]
  dsimp only
  rw [hentries]

end FrontMatter

/-! Prompts. -/

namespace Prompt

variable {name content : String} {p : Prompt}

theorem kept_of_ofEntries {template : String} {entries : Yaml.Entries}
    (h : ofEntries name template entries = .ok p) : p.name = name ∧ p.template = template := by
  unfold ofEntries at h
  dsimp only at h
  split at h
  · cases h
  · split at h
    · cases h
    · split at h
      · cases h
      · obtain ⟨title, -, h⟩ := bind_eq_ok_iff.mp h
        obtain ⟨description, -, h⟩ := bind_eq_ok_iff.mp h
        obtain ⟨category, -, h⟩ := bind_eq_ok_iff.mp h
        obtain ⟨tags, -, h⟩ := bind_eq_ok_iff.mp h
        obtain ⟨arguments, -, h⟩ := bind_eq_ok_iff.mp h
        cases h
        exact ⟨rfl, rfl⟩

/-- A prompt has the name that it was asked for under, and the body of its text. -/
theorem kept_of_parse (h : parse name content = .ok p) :
    p.name = name ∧ ∃ entries, FrontMatter.split content = .ok (entries, p.template) := by
  unfold parse at h
  obtain ⟨⟨entries, body⟩, hsplit, h⟩ := bind_eq_ok_iff.mp h
  dsimp only at h
  split at h
  · rename_i hprompt
    cases h
    obtain ⟨hname, rfl⟩ := kept_of_ofEntries hprompt
    exact ⟨hname, entries, hsplit⟩
  · cases h

end Prompt

namespace FrontMatter

open Text

/-- The body of a text is kept as it was written. Where a text has entries between two fences at
its head, the body is what follows but for the line feeds at its front; where its first line is no
fence, it is all of the text; and a prompt that is read has this body as its template, under the
name that was asked for. -/
theorem body_kept :
    (∀ {header : String} {content : Yaml.Content} {entries : Yaml.Entries}, Ended header.toList →
      (∀ line ∈ lines header, strip line ≠ "---") → Yaml.Content.read header = .ok content →
      Yaml.Entries.ofContent? content = some entries → ∀ body : String,
      ∃ n rest, body = String.ofList (List.replicate n '\n') ++ rest ∧
        rest.toList.head? ≠ some '\n' ∧
        split ("---\n" ++ header ++ "---\n" ++ body) = .ok (entries, rest)) ∧
    (∀ content, (∀ line ∈ (lines content).head?, strip line ≠ "---") →
      split content = .ok (.none, content)) ∧
    ∀ name content p, Prompt.parse name content = .ok p →
      p.name = name ∧ ∃ entries, split content = .ok (entries, p.template) := by
  have hfence : ∀ {line : String}, strip line ≠ "---" → isFence line = false := fun hline =>
    beq_eq_false_iff_ne.mpr hline
  refine ⟨fun hended hlines hread hentries body => ?_, fun content hfirst => ?_,
    fun name content p hparse => Prompt.kept_of_parse hparse⟩
  · obtain ⟨n, hbody, hfront⟩ := exists_dropLineFeeds body
    exact ⟨n, dropLineFeeds body, hbody, hfront, split_fenced hended
      (fun line hline => hfence (hlines line hline)) (readEntries_of_read hread hentries) body⟩
  · exact split_of_no_fence fun line hline => hfence (hfirst line hline)

/-- A name and a template in front matter change neither, and fences in the body are text. -/
theorem body_kept_under_other_names : ∃ p n,
    Prompt.parse "hello" ("---\n" ++ "name: bye\ntemplate: none\n" ++ "---\n" ++
      "\n\nhello\u2028---\n\nhello") = .ok p ∧ p.name = "hello" ∧
    "\n\nhello\u2028---\n\nhello" = String.ofList (List.replicate n '\n') ++ p.template ∧
    p.template.toList.head? ≠ some '\n' := by
  have hread : succeedsWith (fun content => (Yaml.Entries.ofContent? content).isSome)
      (Yaml.Content.read "name: bye\ntemplate: none\n") = true := by
    decide +kernel
  have hparse : succeedsWith (fun _ => true) (Prompt.parse "hello" ("---\n" ++
      "name: bye\ntemplate: none\n" ++ "---\n" ++ "\n\nhello\u2028---\n\nhello")) = true := by
    decide +kernel
  have hlines : (lines "name: bye\ntemplate: none\n").all (fun line => strip line != "---") =
      true := by
    decide +kernel
  obtain ⟨content, hread, hmapping⟩ := succeedsWith_iff.mp hread
  obtain ⟨entries, hentries⟩ := Option.isSome_iff_exists.mp hmapping
  obtain ⟨p, hparse, -⟩ := succeedsWith_iff.mp hparse
  obtain ⟨hfenced, -, hprompt⟩ := body_kept
  obtain ⟨n, rest, hbody, hfront, hsplit⟩ := hfenced (by decide)
    (fun line hline => bne_iff_ne.mp (List.all_eq_true.mp hlines line hline)) hread hentries
    "\n\nhello\u2028---\n\nhello"
  obtain ⟨hname, entries', hsplit'⟩ := hprompt _ _ p hparse
  obtain ⟨-, hrest⟩ := Prod.mk.inj (Except.ok.inj (hsplit'.symm.trans hsplit))
  subst hrest
  exact ⟨p, n, hparse, hname, hbody, hfront⟩

end FrontMatter

end Runbook
