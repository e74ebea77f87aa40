import Runbook.Proofs.Elements
import Runbook.Proofs.Values

/-!
How actions are written, and that they are read as they are written. The letter case of keywords and
the gaps between the parts are free. Texts stand in quotes, and nothing in them is taken for a part
of the notation, be it a level, an argument or an arrow. A prompt's texts hold no quotes; a message
and the value of a variable may hold any, for they go to the end of the action.
-/
namespace Runbook.Workflow

open Text

section Written

/-- A piece of spaces and tabs, which may be empty. -/
def Spacing (gap : List Char) : Prop := ∀ c ∈ gap, c = ' ' ∨ c = '\t'

instance (gap : List Char) : Decidable (Spacing gap) := List.decidableBAll ..

def inQuotes (cs : List Char) : List Char := '\x22' :: (cs ++ ['\x22'])

/-- An ASCII letter or underscore, and then characters of a class. -/
def NameOf (p : Char → Bool) (name : List Char) : Prop :=
  ∃ c cs, name = c :: cs ∧ isIdentStart c = true ∧ ∀ x ∈ cs, p x = true

theorem nameOf_cons {p : Char → Bool} {c : Char} {cs : List Char} :
    NameOf p (c :: cs) ↔ isIdentStart c = true ∧ ∀ x ∈ cs, p x = true := by
  constructor
  · rintro ⟨_, _, hsplit, h⟩
    cases hsplit
    exact h
  · exact fun h => ⟨c, cs, rfl, h⟩

theorem NameOf.all {p : Char → Bool} {name : List Char} (h : NameOf p name)
    (hp : ∀ c, isIdentStart c = true → p c = true) : ∀ x ∈ name, p x = true := by
  obtain ⟨c, cs, rfl, hc, hcs⟩ := h
  exact List.forall_mem_cons.mpr ⟨hp c hc, hcs⟩

theorem isWord_of_isIdentStart {c : Char} (h : isIdentStart c = true) : isWord c = true := by
  have hident := isIdentChar_of_isIdentStart h
  have hbound := isIdentChar_iff.mp hident
  have hascii : c.toNat < 128 := by omega
  unfold isWord
  dsimp only
  rw [if_pos hascii, hident]

/-- How the arguments of a prompt are written, one behind the other. -/
inductive ArgumentsText : List (String × String) → List Char → Prop
  | nil : ArgumentsText [] []
  | cons {gap key value rest : List Char} {arguments : List (String × String)}
      (hgap : Spacing gap) (hkey : NameOf isWord key) (hquote : '\x22' ∉ value)
      (hbreak : '\n' ∉ value) (hrest : ArgumentsText arguments rest) :
      ArgumentsText ((String.ofList key, String.ofList value) :: arguments)
        (gap ++ (key ++ '=' :: (inQuotes value ++ rest)))

/-- How the variable for the result is written. It has a name of its own where it is left out. -/
inductive ResultText : String → List Char → Prop
  | absent : ResultText "result" []
  | named {gap gap' name : List Char} (hgap : Spacing gap) (hgap' : Spacing gap')
      (hname : NameOf isWord name) :
      ResultText (String.ofList name) (gap ++ '-' :: '>' :: (gap' ++ name))

/-- How an action is written whose texts stand in quotes. -/
inductive Action.Written : Action → List Char → Prop
  | log {level : String} {log gap word gap' message : List Char}
      (hlevel : level ∈ ["debug", "info", "warning", "error"]) (hlog : Spells "log" log)
      (hgap : Spacing gap ∧ gap ≠ []) (hspells : Spells level word)
      (hword : lowered (String.ofList word) = level) (hgap' : Spacing gap' ∧ gap' ≠ [])
      (hbreak : '\n' ∉ message) :
      Written (.log (String.ofList message) level)
        (log ++ (gap ++ (word ++ (gap' ++ inQuotes message))))
  | set {set gap name gap' gap'' value : List Char} (hset : Spells "set" set)
      (hgap : Spacing gap ∧ gap ≠ []) (hname : NameOf isVariableChar name) (hgap' : Spacing gap')
      (hgap'' : Spacing gap'') (hbreak : '\n' ∉ value) :
      Written (.set (String.ofList name) (String.ofList value))
        (set ++ (gap ++ (name ++ (gap' ++ '=' :: (gap'' ++ inQuotes value)))))
  | prompt {execute gap prompt gap' name text behind : List Char}
      {arguments : List (String × String)} {result : String} (hexecute : Spells "execute" execute)
      (hgap : Spacing gap ∧ gap ≠ []) (hprompt : Spells "prompt" prompt)
      (hgap' : Spacing gap' ∧ gap' ≠ []) (hquote : '\x22' ∉ name) (hne : name ≠ [])
      (harguments : ArgumentsText arguments text) (hkeys : (Keyed.keys arguments).Nodup)
      (hresult : ResultText result behind) :
      Written (.prompt (String.ofList name) arguments result)
        (execute ++ (gap ++ (prompt ++ (gap' ++ (inQuotes name ++ (text ++ behind))))))

end Written

section Gaps

variable {gap cs : List Char}

theorem Spacing.blanks (h : Spacing gap) : Blanks gap := by
  intro c hc
  rcases h c hc with rfl | rfl <;> decide

theorem Spacing.not_mem (h : Spacing gap) {c : Char} (hspace : c ≠ ' ') (htab : c ≠ '\t') :
    c ∉ gap := fun hc => (h c hc).elim hspace htab

/-- A text goes on where the second of its two parts goes on, if there is one. -/
theorem stops_append {p : Char → Bool} {a : List Char} (h : Stops p a) (hne : a ≠ [])
    (b : List Char) : Stops p (a ++ b) := by
  cases a with
  | nil => exact absurd rfl hne
  | cons c a => exact stops_cons.mpr (stops_cons.mp h)

/-- A text ends with a character that is no blank. -/
def EndsVisibly (cs : List Char) : Prop := ∃ front c, cs = front ++ [c] ∧ isBlank c = false

theorem EndsVisibly.append (h : EndsVisibly cs) (before : List Char) :
    EndsVisibly (before ++ cs) := by
  obtain ⟨front, c, rfl, hc⟩ := h
  exact ⟨before ++ front, c, (List.append_assoc ..).symm, hc⟩

theorem EndsVisibly.stops (h : EndsVisibly cs) : Stops isBlank cs.reverse := by
  obtain ⟨front, c, rfl, hc⟩ := h
  rw [List.reverse_append]
  exact stops_cons.mpr hc

theorem endsVisibly_quote (front : List Char) : EndsVisibly (front ++ ['\x22']) :=
  ⟨front, '\x22', rfl, by decide⟩

theorem NameOf.endsVisibly {name : List Char} (h : NameOf isWord name) : EndsVisibly name := by
  have hall := h.all fun _ hstart => isWord_of_isIdentStart hstart
  rcases List.eq_nil_or_concat name with rfl | ⟨front, last, rfl⟩
  · obtain ⟨c, cs, hnil, -⟩ := h
    cases hnil
  · have hlast := hall last (by simp)
    exact ⟨front, last, List.concat_eq_append, Statement.isBlank_of_isWord hlast⟩

theorem NameOf.stops {p : Char → Bool} {name : List Char} (h : NameOf p name)
    (rest : List Char) : Stops isBlank (name ++ rest) := by
  obtain ⟨c, cs, rfl, hc, -⟩ := h
  exact stops_cons.mpr (isBlank_of_isIdentChar (isIdentChar_of_isIdentStart hc))

theorem stops_inQuotes (cs rest : List Char) : Stops isBlank (inQuotes cs ++ rest) :=
  stops_cons.mpr (by decide)

theorem trimmed_inQuotes (cs : List Char) : Trimmed (inQuotes cs) := by
  constructor
  · exact stops_cons.mpr (by decide)
  · exact (endsVisibly_quote ('\x22' :: cs)).stops

/-- What is taken from a text in quotes is what stands between the first one and the last. -/
theorem unquote_inQuotes (cs : List Char) : unquote (inQuotes cs) = cs := by
  have hlast : (cs ++ ['\x22']).getLast? = some '\x22' := List.getLast?_concat
  unfold unquote
  rw [trim_of_stops (trimmed_inQuotes cs).1 (trimmed_inQuotes cs).2]
  simp [inQuotes, hlast]

theorem onOneLine_inQuotes (h : '\n' ∉ cs) : onOneLine (inQuotes cs) = true := by
  simp [onOneLine, inQuotes, h]

theorem takeWhile_quote (h : '\x22' ∉ cs) (rest : List Char) :
    (cs ++ '\x22' :: rest).takeWhile (· != '\x22') = cs := by
  refine (split_iff.mpr ⟨rfl, ?_, stops_cons.mpr (by decide)⟩).1
  intro c hc
  rw [bne_iff_ne]
  rintro rfl
  exact h hc

end Gaps

section Keywords

/-- The letter that a character is, in some letter case. -/
def letterOf (c : Char) : Char :=
  if isAsciiLetter c then c.toLower
  else if c = 'İ' ∨ c = 'ı' then 'i'
  else if c = 'ſ' then 's'
  else 'k'

def isSmallLetter (c : Char) : Bool := isAsciiLetter c && c.toLower == c

theorem letterOf_of_sameLetter {letter c : Char} (hsmall : isSmallLetter letter = true)
    (h : sameLetter letter c = true) : letterOf c = letter := by
  obtain ⟨hletter, hlower⟩ := Bool.and_eq_true_iff.mp hsmall
  rw [beq_iff_eq] at hlower
  simp only [sameLetter, Bool.or_eq_true, Bool.and_eq_true, beq_iff_eq] at h
  rcases h with (((rfl | ⟨hc, hlowered⟩) | ⟨rfl, rfl | rfl⟩) | ⟨rfl, rfl⟩) | ⟨rfl, rfl⟩
  · rw [letterOf, if_pos hletter, hlower]
  · rw [letterOf, if_pos hc, hlowered]
  all_goals decide

/-- A word of small letters. -/
def isSmallWord (word : String) : Bool :=
  !word.toList.isEmpty && word.toList.all isSmallLetter

theorem exists_cons_of_isSmallWord {word : String} (h : isSmallWord word = true) :
    ∃ letter letters, word.toList = letter :: letters ∧ isSmallLetter letter = true := by
  obtain ⟨hne, hall⟩ := Bool.and_eq_true_iff.mp h
  cases hletters : word.toList with
  | nil => rw [hletters] at hne; cases hne
  | cons letter letters =>
    rw [hletters, List.all_cons, Bool.and_eq_true] at hall
    exact ⟨letter, letters, rfl, hall.1⟩

variable {word other : String} {keyword gap rest : List Char}

theorem dropWord?_eq_some (h : Spells word keyword) (hgap : Spacing gap ∧ gap ≠ [])
    (hrest : Stops isBlank rest) : dropWord? word (keyword ++ (gap ++ rest)) = some rest := by
  obtain ⟨hspacing, hne⟩ := hgap
  unfold dropWord?
  rw [dropKeyword?_eq_some_iff.mpr ⟨keyword, h, rfl⟩]
  cases gap with
  | nil => exact absurd rfl hne
  | cons c gap =>
    obtain ⟨hc, hgap⟩ := List.forall_mem_cons.mp hspacing.blanks
    have hgap : Blanks gap := hgap
    dsimp only [List.cons_append]
    rw [if_pos hc, trimStart_append hgap, trimStart_of_stops hrest]

/-- No text begins with two keywords whose first letters differ. -/
theorem dropWord?_eq_none (hword : isSmallWord word = true) (hother : isSmallWord other = true)
    (hfirst : word.toList.head? ≠ other.toList.head?) (h : Spells other keyword)
    (rest : List Char) : dropWord? word (keyword ++ rest) = none := by
  obtain ⟨a, as, has, ha⟩ := exists_cons_of_isSmallWord hword
  obtain ⟨b, bs, hbs, hb⟩ := exists_cons_of_isSmallWord hother
  unfold Spells at h
  rw [hbs, List.forall₂_cons_left_iff] at h
  obtain ⟨c, cs, hc, -, rfl⟩ := h
  have hnot : ¬ sameLetter a c = true := by
    intro hca
    apply hfirst
    rw [has, hbs, List.head?_cons, List.head?_cons, ← letterOf_of_sameLetter ha hca,
      letterOf_of_sameLetter hb hc]
  rw [dropWord?, has, List.cons_append, dropKeyword?, if_neg hnot]

theorem stops_of_spells (h : Spells word keyword) (hword : isSmallWord word = true) :
    Stops isBlank keyword := by
  obtain ⟨a, as, has, ha⟩ := exists_cons_of_isSmallWord hword
  unfold Spells at h
  rw [has, List.forall₂_cons_left_iff] at h
  obtain ⟨c, cs, hc, -, rfl⟩ := h
  refine stops_cons.mpr ?_
  simp only [sameLetter, Bool.or_eq_true, Bool.and_eq_true, beq_iff_eq] at hc
  rcases hc with (((rfl | ⟨hc, -⟩) | ⟨-, rfl | rfl⟩) | ⟨-, rfl⟩) | ⟨-, rfl⟩
  · exact Statement.isBlank_of_isAsciiLetter (Bool.and_eq_true_iff.mp ha).1
  · exact Statement.isBlank_of_isAsciiLetter hc
  all_goals decide

theorem ne_nil_of_spells (h : Spells word keyword) (hword : isSmallWord word = true) :
    keyword ≠ [] := by
  obtain ⟨a, as, has, -⟩ := exists_cons_of_isSmallWord hword
  unfold Spells at h
  rw [has, List.forall₂_cons_left_iff] at h
  obtain ⟨c, cs, -, -, rfl⟩ := h
  nofun

end Keywords

namespace Action

section Messages

variable {level : String} {log set gap word gap' gap'' message name value : List Char}

/-- The levels before one that may be written begin with other letters than that one. -/
theorem exists_split_logLevels (h : level ∈ ["debug", "info", "warning", "error"]) :
    isSmallWord level = true ∧ ∃ before after, logLevels = before ++ level :: after ∧
      ∀ other ∈ before, isSmallWord other = true ∧ other.toList.head? ≠ level.toList.head? := by
  simp only [List.mem_cons, List.not_mem_nil, or_false] at h
  rcases h with rfl | rfl | rfl | rfl
  · exact ⟨by decide, [], _, rfl, by decide⟩
  · exact ⟨by decide, ["debug"], _, rfl, by decide⟩
  · exact ⟨by decide, ["debug", "info"], _, rfl, by decide⟩
  · exact ⟨by decide, ["debug", "info", "warning", "warn"], _, rfl, by decide⟩

theorem readLeveled?_eq_some (hlevel : level ∈ ["debug", "info", "warning", "error"])
    (hspells : Spells level word) (hword : lowered (String.ofList word) = level)
    (hgap : Spacing gap ∧ gap ≠ []) (hbreak : '\n' ∉ message) :
    readLeveled? (word ++ (gap ++ inQuotes message)) = some (level, inQuotes message) := by
  obtain ⟨hsmall, before, after, hlevels, hbefore⟩ := exists_split_logLevels hlevel
  have hstops : Stops isBlank (inQuotes message) := (trimmed_inQuotes message).1
  unfold readLeveled?
  refine List.findSome?_eq_some_iff.mpr ⟨before, level, after, hlevels, ?_, ?_⟩
  · rw [dropWord?_eq_some hspells hgap hstops]
    dsimp only
    rw [onOneLine_inQuotes hbreak, Statement.take_length_of_spells hspells, hword]
    rfl
  · intro other hother
    obtain ⟨hsmallOther, hfirst⟩ := hbefore other hother
    rw [dropWord?_eq_none hsmallOther hsmall hfirst hspells]

theorem readLog?_eq_some (hlevel : level ∈ ["debug", "info", "warning", "error"])
    (hlog : Spells "log" log) (hgap : Spacing gap ∧ gap ≠ []) (hspells : Spells level word)
    (hword : lowered (String.ofList word) = level) (hgap' : Spacing gap' ∧ gap' ≠ [])
    (hbreak : '\n' ∉ message) :
    readLog? (log ++ (gap ++ (word ++ (gap' ++ inQuotes message)))) =
      some (.log (String.ofList message) level) := by
  obtain ⟨hsmall, -⟩ := exists_split_logLevels hlevel
  have hstops : Stops isBlank (word ++ (gap' ++ inQuotes message)) :=
    stops_append (stops_of_spells hspells hsmall) (ne_nil_of_spells hspells hsmall) _
  have hwarn : (level == "warn") = false := by
    simp only [List.mem_cons, List.not_mem_nil, or_false] at hlevel
    rcases hlevel with rfl | rfl | rfl | rfl <;> decide
  unfold readLog?
  rw [dropWord?_eq_some hlog hgap hstops]
  dsimp only [bind, Option.bind]
  rw [readLeveled?_eq_some hlevel hspells hword hgap' hbreak]
  dsimp only
  rw [hwarn, unquote_inQuotes]
  rfl

/-- A name ends where a gap or the sign behind it begins. -/
theorem stops_isVariableChar_append {rest : List Char} (hgap : Spacing gap)
    (hrest : Stops isVariableChar rest) : Stops isVariableChar (gap ++ rest) := by
  cases gap with
  | nil => exact hrest
  | cons c gap =>
    refine stops_cons.mpr ?_
    rcases hgap c (List.mem_cons_self ..) with rfl | rfl <;> decide

theorem readSet?_eq_some (hset : Spells "set" set) (hgap : Spacing gap ∧ gap ≠ [])
    (hname : NameOf isVariableChar name) (hgap' : Spacing gap') (hgap'' : Spacing gap'')
    (hbreak : '\n' ∉ value) :
    readSet? (set ++ (gap ++ (name ++ (gap' ++ '=' :: (gap'' ++ inQuotes value))))) =
      some (.set (String.ofList name) (String.ofList value)) := by
  have hstops := hname.stops (gap' ++ '=' :: (gap'' ++ inQuotes value))
  obtain ⟨c, cs, rfl, hc, hcs⟩ := hname
  have hends : Stops isVariableChar (gap' ++ '=' :: (gap'' ++ inQuotes value)) :=
    stops_isVariableChar_append hgap' (stops_cons.mpr (by decide))
  have htake := (split_iff.mpr ⟨rfl, hcs, hends⟩).1
  have hstart : isIdentStartAnyCase c = true := by
    rw [isIdentStartAnyCase, hc, Bool.true_or]
  have hsign : trimStart (gap' ++ '=' :: (gap'' ++ inQuotes value)) =
      '=' :: (gap'' ++ inQuotes value) :=
    (trimStart_append hgap'.blanks _).trans (trimStart_of_stops (stops_cons.mpr (by decide)))
  have hvalue : trimStart (gap'' ++ inQuotes value) = inQuotes value :=
    (trimStart_append hgap''.blanks _).trans (trimStart_of_stops (trimmed_inQuotes value).1)
  have hfirst : (guard (isIdentStartAnyCase c = true) : Option Unit) = some () := if_pos hstart
  have hline : (guard (onOneLine (inQuotes value) = true) : Option Unit) = some () :=
    if_pos (onOneLine_inQuotes hbreak)
  unfold readSet?
  rw [dropWord?_eq_some hset hgap hstops]
  dsimp only [bind, Option.bind, List.cons_append, List.head?_cons, List.tail_cons]
  rw [hfirst, htake, List.length_cons, List.drop_succ_cons, List.drop_left, hsign]
  change Option.bind (guard (onOneLine (trimStart (gap'' ++ inQuotes value)) = true)) (fun _ =>
    some (Action.set _ (String.ofList (unquote (trimStart (gap'' ++ inQuotes value)))))) = _
  rw [hvalue, hline, unquote_inQuotes]
  rfl

end Messages

section Prompts

variable {gap text tail : List Char} {arguments : List (String × String)} {result : String}

/-- An arrow with a variable ends a text that consists of it alone, but for blanks. -/
theorem readArrow?_eq_some_iff {cs name : List Char} :
    readArrow? cs = some name ↔ ∃ gap gap', Blanks gap ∧ Blanks gap' ∧
      cs = gap ++ '-' :: '>' :: (gap' ++ name) ∧ ∃ c more, name = c :: more ∧
        isIdentStartAnyCase c = true ∧ ∀ x ∈ more, isWord x = true := by
  constructor
  · intro h
    unfold readArrow? at h
    split at h
    · rename_i rest hrest
      split at h
      · rename_i c more hmore
        split at h
        · rename_i hname
          obtain ⟨hc, hall⟩ := Bool.and_eq_true_iff.mp hname
          obtain rfl := Option.some.inj h
          obtain ⟨gap, hgap, hcs, -⟩ := exists_gap cs
          obtain ⟨gap', hgap', hbehind, -⟩ := exists_gap rest
          rw [hmore] at hbehind
          rw [hrest, hbehind] at hcs
          exact ⟨gap, gap', hgap, hgap', hcs, c, more, rfl, hc, List.all_eq_true.mp hall⟩
        · cases h
      · cases h
    · cases h
  · rintro ⟨gap, gap', hgap, hgap', rfl, c, more, rfl, hc, hmore⟩
    have hblank : isBlank c = false := by
      rcases Bool.or_eq_true_iff.mp hc with hstart | hvariant
      · exact isBlank_of_isIdentChar (isIdentChar_of_isIdentStart hstart)
      · simp only [isCaseVariant, Bool.or_eq_true, beq_iff_eq] at hvariant
        rcases hvariant with ((rfl | rfl) | rfl) | rfl <;> decide
    have hsign : trimStart ('-' :: '>' :: (gap' ++ c :: more)) =
        '-' :: '>' :: (gap' ++ c :: more) := trimStart_of_stops (stops_cons.mpr (by decide))
    have hname : trimStart (c :: more) = c :: more := trimStart_of_stops (stops_cons.mpr hblank)
    unfold readArrow?
    rw [trimStart_append hgap, hsign]
    split
    · rename_i rest hrest
      cases hrest
      rw [trimStart_append hgap', hname]
      exact if_pos (Bool.and_eq_true_iff.mpr ⟨hc, List.all_eq_true.mpr hmore⟩)
    · rename_i hother
      exact absurd rfl (hother _)

/-- No quote stands in an arrow, the gaps around it and the name of its variable. -/
theorem readArrow?_eq_none_of_quote {cs : List Char} (h : '\x22' ∈ cs) : readArrow? cs = none := by
  rw [Option.eq_none_iff_forall_ne_some]
  intro name hname
  obtain ⟨gap, gap', hgap, hgap', rfl, c, more, rfl, hc, hmore⟩ := readArrow?_eq_some_iff.mp hname
  simp only [List.mem_append, List.mem_cons] at h
  rcases h with h | h | h | h | h | h
  · exact absurd (hgap _ h) (by decide)
  · exact absurd h (by decide)
  · exact absurd h (by decide)
  · exact absurd (hgap' _ h) (by decide)
  · exact absurd (h ▸ hc) (by decide)
  · exact absurd (hmore _ h) (by decide)

theorem splitArrow?_cons {c : Char} {cs : List Char} (h : readArrow? (c :: cs) = none)
    (hc : c ≠ '\n') : splitArrow? (c :: cs) =
      (splitArrow? cs).map fun (arguments, result) => (c :: arguments, result) := by
  conv_lhs => unfold splitArrow?
  rw [h]
  exact if_neg hc

/-- An arrow is looked for behind the last quote only. -/
theorem splitArrow?_append_quote (hbreak : '\n' ∉ text) (tail : List Char) :
    splitArrow? (text ++ '\x22' :: tail) =
      (splitArrow? tail).map fun (arguments, result) => (text ++ '\x22' :: arguments, result) := by
  induction text with
  | nil =>
    have hquote : '\x22' ∈ '\x22' :: tail := List.mem_cons_self ..
    exact splitArrow?_cons (readArrow?_eq_none_of_quote hquote) (by decide)
  | cons c text ih =>
    obtain ⟨hc, htext⟩ := not_or.mp (mt List.mem_cons.mpr hbreak)
    have hquote : '\x22' ∈ c :: (text ++ '\x22' :: tail) := by simp
    rw [List.cons_append, splitArrow?_cons (readArrow?_eq_none_of_quote hquote) (Ne.symm hc),
      ih htext, Option.map_map]
    rfl

/-- The arguments of a prompt end with the quote behind the last of them. -/
theorem eq_nil_or_of_argumentsText (h : ArgumentsText arguments text) :
    text = [] ∨ ∃ front, text = front ++ ['\x22'] ∧ '\n' ∉ front := by
  induction h with
  | nil => exact Or.inl rfl
  | @cons gap key value rest arguments hgap hkey _ hbreak _ ih =>
    have hname : '\n' ∉ key := by
      intro hmem
      have hword := hkey.all (fun _ hstart => isWord_of_isIdentStart hstart) _ hmem
      exact absurd hword (by decide)
    have hfront : '\n' ∉ gap ++ (key ++ '=' :: '\x22' :: value) := by
      simp [hgap.not_mem (c := '\n') (by decide) (by decide), hname, hbreak]
    rcases ih with rfl | ⟨front, rfl, hbehind⟩
    · refine Or.inr ⟨gap ++ (key ++ '=' :: '\x22' :: value), ?_, hfront⟩
      simp [inQuotes]
    · refine Or.inr ⟨(gap ++ (key ++ '=' :: '\x22' :: value)) ++ '\x22' :: front, ?_, ?_⟩
      · simp [inQuotes]
      · intro hmem
        rcases List.mem_append.mp hmem with hmem | hmem
        · exact hfront hmem
        · exact hbehind ((List.mem_cons.mp hmem).resolve_left (by decide))

/-- Behind the arguments stands the arrow, if there is one. -/
theorem splitArrow?_of_argumentsText (h : ArgumentsText arguments text)
    {result : Option (List Char)} (hbehind : splitArrow? tail = some ([], result)) :
    splitArrow? (text ++ tail) = some (text, result) := by
  rcases eq_nil_or_of_argumentsText h with rfl | ⟨front, rfl, hbreak⟩
  · exact hbehind
  · rw [List.append_assoc, List.singleton_append, splitArrow?_append_quote hbreak, hbehind]
    rfl

theorem exists_splitArrow?_of_resultText (h : ResultText result tail) :
    ∃ name, splitArrow? tail = some ([], name) ∧
      (name.map String.ofList).getD "result" = result := by
  cases h with
  | absent => exact ⟨none, rfl, rfl⟩
  | @named gap gap' name hgap hgap' hname =>
    obtain ⟨c, more, rfl, hc, hmore⟩ := hname
    have hstart : isIdentStartAnyCase c = true := by
      rw [isIdentStartAnyCase, hc, Bool.true_or]
    have hread := readArrow?_eq_some_iff.mpr
      ⟨gap, gap', hgap.blanks, hgap'.blanks, rfl, c, more, rfl, hstart, hmore⟩
    refine ⟨some (c :: more), ?_, rfl⟩
    unfold splitArrow?
    rw [hread]

theorem takeArgument?_eq_some {key value : List Char} (hkey : NameOf isWord key)
    (hquote : '\x22' ∉ value) (rest : List Char) :
    takeArgument? (key ++ '=' :: (inQuotes value ++ rest)) =
      some (String.ofList key, String.ofList value, rest) := by
  obtain ⟨c, cs, rfl, hc, hcs⟩ := hkey
  have hfirst : (guard (isIdentStart c = true) : Option Unit) = some () := if_pos hc
  have hends : Stops isWord ('=' :: (inQuotes value ++ rest)) := stops_cons.mpr (by decide)
  have htake := (split_iff.mpr ⟨rfl, hcs, hends⟩).1
  have hinside : inQuotes value ++ rest = '\x22' :: (value ++ '\x22' :: rest) := by simp [inQuotes]
  unfold takeArgument?
  dsimp only [bind, Option.bind, List.cons_append, List.head?_cons, List.tail_cons]
  rw [hfirst, htake, List.length_cons, List.drop_succ_cons, List.drop_left, hinside]
  dsimp only
  split
  · rename_i behind hbehind
    cases hbehind
    split
    · rename_i inside hopen
      cases hopen
      rw [takeWhile_quote hquote, List.drop_left]
      rfl
    · rename_i hother
      exact absurd rfl (hother _)
  · rename_i hother
    exact absurd rfl (hother _)

/-- Arguments with different keys are read one after the other, and nothing is left. -/
theorem takeArguments_of_argumentsText (h : ArgumentsText arguments text) {fuel : Nat}
    (hfuel : arguments.length ≤ fuel) {found : List (String × String)}
    (hkeys : (Keyed.keys (found ++ arguments)).Nodup) :
    takeArguments fuel text found = (found ++ arguments, []) := by
  induction h generalizing fuel found with
  | nil =>
    rw [List.append_nil]
    cases fuel <;> rfl
  | @cons gap key value rest arguments hgap hkey hquote hbreak _ ih =>
    obtain ⟨fuel, rfl⟩ := Nat.exists_eq_add_of_le' (Nat.le_trans (Nat.succ_pos _) hfuel)
    have hstops := hkey.stops ('=' :: (inQuotes value ++ rest))
    have hnew : String.ofList key ∉ Keyed.keys found := by
      intro hmem
      unfold Keyed.keys at hkeys hmem
      rw [List.map_append, List.map_cons] at hkeys
      exact (List.nodup_append.mp hkeys).2.2 _ hmem _ (List.mem_cons_self ..) rfl
    have hmore : found ++ (String.ofList key, String.ofList value) :: arguments =
        found ++ [(String.ofList key, String.ofList value)] ++ arguments := by
      rw [List.append_assoc, List.singleton_append]
    rw [takeArguments, trimStart_append hgap.blanks, trimStart_of_stops hstops,
      takeArgument?_eq_some hkey hquote]
    dsimp only
    rw [Keyed.set_of_not_mem hnew, hmore]
    apply ih
    · exact Nat.le_of_succ_le_succ hfuel
    · rwa [ ← hmore]

theorem length_le_of_argumentsText (h : ArgumentsText arguments text) :
    arguments.length ≤ text.length := by
  induction h with
  | nil => exact Nat.le_refl 0
  | cons _ _ _ _ _ ih =>
    simp only [List.length_append, List.length_cons]
    omega

/-- Trimmed, the text of the arguments is still one that they may be written as. -/
theorem trim_of_argumentsText (h : ArgumentsText arguments text) :
    ArgumentsText arguments (trim text) := by
  cases h with
  | nil => exact .nil
  | @cons gap key value rest arguments hgap hkey hquote hbreak hrest =>
    have hnone : Spacing [] := nofun
    have hbody := ArgumentsText.cons hnone hkey hquote hbreak hrest
    have htrimmed : Trimmed (key ++ '=' :: (inQuotes value ++ rest)) := by
      constructor
      · exact hkey.stops _
      · rcases eq_nil_or_of_argumentsText hbody with hnil | ⟨front, hfront, -⟩
        · simp at hnil
        · rw [List.nil_append] at hfront
          rw [hfront]
          exact (endsVisibly_quote front).stops
    rw [trim_gap_append hgap.blanks htrimmed]
    exact hbody

theorem promptAction_of_argumentsText (h : ArgumentsText arguments text)
    (hkeys : (Keyed.keys ([] ++ arguments)).Nodup) (line : Option Int) (name : String)
    (result : Option (List Char)) : promptAction line name text result =
      .ok (.prompt name arguments ((result.map String.ofList).getD "result")) := by
  have htrim := trim_of_argumentsText h
  have hfuel := Nat.le_succ_of_le (length_le_of_argumentsText htrim)
  have htake := takeArguments_of_argumentsText htrim hfuel hkeys
  unfold promptAction
  dsimp only
  rw [htake]
  rfl

theorem readPrompt?_eq_some {execute gap prompt gap' name behind : List Char}
    {bound : Option (List Char)} (hexecute : Spells "execute" execute)
    (hgap : Spacing gap ∧ gap ≠ []) (hprompt : Spells "prompt" prompt)
    (hgap' : Spacing gap' ∧ gap' ≠ []) (hquote : '\x22' ∉ name) (hne : name ≠ [])
    (hsplit : splitArrow? behind = some (text, bound)) :
    readPrompt? (execute ++ (gap ++ (prompt ++ (gap' ++ (inQuotes name ++ behind))))) =
      some (String.ofList name, text, bound) := by
  have hstops : Stops isBlank (prompt ++ (gap' ++ (inQuotes name ++ behind))) :=
    stops_append (stops_of_spells hprompt (by decide)) (ne_nil_of_spells hprompt (by decide)) _
  have hinside : inQuotes name ++ behind = '\x22' :: (name ++ '\x22' :: behind) := by
    simp [inQuotes]
  have hsome : (guard ((!name.isEmpty) = true) : Option Unit) = some () :=
    if_pos (by simpa using hne)
  unfold readPrompt?
  rw [dropWord?_eq_some hexecute hgap hstops]
  dsimp only [bind, Option.bind]
  rw [dropWord?_eq_some hprompt hgap' (stops_inQuotes name behind), hinside]
  dsimp only
  split
  · rename_i inside hopen
    cases hopen
    rw [takeWhile_quote hquote, List.drop_left, hsome]
    dsimp only
    rw [hsplit]
    rfl
  · rename_i hother
    exact absurd rfl (hother _)

end Prompts

section Reading

variable {action : Action} {text cs : List Char}

theorem readLog?_eq_none (h : dropWord? "log" cs = none) : readLog? cs = none := by
  unfold readLog?
  rw [h]
  rfl

theorem readSet?_eq_none (h : dropWord? "set" cs = none) : readSet? cs = none := by
  unfold readSet?
  rw [h]
  rfl

theorem readWait?_eq_none (h : dropWord? "wait" cs = none) : readWait? cs = none := by
  unfold readWait?
  rw [h]
  rfl

theorem trimmed_of_spells {word : String} {keyword rest : List Char} (h : Spells word keyword)
    (hword : isSmallWord word = true) (hend : EndsVisibly rest) : Trimmed (keyword ++ rest) :=
  ⟨stops_append (stops_of_spells h hword) (ne_nil_of_spells h hword) rest,
    (hend.append keyword).stops⟩

/-- Behind its name, a prompt ends with a quote or with the variable for the result. -/
theorem endsVisibly_of_parts {name behind : List Char} {arguments : List (String × String)}
    {result : String} (harguments : ArgumentsText arguments text)
    (hresult : ResultText result behind) : EndsVisibly (inQuotes name ++ (text ++ behind)) := by
  cases hresult with
  | absent =>
    rw [List.append_nil]
    rcases eq_nil_or_of_argumentsText harguments with rfl | ⟨front, rfl, -⟩
    · rw [List.append_nil]
      exact endsVisibly_quote ('\x22' :: name)
    · exact (endsVisibly_quote front).append _
  | @named gap gap' bound hgap hgap' hname =>
    have harrow : EndsVisibly ('-' :: '>' :: (gap' ++ bound)) :=
      (hname.endsVisibly.append gap').append ['-', '>']
    exact ((harrow.append gap).append text).append _

/-- An action begins with a keyword and ends with a quote or a name, and not with blanks. -/
theorem Written.trimmed (h : action.Written text) : Trimmed text := by
  cases h with
  | @log _ log gap word gap' message _ hlog _ _ _ _ _ =>
    have hquotes : EndsVisibly (inQuotes message) := endsVisibly_quote ('\x22' :: message)
    exact trimmed_of_spells hlog (by decide) (((hquotes.append gap').append word).append gap)
  | @set set gap name gap' gap'' value hset _ _ _ _ _ =>
    have hquotes : EndsVisibly (inQuotes value) := endsVisibly_quote ('\x22' :: value)
    have hvalue : EndsVisibly ('=' :: (gap'' ++ inQuotes value)) :=
      (hquotes.append gap'').append ['=']
    exact trimmed_of_spells hset (by decide) (((hvalue.append gap').append name).append gap)
  | @prompt execute gap prompt gap' name text behind _ _ hexecute _ _ _ _ _ harguments _ hresult =>
    have hend : EndsVisibly (inQuotes name ++ (text ++ behind)) :=
      endsVisibly_of_parts harguments hresult
    exact trimmed_of_spells hexecute (by decide) (((hend.append gap').append prompt).append gap)

/-- An action is read from each of the texts that it may be written as, with any gaps around it. -/
theorem read_of_written {front back : List Char} (h : action.Written text)
    (hfront : Spacing front) (hback : Spacing back) (line : Option Int) :
    Action.read line (String.ofList (front ++ (text ++ back))) = .ok action := by
  unfold Action.read
  dsimp only
  rw [String.toList_ofList, trim_spaced hfront.blanks hback.blanks h.trimmed]
  cases h with
  | log hlevel hlog hgap hspells hword hgap' hbreak =>
    rw [readLog?_eq_some hlevel hlog hgap hspells hword hgap' hbreak]
    rfl
  | set hset hgap hname hgap' hgap'' hbreak =>
    rw [readLog?_eq_none (dropWord?_eq_none (by decide) (by decide) (by decide) hset _),
      readSet?_eq_some hset hgap hname hgap' hgap'' hbreak]
    rfl
  | prompt hexecute hgap hprompt hgap' hquote hne harguments hkeys hresult =>
    obtain ⟨bound, hbehind, hbound⟩ := exists_splitArrow?_of_resultText hresult
    have hsplit := splitArrow?_of_argumentsText harguments hbehind
    rw [readLog?_eq_none (dropWord?_eq_none (by decide) (by decide) (by decide) hexecute _),
      readSet?_eq_none (dropWord?_eq_none (by decide) (by decide) (by decide) hexecute _),
      readWait?_eq_none (dropWord?_eq_none (by decide) (by decide) (by decide) hexecute _),
      readPrompt?_eq_some hexecute hgap hprompt hgap' hquote hne hsplit]
    change promptAction line _ _ _ = _
    rw [promptAction_of_argumentsText harguments hkeys, hbound]

/-- An arrow in quotes is part of an argument, and so is what looks like another argument. -/
theorem read_release_prompt :
    Action.read (some 9)
        "\teXecute PROMPT  \x22a -> b\x22 as=\x22k=v\x22\tto_2=\x22 -> x\x22 ->\tout " =
      .ok (.prompt "a -> b" [("as", "k=v"), ("to_2", " -> x")] "out") := by
  have hblank : Spacing [' '] := by decide
  have htab : Spacing ['\t'] := by decide
  have hgap : Spacing [' '] ∧ [' '] ≠ [] := by decide
  have hgap' : Spacing [' ', ' '] ∧ [' ', ' '] ≠ [] := by decide
  have hexecute : Spells "execute" "eXecute".toList := by decide
  have hprompt : Spells "prompt" "PROMPT".toList := by decide
  have hname : '\x22' ∉ "a -> b".toList := by decide
  have hkey : NameOf isWord "as".toList :=
    nameOf_cons.mpr ⟨by decide, List.all_eq_true.mp (by decide)⟩
  have hkey' : NameOf isWord "to_2".toList :=
    nameOf_cons.mpr ⟨by decide, List.all_eq_true.mp (by decide)⟩
  have hout : NameOf isWord "out".toList :=
    nameOf_cons.mpr ⟨by decide, List.all_eq_true.mp (by decide)⟩
  have hpair : '\x22' ∉ "k=v".toList ∧ '\n' ∉ "k=v".toList := by decide
  have harrow : '\x22' ∉ " -> x".toList ∧ '\n' ∉ " -> x".toList := by decide
  have hsecond := ArgumentsText.cons htab hkey' harrow.1 harrow.2 .nil
  have harguments := ArgumentsText.cons hblank hkey hpair.1 hpair.2 hsecond
  have hwritten := Action.Written.prompt hexecute hgap hprompt hgap' hname (by decide) harguments
    (by decide) (ResultText.named hblank htab hout)
  exact read_of_written hwritten htab hblank (some 9)

end Reading

end Action

end Runbook.Workflow
