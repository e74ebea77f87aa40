import Runbook.Guard.Token
import Runbook.Proofs.Notation
import Runbook.Proofs.Success

/-!
How the text of a guard splits into tokens. The spellings of the tokens are told one kind at a time,
and nothing is said there of how far one of them is read. At the front of a text the longest spelling
counts, and a text splits if it can be taken apart in this way to its end, with blanks in front of
every token. Reading tokens off the front of a text finds just the longest spelling each time, so
that it gives a list of tokens exactly when the text splits into them.
-/
namespace Runbook.Guard

open Text

section Spelling

/-- One digit at least, and nothing but digits. -/
def IsDigits (ds : List Char) : Prop := ds ≠ [] ∧ ∀ c ∈ ds, isDigit c = true

inductive IsUnsigned : List Char → Prop
  | whole {ds : List Char} (h : IsDigits ds) : IsUnsigned ds
  | decimal {ds places : List Char} (h : IsDigits ds) (hplaces : IsDigits places) :
      IsUnsigned (ds ++ '.' :: places)

inductive IsNumber : List Char → Prop
  | plain {ds : List Char} (h : IsUnsigned ds) : IsNumber ds
  | negative {ds : List Char} (h : IsUnsigned ds) : IsNumber ('-' :: ds)

/-- What may stand between two quotes: a quote of their kind stands behind a backslash, and so may
any other character but a line feed. -/
inductive IsInside (quote : Char) : List Char → Prop
  | nil : IsInside quote []
  | plain {c : Char} {cs : List Char} (hquote : c ≠ quote) (hescape : c ≠ '\\')
      (h : IsInside quote cs) : IsInside quote (c :: cs)
  | escaped {c : Char} {cs : List Char} (hbreak : c ≠ '\n') (h : IsInside quote cs) :
      IsInside quote ('\\' :: c :: cs)

/-- A letter or an underscore, and then characters of names. -/
def IsName (cs : List Char) : Prop :=
  ∃ c tail, cs = c :: tail ∧ isIdentStart c = true ∧ ∀ x ∈ tail, isNameChar x = true

/-- The texts that a token is written as. -/
inductive Token.Spelled : Token → List Char → Prop
  | number {digits : List Char} (h : IsNumber digits) : Spelled (.number digits) digits
  | quotation {quote : Char} {inside : List Char} (hquote : quote = '\x22' ∨ quote = '\x27')
      (h : IsInside quote inside) : Spelled (.quotation quote inside) (quote :: (inside ++ [quote]))
  | sign (s : Sign) : Spelled (.sign s) s.text.toList
  | name {cs : List Char} (h : IsName cs) (hplain : wordSign? (String.ofList cs) = none) :
      Spelled (.name (String.ofList cs)) cs
  | word {cs : List Char} {s : Sign} (h : IsName cs)
      (hsign : wordSign? (String.ofList cs) = some s) : Spelled (.sign s) cs

/-- A spelling of a token at the front of a text, longer than which there is none. -/
structure Longest (t : Token) (lexeme cs : List Char) : Prop where
  spelled : t.Spelled lexeme
  front : lexeme <+: cs
  longest : ∀ (other : Token) (more : List Char), other.Spelled more → more <+: cs →
    more.length ≤ lexeme.length

/-- A text splits into tokens by the longest spelling, with optional blanks in front of each. -/
inductive Splits : List Char → List Token → Prop
  | done : Splits [] []
  | token {gap lexeme rest : List Char} {t : Token} {ts : List Token} (hgap : Blanks gap)
      (hlongest : Longest t lexeme (lexeme ++ rest)) (hrest : Splits rest ts) :
      Splits (gap ++ (lexeme ++ rest)) (t :: ts)

end Spelling

section Heads

variable {c : Char} {cs : List Char}

theorem isDigit_ascii (h : c.toNat < 128) : isDigit c = true ↔ '0' ≤ c ∧ c ≤ '9' := by
  unfold isDigit digitValue?
  simp only [if_pos h]
  split
  · rename_i hbounds
    simp [hbounds]
  · rename_i hbounds
    simp [hbounds]

theorem isDigit_of_isIdentStart (h : isIdentStart c = true) : isDigit c = false := by
  have hident := isIdentChar_of_isIdentStart h
  rw [isIdentChar_iff] at hident
  have hascii : c.toNat < 128 := by omega
  rw [Bool.eq_false_iff]
  intro hdigit
  obtain ⟨-, hupper⟩ := (isDigit_ascii hascii).mp hdigit
  have hletter : isAsciiLetter c = true ∨ c = '_' := by
    simpa [isIdentStart] using h
  have hnine : c.toNat ≤ 57 := hupper
  rcases hletter with hletter | rfl
  · rw [isAsciiLetter_iff] at hletter
    omega
  · exact absurd hnine (by decide)

/-- No digit of any script is a blank. -/
theorem isBlank_of_isDigit (h : isDigit c = true) : isBlank c = false := by
  have hplaced : ∀ n, c.toNat = n → c = Char.ofNat n := by
    rintro n rfl
    exact (Char.ofNat_toNat c).symm
  unfold isDigit digitValue? at h
  simp only at h
  split at h
  · rename_i hascii
    have hbounds : '0' ≤ c ∧ c ≤ '9' := by
      by_contra hout
      rw [if_neg hout] at h
      cases h
    have hlow : 48 ≤ c.toNat := hbounds.1
    have hhigh : c.toNat ≤ 57 := hbounds.2
    have hall : ∀ k < 10, isBlank (Char.ofNat (48 + k)) = false := by decide
    rw [hplaced (48 + (c.toNat - 48)) (by omega)]
    exact hall _ (by omega)
  · rw [Option.isSome_map, Option.isSome_iff_exists] at h
    obtain ⟨first, hfirst⟩ := h
    have hbounds := List.find?_some hfirst
    simp only [Bool.and_eq_true, decide_eq_true_eq] at hbounds
    have hall : ∀ first ∈ zeros, ∀ k < 10, isBlank (Char.ofNat (first + k)) = false := by
      decide +kernel
    rw [hplaced (first + (c.toNat - first)) (by omega)]
    exact hall first (List.mem_of_find?_eq_some hfirst) _ (by omega)

theorem takeUnsigned?_of_not_digit (h : isDigit c = false) : takeUnsigned? (c :: cs) = none := by
  unfold takeUnsigned?
  simp [h]

theorem takeNumber?_of_not_digit (hminus : c ≠ '-') (h : isDigit c = false) :
    takeNumber? (c :: cs) = none := by
  unfold takeNumber?
  split
  · rename_i heq
    exact absurd (List.cons.inj heq).1 hminus
  · rw [takeUnsigned?_of_not_digit h]
    rfl

theorem takeQuotation?_of_not_quote (h : c ≠ '\x22' ∧ c ≠ '\x27') :
    takeQuotation? (c :: cs) = none := by
  rw [takeQuotation?, if_neg (not_or.mpr h)]

end Heads

section Numbers

variable {cs digits rest : List Char}

theorem spelled_of_takeUnsigned? (h : takeUnsigned? cs = some (digits, rest)) :
    IsUnsigned digits ∧ cs = digits ++ rest := by
  obtain ⟨heq, hall, -⟩ := split_takeWhile isDigit cs
  unfold takeUnsigned? at h
  simp only at h
  split at h
  · cases h
  · rename_i hsome
    have hwhole : IsDigits (cs.takeWhile isDigit) := ⟨by simpa using hsome, hall⟩
    split at h
    · rename_i c more hrest
      split at h
      · rename_i hc
        cases h
        obtain ⟨hmore, hplaces, -⟩ := split_takeWhile isDigit more
        refine ⟨.decimal hwhole ⟨nofun, ?_⟩, ?_⟩
        · intro x hx
          rcases List.mem_cons.mp hx with rfl | hx
          · exact hc
          · exact hplaces x hx
        · rw [List.append_assoc, List.cons_append, List.cons_append, ← hmore, ← hrest]
          exact heq
      · cases h
        exact ⟨.whole hwhole, heq⟩
    · cases h
      exact ⟨.whole hwhole, heq⟩

theorem spelled_of_takeNumber? {t : Token} (h : takeNumber? cs = some (t, rest)) :
    ∃ lexeme, t.Spelled lexeme ∧ cs = lexeme ++ rest := by
  unfold takeNumber? at h
  split at h
  · obtain ⟨⟨ds, after⟩, htake, heq⟩ := Option.map_eq_some_iff.mp h
    cases heq
    obtain ⟨hds, rfl⟩ := spelled_of_takeUnsigned? htake
    exact ⟨'-' :: ds, .number (.negative hds), rfl⟩
  · obtain ⟨⟨ds, after⟩, htake, heq⟩ := Option.map_eq_some_iff.mp h
    cases heq
    obtain ⟨hds, rfl⟩ := spelled_of_takeUnsigned? htake
    exact ⟨ds, .number (.plain hds), rfl⟩

/-- A number is read at least as far as one is written. -/
theorem exists_takeUnsigned? (h : IsUnsigned digits) (rest : List Char) :
    ∃ more after, takeUnsigned? (digits ++ rest) = some (more, after) ∧
      after.length ≤ rest.length := by
  have hdrop : (rest.dropWhile isDigit).length ≤ rest.length :=
    (List.dropWhile_suffix isDigit).length_le
  cases h with
  | whole hwhole =>
    have hne : (digits ++ rest.takeWhile isDigit).isEmpty = false := by
      simp [hwhole.1]
    unfold takeUnsigned?
    simp only [List.takeWhile_append_of_pos hwhole.2, List.dropWhile_append_of_pos hwhole.2, hne,
      Bool.false_eq_true, if_false]
    split
    · rename_i c more hrest
      rw [hrest] at hdrop
      split
      · have hmore : (more.dropWhile isDigit).length ≤ more.length :=
          (List.dropWhile_suffix isDigit).length_le
        refine ⟨_, _, rfl, ?_⟩
        simp only [List.length_cons] at hdrop
        omega
      · exact ⟨_, _, rfl, (List.dropWhile_suffix isDigit).length_le⟩
    · exact ⟨_, _, rfl, hdrop⟩
  | decimal hwhole hplaces =>
    rename_i ds places
    obtain ⟨c, more, rfl⟩ := List.exists_cons_of_ne_nil hplaces.1
    have hc := hplaces.2 c (List.mem_cons_self ..)
    have hmore : ∀ x ∈ more, isDigit x = true := fun x hx => hplaces.2 x (List.mem_cons_of_mem _ hx)
    have hpoint : Stops isDigit ('.' :: c :: (more ++ rest)) := stops_cons.mpr (by decide)
    obtain ⟨htake, hrest⟩ := split_iff.mpr ⟨rfl, hwhole.2, hpoint⟩
    have hne : ds.isEmpty = false := by simp [hwhole.1]
    rw [List.append_assoc, List.cons_append, List.cons_append]
    unfold takeUnsigned?
    simp only [htake, hrest, hne, Bool.false_eq_true, if_false, hc, if_true,
      List.dropWhile_append_of_pos hmore]
    exact ⟨_, _, rfl, hdrop⟩

theorem exists_takeNumber? (h : IsNumber digits) (rest : List Char) :
    ∃ more after, takeNumber? (digits ++ rest) = some (.number more, after) ∧
      after.length ≤ rest.length := by
  cases h with
  | plain hds =>
    obtain ⟨more, after, htake, hlength⟩ := exists_takeUnsigned? hds rest
    refine ⟨more, after, ?_, hlength⟩
    have hhead : ∀ tail, digits ++ rest ≠ '-' :: tail := by
      intro tail heq
      rw [heq, takeUnsigned?_of_not_digit (by decide)] at htake
      cases htake
    unfold takeNumber?
    split
    · rename_i heq
      exact absurd heq (hhead _)
    · rw [htake]
      rfl
  | negative hds =>
    rename_i ds
    obtain ⟨more, after, htake, hlength⟩ := exists_takeUnsigned? hds rest
    refine ⟨'-' :: more, after, ?_, hlength⟩
    rw [List.cons_append, takeNumber?, htake]
    rfl

end Numbers

section Quotations

variable {quote : Char} {cs inside rest : List Char}

theorem takeInside?_cons {c : Char} (hescape : c ≠ '\\') :
    takeInside? quote (c :: cs) =
      if c = quote then some ([], cs)
      else (takeInside? quote cs).map fun (inside, rest) => (c :: inside, rest) := by
  rw [takeInside?]
  · exact fun h _ => hescape h
  · exact fun _ _ h _ => hescape h

/-- A quotation is read to its first quote that no backslash takes along. -/
theorem takeInside?_eq_some_iff (hquote : quote ≠ '\\') :
    takeInside? quote cs = some (inside, rest) ↔
      IsInside quote inside ∧ cs = inside ++ quote :: rest := by
  constructor
  · intro h
    induction cs using takeInside?.induct quote generalizing inside with
    | case1 => cases h
    | case2 => cases h
    | case3 cs =>
      rw [takeInside?, if_pos rfl] at h
      cases h
    | case4 c cs hbreak ih =>
      rw [takeInside?, if_neg hbreak] at h
      obtain ⟨⟨ins, after⟩, htake, heq⟩ := Option.map_eq_some_iff.mp h
      cases heq
      obtain ⟨hins, rfl⟩ := ih htake
      exact ⟨.escaped hbreak hins, rfl⟩
    | case5 cs hend hescape =>
      rw [takeInside?_cons hquote, if_pos rfl] at h
      cases h
      exact ⟨.nil, rfl⟩
    | case6 c cs hend hescape hc ih =>
      have hplain : c ≠ '\\' := by
        intro heq
        cases cs with
        | nil => exact hend heq rfl
        | cons b tail => exact hescape b tail heq rfl
      rw [takeInside?_cons hplain, if_neg hc] at h
      obtain ⟨⟨ins, after⟩, htake, heq⟩ := Option.map_eq_some_iff.mp h
      cases heq
      obtain ⟨hins, rfl⟩ := ih htake
      exact ⟨.plain hc hplain hins, rfl⟩
  · rintro ⟨hinside, rfl⟩
    induction hinside with
    | nil => rw [List.nil_append, takeInside?_cons hquote, if_pos rfl]
    | plain hc hescape _ ih =>
      rw [List.cons_append, takeInside?_cons hescape, if_neg hc, ih]
      rfl
    | escaped hbreak _ ih =>
      rw [List.cons_append, List.cons_append, takeInside?, if_neg hbreak, ih]
      rfl

theorem ne_backslash_of_quote (h : quote = '\x22' ∨ quote = '\x27') : quote ≠ '\\' := by
  rcases h with rfl | rfl <;> decide

theorem spelled_of_takeQuotation? {t : Token} (h : takeQuotation? cs = some (t, rest)) :
    ∃ lexeme, t.Spelled lexeme ∧ cs = lexeme ++ rest := by
  unfold takeQuotation? at h
  split at h
  · rename_i q tail
    split at h
    · rename_i hquote
      obtain ⟨⟨ins, after⟩, htake, heq⟩ := Option.map_eq_some_iff.mp h
      cases heq
      obtain ⟨hins, rfl⟩ := (takeInside?_eq_some_iff (ne_backslash_of_quote hquote)).mp htake
      exact ⟨_, .quotation hquote hins, by simp⟩
    · cases h
  · cases h

theorem takeQuotation?_of_inside (hquote : quote = '\x22' ∨ quote = '\x27')
    (h : IsInside quote inside) (rest : List Char) :
    takeQuotation? (quote :: (inside ++ [quote]) ++ rest) =
      some (.quotation quote inside, rest) := by
  have htake : takeInside? quote (inside ++ quote :: rest) = some (inside, rest) :=
    (takeInside?_eq_some_iff (ne_backslash_of_quote hquote)).mpr ⟨h, rfl⟩
  rw [List.cons_append, List.append_assoc, List.singleton_append, takeQuotation?, if_pos hquote,
    htake]
  rfl

end Quotations

section Signs

variable {cs rest : List Char}

theorem spelled_of_takeSign? {t : Token} (h : takeSign? cs = some (t, rest)) :
    ∃ lexeme, t.Spelled lexeme ∧ cs = lexeme ++ rest := by
  have hspelled : ∀ s : Sign, (Token.sign s).Spelled s.text.toList := .sign
  unfold takeSign? at h
  split at h
  case h_12 => cases h
  all_goals
    cases h
    exact ⟨_, hspelled _, rfl⟩

/-- A sign of one character is read alone where no equals sign follows it. -/
theorem takeSign?_alone (h : ∀ tail, rest ≠ '=' :: tail) :
    takeSign? ('<' :: rest) = some (.sign (.comparison .less), rest) ∧
      takeSign? ('>' :: rest) = some (.sign (.comparison .greater), rest) ∧
      takeSign? ('!' :: rest) = some (.sign .negation, rest) := by
  refine ⟨?_, ?_, ?_⟩
  all_goals
    rw [takeSign?]
    exact h

/-- A sign is read at least as far as it is written; one that is read further is another one. -/
theorem exists_takeSign? (s : Sign) (rest : List Char) :
    ∃ t after, takeSign? (s.text.toList ++ rest) = some (t, after) ∧
      after.length ≤ rest.length ∧ (after = rest → t = .sign s) := by
  have hexact : takeSign? (s.text.toList ++ rest) = some (.sign s, rest) → ∃ t after,
      takeSign? (s.text.toList ++ rest) = some (t, after) ∧ after.length ≤ rest.length ∧
        (after = rest → t = .sign s) :=
    fun htake => ⟨_, _, htake, le_refl _, fun _ => rfl⟩
  have hlonger : ∀ t more, rest = '=' :: more →
      takeSign? (s.text.toList ++ '=' :: more) = some (t, more) → ∃ t after,
        takeSign? (s.text.toList ++ rest) = some (t, after) ∧ after.length ≤ rest.length ∧
          (after = rest → t = .sign s) := by
    rintro t more rfl htake
    refine ⟨t, more, htake, Nat.le_succ _, fun heq => ?_⟩
    exact absurd (congrArg List.length heq) (Nat.ne_of_lt (Nat.lt_succ_self _))
  by_cases hnext : ∃ more, rest = '=' :: more
  · obtain ⟨more, hmore⟩ := hnext
    cases s with
    | both | either | opening | closing => exact hexact rfl
    | negation => exact hlonger (.sign (.comparison .unequal)) more hmore rfl
    | comparison c =>
      cases c with
      | equal | unequal | atMost | atLeast => exact hexact rfl
      | less => exact hlonger (.sign (.comparison .atMost)) more hmore rfl
      | greater => exact hlonger (.sign (.comparison .atLeast)) more hmore rfl
  · obtain ⟨hless, hgreater, hnegation⟩ := takeSign?_alone (not_exists.mp hnext)
    cases s with
    | both | either | opening | closing => exact hexact rfl
    | negation => exact hexact hnegation
    | comparison c =>
      cases c with
      | equal | unequal | atMost | atLeast => exact hexact rfl
      | less => exact hexact hless
      | greater => exact hexact hgreater

end Signs

section Words

variable {c : Char} {cs rest : List Char}

theorem takeSign?_of_isIdentStart (h : isIdentStart c = true) : takeSign? (c :: cs) = none := by
  have hne : ∀ sign : Char, isIdentStart sign = false → c ≠ sign := by
    rintro sign hsign rfl
    rw [hsign] at h
    cases h
  cases htake : takeSign? (c :: cs) with
  | none => rfl
  | some result =>
    unfold takeSign? at htake
    split at htake
    case h_12 => cases htake
    all_goals
      rename_i heq
      exact absurd (List.cons.inj heq).1 (hne _ (by decide))

theorem spelled_ofWord (h : IsName cs) : (ofWord (String.ofList cs)).Spelled cs := by
  unfold ofWord
  split
  · rename_i s hsign
    exact .word h hsign
  · rename_i hplain
    exact .name h hplain

theorem spelled_of_takeName? {t : Token} (h : takeName? cs = some (t, rest)) :
    ∃ lexeme, t.Spelled lexeme ∧ cs = lexeme ++ rest := by
  unfold takeName? at h
  split at h
  · rename_i c tail
    split at h
    · rename_i hc
      cases h
      obtain ⟨heq, hall, -⟩ := split_takeWhile isNameChar tail
      exact ⟨_, spelled_ofWord ⟨c, _, rfl, hc, hall⟩, congrArg (c :: ·) heq⟩
    · cases h
  · cases h

/-- A name is read at least as far as it is written. -/
theorem exists_takeName? (h : IsName cs) (rest : List Char) :
    ∃ t after, takeName? (cs ++ rest) = some (t, after) ∧ after.length ≤ rest.length ∧
      (after = rest → t = ofWord (String.ofList cs)) := by
  obtain ⟨c, tail, rfl, hc, htail⟩ := h
  rw [List.cons_append, takeName?, if_pos hc, List.takeWhile_append_of_pos htail,
    List.dropWhile_append_of_pos htail]
  refine ⟨_, _, rfl, (List.dropWhile_suffix isNameChar).length_le, fun hafter => ?_⟩
  have hnone : rest.takeWhile isNameChar = [] := by
    have hsplit := congrArg List.length (List.takeWhile_append_dropWhile (p := isNameChar) (l := rest))
    rw [List.length_append, hafter] at hsplit
    exact List.eq_nil_of_length_eq_zero (by omega)
  rw [hnone, List.append_nil]

end Words

section Tokens

variable {cs rest lexeme : List Char} {t : Token}

theorem spelled_of_takeToken? (h : takeToken? cs = some (t, rest)) :
    ∃ lexeme, t.Spelled lexeme ∧ cs = lexeme ++ rest := by
  unfold takeToken? at h
  simp only [Option.or_eq_some_iff] at h
  rcases h with hnumber | ⟨-, hquotation | ⟨-, hsign | ⟨-, hname⟩⟩⟩
  · exact spelled_of_takeNumber? hnumber
  · exact spelled_of_takeQuotation? hquotation
  · exact spelled_of_takeSign? hsign
  · exact spelled_of_takeName? hname

theorem takeToken?_of_head {c : Char} (hminus : c ≠ '-') (hdigit : isDigit c = false)
    (hquote : c ≠ '\x22' ∧ c ≠ '\x27') :
    takeToken? (c :: cs) = (takeSign? (c :: cs)).or (takeName? (c :: cs)) := by
  unfold takeToken?
  rw [takeNumber?_of_not_digit hminus hdigit, Option.none_or, takeQuotation?_of_not_quote hquote,
    Option.none_or]

theorem takeToken?_of_isIdentStart {c : Char} (h : isIdentStart c = true) :
    takeToken? (c :: cs) = takeName? (c :: cs) := by
  have hne : ∀ other : Char, isIdentStart other = false → c ≠ other := by
    rintro other hother rfl
    rw [hother] at h
    cases h
  rw [takeToken?_of_head (hne '-' (by decide)) (isDigit_of_isIdentStart h)
    ⟨hne _ (by decide), hne _ (by decide)⟩, takeSign?_of_isIdentStart h, Option.none_or]

theorem takeToken?_of_sign (s : Sign) (rest : List Char) :
    takeToken? (s.text.toList ++ rest) =
      (takeSign? (s.text.toList ++ rest)).or (takeName? (s.text.toList ++ rest)) := by
  cases s with
  | both | either | opening | closing | negation =>
    exact takeToken?_of_head (by decide) (by decide) (by decide)
  | comparison c => cases c <;> exact takeToken?_of_head (by decide) (by decide) (by decide)

theorem takeToken?_of_inside {quote : Char} {inside : List Char}
    (hquote : quote = '\x22' ∨ quote = '\x27') (h : IsInside quote inside) (rest : List Char) :
    takeToken? (quote :: (inside ++ [quote]) ++ rest) = some (.quotation quote inside, rest) := by
  have hnone : takeNumber? (quote :: (inside ++ [quote]) ++ rest) = none := by
    rw [List.cons_append]
    apply takeNumber?_of_not_digit <;> rcases hquote with rfl | rfl <;> decide
  unfold takeToken?
  rw [hnone, Option.none_or, takeQuotation?_of_inside hquote h, Option.some_or]

theorem exists_takeToken?_of_name (h : IsName lexeme) (rest : List Char) :
    ∃ t after, takeToken? (lexeme ++ rest) = some (t, after) ∧ after.length ≤ rest.length ∧
      (after = rest → t = ofWord (String.ofList lexeme)) := by
  have hread := exists_takeName? h rest
  obtain ⟨c, tail, rfl, hc, -⟩ := h
  rw [List.cons_append, takeToken?_of_isIdentStart hc]
  exact hread

/-- A token that is spelled at the front of a text is read at least as far as that; one that is read
no further is that token. -/
theorem exists_takeToken?_of_spelled (h : t.Spelled lexeme) (rest : List Char) :
    ∃ other after, takeToken? (lexeme ++ rest) = some (other, after) ∧
      after.length ≤ rest.length ∧ (after = rest → other = t) := by
  cases h with
  | number hnumber =>
    obtain ⟨more, after, htake, hlength⟩ := exists_takeNumber? hnumber rest
    refine ⟨.number more, after, ?_, hlength, ?_⟩
    · unfold takeToken?
      rw [htake, Option.some_or]
    · rintro rfl
      obtain ⟨read, hspelled, heq⟩ := spelled_of_takeNumber? htake
      cases hspelled
      rw [List.append_cancel_right heq]
  | quotation hquote hinside =>
    exact ⟨_, rest, takeToken?_of_inside hquote hinside rest, le_refl _, fun _ => rfl⟩
  | sign s =>
    obtain ⟨other, after, htake, hread⟩ := exists_takeSign? s rest
    refine ⟨other, after, ?_, hread⟩
    rw [takeToken?_of_sign, htake, Option.some_or]
  | name hname hplain =>
    obtain ⟨other, after, htake, hlength, hsame⟩ := exists_takeToken?_of_name hname rest
    refine ⟨other, after, htake, hlength, fun heq => ?_⟩
    rw [hsame heq, ofWord, hplain]
  | word hname hsign =>
    obtain ⟨other, after, htake, hlength, hsame⟩ := exists_takeToken?_of_name hname rest
    refine ⟨other, after, htake, hlength, fun heq => ?_⟩
    rw [hsame heq, ofWord, hsign]

/-- Taking a token off the front of a text takes its longest spelling. -/
theorem takeToken?_eq_some_iff :
    takeToken? cs = some (t, rest) ↔ ∃ lexeme, Longest t lexeme cs ∧ cs = lexeme ++ rest := by
  constructor
  · intro h
    obtain ⟨lexeme, hspelled, rfl⟩ := spelled_of_takeToken? h
    refine ⟨lexeme, ⟨hspelled, List.prefix_append .., ?_⟩, rfl⟩
    rintro other more hother ⟨tail, htail⟩
    obtain ⟨read, after, htake, hlength, -⟩ := exists_takeToken?_of_spelled hother tail
    rw [htail, h] at htake
    cases htake
    have htotal := congrArg List.length htail
    simp only [List.length_append] at htotal
    omega
  · rintro ⟨lexeme, hlongest, rfl⟩
    obtain ⟨read, after, htake, hlength, hsame⟩ :=
      exists_takeToken?_of_spelled hlongest.spelled rest
    obtain ⟨more, hmore, heq⟩ := spelled_of_takeToken? htake
    have hshort := hlongest.longest read more hmore ⟨after, heq.symm⟩
    have htotal := congrArg List.length heq
    simp only [List.length_append] at htotal
    obtain ⟨-, rfl⟩ := List.append_inj heq (by omega)
    rw [htake, hsame rfl]

end Tokens

section Splitting

variable {cs : List Char} {ts : List Token}

theorem IsUnsigned.exists_head {ds : List Char} (h : IsUnsigned ds) :
    ∃ c tail, ds = c :: tail ∧ isBlank c = false := by
  cases h with
  | whole h =>
    obtain ⟨c, tail, rfl⟩ := List.exists_cons_of_ne_nil h.1
    exact ⟨c, tail, rfl, isBlank_of_isDigit (h.2 c (List.mem_cons_self ..))⟩
  | decimal h _ =>
    obtain ⟨c, tail, rfl⟩ := List.exists_cons_of_ne_nil h.1
    exact ⟨c, _, rfl, isBlank_of_isDigit (h.2 c (List.mem_cons_self ..))⟩

theorem IsName.exists_head {lexeme : List Char} (h : IsName lexeme) :
    ∃ c tail, lexeme = c :: tail ∧ isBlank c = false := by
  obtain ⟨c, tail, rfl, hc, -⟩ := h
  exact ⟨c, tail, rfl, isBlank_of_isIdentChar (isIdentChar_of_isIdentStart hc)⟩

/-- A spelling is not empty and begins with no blank. -/
theorem Token.Spelled.exists_head {t : Token} {lexeme : List Char} (h : t.Spelled lexeme) :
    ∃ c tail, lexeme = c :: tail ∧ isBlank c = false := by
  cases h with
  | number h =>
    cases h with
    | plain h => exact h.exists_head
    | negative h => exact ⟨'-', _, rfl, by decide⟩
  | quotation hquote h =>
    refine ⟨_, _, rfl, ?_⟩
    rcases hquote with rfl | rfl <;> decide
  | sign s =>
    cases s with
    | both | either | opening | closing | negation => exact ⟨_, _, rfl, by decide⟩
    | comparison c => cases c <;> exact ⟨_, _, rfl, by decide⟩
  | name h _ => exact h.exists_head
  | word h _ => exact h.exists_head

theorem Splits.of_takeToken? {gap rest : List Char} {t : Token} (hgap : Blanks gap)
    (htake : takeToken? cs = some (t, rest)) (hrest : Splits rest ts) :
    Splits (gap ++ cs) (t :: ts) := by
  obtain ⟨lexeme, hlongest, rfl⟩ := takeToken?_eq_some_iff.mp htake
  exact .token hgap hlongest hrest

/-- A text is scanned to its end exactly when it splits into the tokens that are found. -/
theorem scan_eq_ok_iff {fuel : Nat} (hfuel : cs.length ≤ fuel) :
    scan fuel cs = .ok ts ↔ Splits cs ts := by
  constructor
  · intro h
    clear hfuel
    induction fuel, cs using scan.induct generalizing ts with
    | case1 fuel =>
      rw [scan] at h
      cases h
      exact .done
    | case2 cs hne =>
      rw [scan] at h
      · cases h
      · exact hne
    | case3 fuel cs hne hnone =>
      rw [scan, hnone] at h
      · cases h
      · exact hne
    | case4 fuel cs hne t rest htake ih =>
      rw [scan, htake] at h
      · obtain ⟨more, hmore, heq⟩ := bind_eq_ok_iff.mp h
        cases heq
        obtain ⟨gap, hgap, hcs, -⟩ := exists_gap cs
        rw [hcs]
        exact .of_takeToken? hgap htake (ih hmore)
      · exact hne
  · intro h
    induction h generalizing fuel with
    | done => rw [scan]
    | token hgap hlongest hrest ih =>
      rename_i gap lexeme rest t ts
      obtain ⟨c, tail, hlexeme, hc⟩ := hlongest.spelled.exists_head
      have hfront : trimStart (gap ++ (lexeme ++ rest)) = lexeme ++ rest := by
        rw [trimStart_append hgap, trimStart_of_stops]
        rw [hlexeme]
        exact stops_cons.mpr hc
      have hlength : rest.length < (gap ++ (lexeme ++ rest)).length := by
        rw [hlexeme]
        simp only [List.length_append, List.length_cons]
        omega
      obtain ⟨fuel, rfl⟩ := Nat.exists_eq_succ_of_ne_zero (show fuel ≠ 0 by omega)
      rw [scan, hfront, takeToken?_eq_some_iff.mpr ⟨lexeme, hlongest, rfl⟩]
      · have hmore : scan fuel rest = .ok ts := ih (by omega)
        exact bind_eq_ok_iff.mpr ⟨ts, hmore, rfl⟩
      · intro hnil
        rw [hnil] at hlength
        exact absurd hlength (Nat.not_lt_zero _)

theorem tokens_eq_ok_iff {s : String} : tokens s = .ok ts ↔ Splits (trim s.toList) ts := by
  unfold tokens
  rw [mapError_eq_ok_iff, scan_eq_ok_iff (le_refl _)]

/-- A text splits in one way at most. -/
theorem Splits.unique {ts' : List Token} (h : Splits cs ts) (h' : Splits cs ts') : ts = ts' := by
  rw [ ← scan_eq_ok_iff (le_refl _)] at h h'
  exact Except.ok.inj (h.symm.trans h')

end Splitting

end Runbook.Guard
