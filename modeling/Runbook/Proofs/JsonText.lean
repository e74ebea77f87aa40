import Runbook.Proofs.FloatText
import Runbook.Proofs.Values

/-!
Text in JSON. A text that is written in quotes reads back as it was, and every character of what is
written for a value is a plain one of ASCII or stands in one of the texts that the value holds.
-/
namespace Runbook

open Number Text

theorem Text.codeChar_toNat (c : Char) : codeChar c.toNat = c := by
  have hvalid : isHalfCode c.toNat = false := by
    have hc : c.toNat < 0xd800 ∨ 0xdfff < c.toNat ∧ c.toNat < 0x110000 := c.valid
    unfold isHalfCode
    rw [Bool.and_eq_false_iff, decide_eq_false_iff_not, decide_eq_false_iff_not]
    omega
  unfold codeChar
  rw [hvalid]
  exact Char.ofNat_toNat c

namespace Json

/-! Escaped text. -/

/-- A control character is written by its code in four digits. -/
theorem fourHex?_hexDigit : ∀ n < 32, fourHex? (hexDigit (n / 16 / 16 / 16 % 16))
    (hexDigit (n / 16 / 16 % 16)) (hexDigit (n / 16 % 16)) (hexDigit (n % 16)) = some n := by
  decide

theorem readUnits_escaped {c : Char} {n : Nat} (hc : escaped? c = some n) {units : List Nat}
    {cs rest : List Char} (h : readUnits cs = some (units, rest)) :
    readUnits ('\\' :: c :: cs) = some (n :: units, rest) := by
  rw [readUnits, hc, h]
  intro _ _ _ _ _ hletter _
  rw [hletter] at hc
  cases hc

/-- A character is read back from what it is written as. -/
theorem readUnits_escapeChar (c : Char) {units : List Nat} {cs rest : List Char}
    (h : readUnits cs = some (units, rest)) :
    readUnits (escapeChar c ++ cs) = some (c.toNat :: units, rest) := by
  have hhex : ∀ n, hexDigits 4 n = [hexDigit (n / 16 / 16 / 16 % 16),
      hexDigit (n / 16 / 16 % 16), hexDigit (n / 16 % 16), hexDigit (n % 16)] := fun _ => rfl
  unfold escapeChar
  split
  case h_8 hquote hslash _ _ _ _ _ =>
    split
    · rename_i hlow
      rw [hhex, List.cons_append, List.cons_append, List.cons_append, List.cons_append,
        List.cons_append, List.cons_append, List.nil_append, readUnits, fourHex?_hexDigit _ hlow, h]
    · rename_i hhigh
      rw [List.singleton_append, readUnits]
      · rw [if_neg hhigh, h]
      · exact hquote
      · exact fun _ _ _ _ _ heq => absurd heq hslash
      · exact fun _ _ heq => absurd heq hslash
  all_goals exact readUnits_escaped rfl h
theorem readUnits_flatMap (cs rest : List Char) :
    readUnits (cs.flatMap escapeChar ++ '"' :: rest) = some (cs.map Char.toNat, rest) := by
  induction cs with
  | nil => rfl
  | cons c cs ih =>
    rw [List.flatMap_cons, List.append_assoc, readUnits_escapeChar c ih, List.map_cons]

/-- No character is a half, so no two of them join. -/
theorem joinUnits_map (cs : List Char) : joinUnits (cs.map Char.toNat) = cs.map Char.toNat := by
  induction cs with
  | nil => rfl
  | cons c cs ih =>
    have hhigh : isHigh c.toNat = false := by
      have hc : c.toNat < 0xd800 ∨ 0xdfff < c.toNat ∧ c.toNat < 0x110000 := c.valid
      unfold isHigh
      rw [Bool.and_eq_false_iff, decide_eq_false_iff_not, decide_eq_false_iff_not]
      omega
    cases cs with
    | nil => rfl
    | cons d cs =>
      rw [List.map_cons, List.map_cons, joinUnits, hhigh, Bool.false_and,
        if_neg Bool.false_ne_true, ← List.map_cons, ih, List.map_cons]

theorem toList_writeText (s : String) :
    (writeText s).toList = '"' :: (s.toList.flatMap escapeChar ++ ['"']) := by
  unfold writeText
  rw [String.toList_ofList, List.cons_append]

/-- A written text is read back, and what follows it is left. -/
theorem readText?_flatMap (s : String) (rest : List Char) :
    readText? (s.toList.flatMap escapeChar ++ '"' :: rest) = some (s, rest) := by
  unfold readText?
  rw [readUnits_flatMap, Option.map_some]
  dsimp only
  rw [joinUnits_map, List.map_map]
  have hsame : (codeChar ∘ Char.toNat) = id := funext codeChar_toNat
  rw [hsame, List.map_id, String.ofList_toList]

/-! The characters of what is written. -/

/-- A character that values are written with apart from their texts. -/
def Plain (c : Char) : Prop := 32 ≤ c.toNat ∧ c.toNat < 128 ∨ c = '\n'

theorem plain_of_mem_word {cs : List Char}
    (h : cs.all (fun c => 32 ≤ c.toNat && c.toNat < 128) = true) {c : Char} (hc : c ∈ cs) :
    Plain c := by
  have hall := List.all_eq_true.mp h c hc
  simp only [Bool.and_eq_true, decide_eq_true_eq] at hall
  exact Or.inl hall

theorem plain_of_digit {c : Char} (h : isAsciiDigit c = true) : Plain c := by
  have := isAsciiDigit_iff.mp h
  exact Or.inl (by omega)

theorem plain_hexDigit (n : Nat) : Plain (hexDigit (n % 16)) := by
  have hall : ∀ n < 16, Plain (hexDigit n) := by
    unfold Plain
    decide
  exact hall _ (Nat.mod_lt _ (by decide))

theorem plain_or_eq_of_mem_escapeChar {b c : Char} (h : b ∈ escapeChar c) :
    Plain b ∨ b = c ∧ 128 ≤ c.toNat := by
  unfold escapeChar at h
  split at h
  case h_8 =>
    split at h
    · simp only [List.mem_cons, hexDigits, List.nil_append, List.mem_append, List.not_mem_nil,
        or_false] at h
      rcases h with rfl | rfl | ((rfl | rfl) | rfl) | rfl
      · exact Or.inl (by unfold Plain; decide)
      · exact Or.inl (by unfold Plain; decide)
      all_goals exact Or.inl (plain_hexDigit _)
    · rename_i hhigh
      obtain rfl := List.mem_singleton.mp h
      rcases Nat.lt_or_ge b.toNat 128 with hlow | hhigher
      · exact Or.inl (Or.inl ⟨Nat.not_lt.mp hhigh, hlow⟩)
      · exact Or.inr ⟨rfl, hhigher⟩
  all_goals
    refine Or.inl ?_
    simp only [List.mem_cons, List.not_mem_nil, or_false] at h
    rcases h with rfl | rfl <;> unfold Plain <;> decide

/-- A character beyond ASCII is written as it is. -/
theorem mem_escapeChar {c : Char} (h : 128 ≤ c.toNat) : c ∈ escapeChar c := by
  unfold escapeChar
  split
  case h_8 => rw [if_neg (by omega)]; exact List.mem_singleton_self c
  all_goals exact absurd h (by decide)

theorem plain_of_mem_digits {cs : List Char} (h : AllDigits cs) {c : Char} (hc : c ∈ cs) :
    Plain c := plain_of_digit (h c hc)

theorem plain_of_mem_toString {n : Int} {c : Char} (h : c ∈ (toString n).toList) : Plain c := by
  rcases mem_toString_int h with rfl | hdigit
  · unfold Plain
    decide
  · exact plain_of_digit hdigit

theorem plain_of_mem_exponentText {e : Int} {c : Char} (h : c ∈ exponentText e) : Plain c := by
  have hdigits := allDigits_toDigits e.natAbs
  have hsigns : Plain 'e' ∧ Plain '-' ∧ Plain '+' ∧ Plain '0' := by
    unfold Plain
    decide
  obtain ⟨he, hminus, hplus, hzero⟩ := hsigns
  simp only [exponentText, toList_toString, List.mem_cons] at h
  rcases h with rfl | rfl | h
  · exact he
  · split <;> assumption
  · split at h
    · rcases List.mem_cons.mp h with rfl | h
      · exact hzero
      · exact plain_of_mem_digits hdigits h
    · exact plain_of_mem_digits hdigits h

theorem plain_of_mem_positional {ds : List Char} (hds : AllDigits ds) {point : Int} {c : Char}
    (h : c ∈ positional ds point) : Plain c := by
  have hzeros : ∀ n, c ∈ List.replicate n '0' → Plain c := fun n hn =>
    plain_of_mem_digits (AllDigits.zeros n) hn
  have hsome : ∀ cs, cs ⊆ ds → c ∈ cs → Plain c := fun cs hsub hcs =>
    plain_of_mem_digits hds (hsub hcs)
  have hpoint : Plain '.' ∧ Plain '0' := by
    unfold Plain
    decide
  unfold positional at h
  split at h
  · split at h
    · simp only [List.cons_append, List.mem_cons, List.mem_append] at h
      rcases h with rfl | rfl | h | h
      · exact hpoint.2
      · exact hpoint.1
      · exact hzeros _ h
      · exact hsome _ (List.Subset.refl _) h
    · split at h
      · simp only [List.mem_append, List.mem_cons, List.not_mem_nil, or_false] at h
        rcases h with (h | h) | rfl | rfl
        · exact hsome _ (List.Subset.refl _) h
        · exact hzeros _ h
        · exact hpoint.1
        · exact hpoint.2
      · simp only [List.mem_append, List.mem_cons] at h
        rcases h with h | rfl | h
        · exact hsome _ (List.take_subset ..) h
        · exact hpoint.1
        · exact hsome _ (List.drop_subset ..) h
  · rcases List.mem_append.mp h with h | h
    · split at h
      · obtain rfl := List.mem_singleton.mp h
        exact hpoint.2
      · exact hsome _ (List.Subset.refl _) h
      · simp only [List.mem_cons] at h
        rcases h with rfl | rfl | h
        · exact hsome _ (List.Subset.refl _) (List.mem_cons_self ..)
        · exact hpoint.1
        · exact hsome _ (List.subset_cons_self ..) h
    · exact plain_of_mem_exponentText h

theorem plain_of_mem_writeFloat {x : Binary64} {c : Char} (h : c ∈ (writeFloat x).toList) :
    Plain c := by
  unfold writeFloat at h
  split at h
  · exact plain_of_mem_word (by decide) h
  · split at h
    · split at h
      · exact plain_of_mem_word (by decide) h
      · exact plain_of_mem_word (by decide) h
    · rename_i hnan hinf
      have hkept : AllDigits (Decimal.shortest x).significant.1 := by
        unfold Decimal.significant
        dsimp only
        rw [toList_toString]
        obtain ⟨zeros, hzeros⟩ := eq_append_zeros (Nat.toDigits 10 (Decimal.shortest x).digits)
        have hdigits := allDigits_toDigits (Decimal.shortest x).digits
        rw [hzeros] at hdigits
        exact hdigits.of_subset (List.subset_append_left ..)
      unfold Binary64.text at h
      simp only [hnan, hinf, Bool.false_eq_true, if_false, String.toList_ofList] at h
      generalize hbody : (if x.magnitude = 0 then ['0', '.', '0']
        else positional (Decimal.shortest x).significant.1 (Decimal.shortest x).significant.2)
        = body at h
      have hplain : c ∈ body → Plain c := by
        rw [← hbody]
        split
        · exact plain_of_mem_word (by decide)
        · exact plain_of_mem_positional hkept
      split at h
      · rcases List.mem_cons.mp h with rfl | h
        · unfold Plain
          decide
        · exact hplain h
      · exact hplain h

/-! Values spread over lines. -/

/-- A line break and the blanks that the next line begins with. -/
def gap (depth : Nat) : List Char := '\n' :: List.replicate (2 * depth) ' '

/-- Parts with a comma and a gap between them, and what follows the last one. -/
def laid (depth : Nat) (after : List Char) : List (List Char) → List Char
  | [] => after
  | [part] => part ++ after
  | part :: rest => part ++ ',' :: gap depth ++ laid depth after rest

theorem toList_stacked_nil (depth : Nat) (left right : Char) :
    (stacked depth left right []).toList = [left, right] := String.toList_ofList

theorem toList_stacked_cons (depth : Nat) (left right : Char) (part : String)
    (parts : List String) : (stacked depth left right (part :: parts)).toList =
      left :: (gap (depth + 1) ++
        laid (depth + 1) (gap depth ++ [right]) ((part :: parts).map String.toList)) := by
  have hindent : ∀ n, (indent n).toList = gap n := fun n => String.toList_ofList
  have hlaid : ∀ (after : List Char) (parts : List String) (part : String),
      (String.intercalate ("," ++ indent (depth + 1)) (part :: parts)).toList ++ after =
        laid (depth + 1) after ((part :: parts).map String.toList) := by
    intro after parts
    induction parts with
    | nil =>
      intro part
      rw [String.intercalate_singleton]
      rfl
    | cons next parts ih =>
      intro part
      rw [String.intercalate_cons_cons, String.toList_append, String.toList_append,
        String.toList_append, hindent, List.append_assoc, ih next]
      simp [laid]
  unfold stacked
  rw [if_neg (by simp)]
  simp only [String.toList_append, hindent, String.toList_singleton, List.append_assoc]
  rw [← hlaid, List.singleton_append]

theorem plain_of_mem_gap {depth : Nat} {c : Char} (h : c ∈ gap depth) : Plain c := by
  rcases List.mem_cons.mp h with rfl | h
  · exact Or.inr rfl
  · rw [List.eq_of_mem_replicate h]
    unfold Plain
    decide

theorem mem_laid {depth : Nat} {after : List Char} {parts : List (List Char)} {c : Char}
    (h : c ∈ laid depth after parts) : Plain c ∨ c ∈ after ∨ ∃ part ∈ parts, c ∈ part := by
  fun_induction laid depth after parts with
  | case1 => exact Or.inr (Or.inl h)
  | case2 part =>
    rcases List.mem_append.mp h with h | h
    · exact Or.inr (Or.inr ⟨part, List.mem_cons_self .., h⟩)
    · exact Or.inr (Or.inl h)
  | case3 part rest _ ih =>
    simp only [List.mem_append, List.mem_cons] at h
    rcases h with (h | rfl | h) | h
    · exact Or.inr (Or.inr ⟨part, List.mem_cons_self .., h⟩)
    · exact Or.inl (by unfold Plain; decide)
    · exact Or.inl (plain_of_mem_gap h)
    · rcases ih h with h | h | ⟨found, hfound, hc⟩
      · exact Or.inl h
      · exact Or.inr (Or.inl h)
      · exact Or.inr (Or.inr ⟨found, List.mem_cons_of_mem _ hfound, hc⟩)

theorem mem_laid_of_mem {depth : Nat} {after : List Char} {parts : List (List Char)}
    {part : List Char} (hpart : part ∈ parts) {c : Char} (hc : c ∈ part) :
    c ∈ laid depth after parts := by
  fun_induction laid depth after parts with
  | case1 => cases hpart
  | case2 last =>
    obtain rfl := List.mem_singleton.mp hpart
    exact List.mem_append_left _ hc
  | case3 first rest _ ih =>
    rcases List.mem_cons.mp hpart with rfl | hpart
    · exact List.mem_append_left _ (List.mem_append_left _ hc)
    · exact List.mem_append_right _ (ih hpart)

/-- What is written in brackets: plain characters and the characters of the parts. -/
theorem mem_stacked {depth : Nat} {left right : Char} {parts : List String} {c : Char}
    (hleft : Plain left) (hright : Plain right) (h : c ∈ (stacked depth left right parts).toList) :
    Plain c ∨ ∃ part ∈ parts, c ∈ part.toList := by
  cases parts with
  | nil =>
    rw [toList_stacked_nil] at h
    simp only [List.mem_cons, List.not_mem_nil, or_false] at h
    rcases h with rfl | rfl
    · exact Or.inl hleft
    · exact Or.inl hright
  | cons part parts =>
    rw [toList_stacked_cons] at h
    simp only [List.mem_cons, List.mem_append] at h
    rcases h with rfl | h | h
    · exact Or.inl hleft
    · exact Or.inl (plain_of_mem_gap h)
    · rcases mem_laid h with h | h | ⟨found, hfound, hc⟩
      · exact Or.inl h
      · simp only [List.mem_append, List.mem_singleton] at h
        rcases h with h | rfl
        · exact Or.inl (plain_of_mem_gap h)
        · exact Or.inl hright
      · obtain ⟨text, htext, rfl⟩ := List.mem_map.mp hfound
        exact Or.inr ⟨text, htext, hc⟩

theorem mem_stacked_of_mem {depth : Nat} {left right : Char} {parts : List String} {part : String}
    (hpart : part ∈ parts) {c : Char} (hc : c ∈ part.toList) :
    c ∈ (stacked depth left right parts).toList := by
  cases parts with
  | nil => cases hpart
  | cons first parts =>
    rw [toList_stacked_cons]
    exact List.mem_cons_of_mem _ (List.mem_append_right _
      (mem_laid_of_mem (List.mem_map_of_mem hpart) hc))

open Value

theorem mem_writeText {s : String} {c : Char} (h : c ∈ (writeText s).toList) :
    Plain c ∨ c ∈ s.toList ∧ 128 ≤ c.toNat := by
  have hquote : Plain '"' := by
    unfold Plain
    decide
  rw [toList_writeText] at h
  simp only [List.mem_cons, List.mem_append, List.mem_flatMap, List.not_mem_nil, or_false] at h
  rcases h with rfl | ⟨b, hb, h⟩ | rfl
  · exact Or.inl hquote
  · rcases plain_or_eq_of_mem_escapeChar h with h | ⟨rfl, hhigh⟩
    · exact Or.inl h
    · exact Or.inr ⟨hb, hhigh⟩
  · exact Or.inl hquote

theorem spreadItems_eq (depth : Nat) (items : List Value) :
    spreadItems depth items = items.map (spread depth) := by
  induction items with
  | nil => rfl
  | cons v rest ih => rw [spreadItems, ih, List.map_cons]

/-- The text of a field: its key in quotes, a colon and its value. -/
def fieldText (depth : Nat) (f : String × Value) : String :=
  writeText f.1 ++ ": " ++ spread depth f.2

theorem spreadFields_eq (depth : Nat) (fields : Fields) :
    spreadFields depth fields = fields.map (fieldText depth) := by
  induction fields with
  | nil => rfl
  | cons f rest ih =>
    rw [spreadFields, ih, List.map_cons]
    rfl

theorem spread_list (depth : Nat) (items : List Value) : spread depth (.list items) =
    stacked depth '[' ']' (items.map (spread (depth + 1))) := by
  rw [spread, spreadItems_eq]

theorem spread_record (depth : Nat) (fields : Fields) : spread depth (.record fields) =
    stacked depth '{' '}' (fields.map (fieldText (depth + 1))) := by
  rw [spread, spreadFields_eq]

/-- What a value is written with: plain characters, and those beyond ASCII in its texts. -/
theorem mem_spread {c : Char} (v : Value) : ∀ depth, c ∈ (spread depth v).toList →
    Plain c ∨ ∃ s ∈ v.texts, c ∈ s.toList ∧ 128 ≤ c.toNat := by
  induction v using nested_induction with
  | null => exact fun _ h => Or.inl (plain_of_mem_word (by decide) (show c ∈ "null".toList from h))
  | bool b =>
    intro _ h
    cases b with
    | true => exact Or.inl (plain_of_mem_word (by decide) (show c ∈ "true".toList from h))
    | false => exact Or.inl (plain_of_mem_word (by decide) (show c ∈ "false".toList from h))
  | int n => exact fun _ h => Or.inl (plain_of_mem_toString h)
  | float x => exact fun _ h => Or.inl (plain_of_mem_writeFloat h)
  | text s =>
    exact fun _ h => (mem_writeText h).imp_right fun h => ⟨s, List.mem_singleton_self s, h⟩
  | list items ih =>
    intro depth h
    rw [spread_list] at h
    refine (mem_stacked (by unfold Plain; decide) (by unfold Plain; decide) h).elim Or.inl ?_
    rintro ⟨part, hpart, hc⟩
    obtain ⟨v, hv, rfl⟩ := List.mem_map.mp hpart
    refine (ih v hv _ hc).imp_right ?_
    rintro ⟨s, hs, h⟩
    exact ⟨s, mem_texts_list.mpr ⟨v, hv, hs⟩, h⟩
  | record fields ih =>
    intro depth h
    rw [spread_record] at h
    refine (mem_stacked (by unfold Plain; decide) (by unfold Plain; decide) h).elim Or.inl ?_
    rintro ⟨part, hpart, hc⟩
    obtain ⟨f, hf, rfl⟩ := List.mem_map.mp hpart
    simp only [fieldText, String.toList_append, List.mem_append] at hc
    rcases hc with (hc | hc) | hc
    · exact (mem_writeText hc).imp_right fun h =>
        ⟨f.1, mem_texts_record.mpr ⟨f, hf, Or.inl rfl⟩, h⟩
    · exact Or.inl (plain_of_mem_word (by decide) (show c ∈ ": ".toList from hc))
    · refine (ih f hf _ hc).imp_right ?_
      rintro ⟨s, hs, h⟩
      exact ⟨s, mem_texts_record.mpr ⟨f, hf, Or.inr hs⟩, h⟩

theorem mem_writeText_of_mem {s : String} {c : Char} (hc : 128 ≤ c.toNat) (h : c ∈ s.toList) :
    c ∈ (writeText s).toList := by
  rw [toList_writeText]
  exact List.mem_cons_of_mem _ (List.mem_append_left _
    (List.mem_flatMap.mpr ⟨c, h, mem_escapeChar hc⟩))

/-- Characters beyond ASCII are written as they stand in the texts. -/
theorem mem_spread_of_mem {c : Char} (hc : 128 ≤ c.toNat) (v : Value) :
    ∀ depth, ∀ s ∈ v.texts, c ∈ s.toList → c ∈ (spread depth v).toList := by
  induction v using nested_induction with
  | text held =>
    intro _ s hs h
    obtain rfl : s = held := List.mem_singleton.mp hs
    exact mem_writeText_of_mem hc h
  | list items ih =>
    intro depth s hs h
    obtain ⟨v, hv, hs⟩ := mem_texts_list.mp hs
    rw [spread_list]
    exact mem_stacked_of_mem (List.mem_map_of_mem hv) (ih v hv _ s hs h)
  | record fields ih =>
    intro depth s hs h
    obtain ⟨f, hf, hs⟩ := mem_texts_record.mp hs
    rw [spread_record]
    refine mem_stacked_of_mem (List.mem_map_of_mem hf) ?_
    simp only [fieldText, String.toList_append, List.mem_append]
    rcases hs with rfl | hs
    · exact Or.inl (Or.inl (mem_writeText_of_mem hc h))
    · exact Or.inr (ih f hf _ s hs h)
  | null | bool | int | float => exact fun _ _ hs => absurd hs List.not_mem_nil

/-- The text of a value has halves only where a text in the value has some. -/
theorem hasHalves_spread (v : Value) (depth : Nat) :
    hasHalves (spread depth v) = false ↔ v.Whole := by
  have hbeyond : ∀ c : Char, isHalf c = true → 128 ≤ c.toNat := fun c hc => by
    by_contra hlow
    have hcode : c.toNat - 0x100000 = 0 := by omega
    simp only [isHalf, halfCode?, hcode] at hc
    exact absurd hc (by decide)
  constructor
  · intro h s hs
    rw [hasHalves, List.any_eq_false] at h ⊢
    intro c hc hhalf
    exact h c (mem_spread_of_mem (hbeyond c hhalf) v depth s hs hc) hhalf
  · intro h
    rw [hasHalves, List.any_eq_false]
    intro c hc hhalf
    have hhigh := hbeyond c hhalf
    rcases mem_spread v depth hc with hplain | ⟨s, hs, hmem, -⟩
    · rcases hplain with hlow | rfl
      · omega
      · exact absurd hhigh (by decide)
    · have hwhole := h s hs
      rw [hasHalves, List.any_eq_false] at hwhole
      exact hwhole c hmem hhalf

/-- The text of a value has no carriage return. -/
theorem return_not_mem_spread (v : Value) (depth : Nat) : '\r' ∉ (spread depth v).toList := by
  intro h
  rcases mem_spread v depth h with (hlow | heq) | ⟨-, -, -, hhigh⟩
  · exact absurd hlow.1 (by decide)
  · exact absurd heq (by decide)
  · exact absurd hhigh (by decide)

end Json

end Runbook
