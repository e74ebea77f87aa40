import Runbook.Proofs.JsonText
import Runbook.Proofs.Success

/-!
Values in JSON. A value without infinite doubles and overlong integers that is spread over lines is
read back, as long as it is not nested too deeply; where a record repeats a key, the reader keeps
the last value under it.
-/
namespace Runbook.Json

open Number Text Value

/-- What the text of a value begins with is neither white space nor the end of a list or record. -/
def Opens (cs : List Char) : Prop :=
  ∃ c rest, cs = c :: rest ∧ isSpace c = false ∧ c ≠ ']' ∧ c ≠ '}'

theorem Opens.append {cs : List Char} (h : Opens cs) (rest : List Char) : Opens (cs ++ rest) := by
  obtain ⟨c, tail, rfl, hc⟩ := h
  exact ⟨c, tail ++ rest, rfl, hc⟩

theorem Opens.skipSpace_eq {cs : List Char} (h : Opens cs) : skipSpace cs = cs := by
  obtain ⟨c, rest, rfl, hc, -⟩ := h
  unfold skipSpace
  rw [List.dropWhile_cons, hc]
  rfl

theorem skipSpace_gap (depth : Nat) (cs : List Char) : skipSpace (gap depth ++ cs) = skipSpace cs :=
  List.dropWhile_append_of_pos fun c hc => by
    rcases List.mem_cons.mp hc with rfl | hc
    · rfl
    · rw [List.eq_of_mem_replicate hc]
      rfl

theorem ends_gap (depth : Nat) (cs : List Char) : Ends (gap depth ++ cs) := by
  rintro c hc
  obtain rfl := Option.some.inj hc
  exact Or.inr rfl

theorem ends_comma (cs : List Char) : Ends (',' :: cs) := by
  rintro c hc
  obtain rfl := Option.some.inj hc
  exact Or.inl rfl

/-- A number begins with a digit, a sign or the first letter of a word. -/
theorem exists_head_of_readNumber {cs : List Char} {found : Value × List Char}
    (h : readNumber cs = .ok found) : ∃ c rest, cs = c :: rest ∧
      (isAsciiDigit c = true ∨ c ∈ ['n', 't', 'f', 'N', 'I', '-']) := by
  cases cs with
  | nil => cases h
  | cons c rest =>
    refine ⟨c, rest, rfl, ?_⟩
    by_contra hc
    obtain ⟨hdigit, hletter⟩ := not_or.mp hc
    simp only [List.mem_cons, List.not_mem_nil, or_false, not_or] at hletter
    have hplain : readNumber (c :: rest) = readUnsigned false (c :: rest) := by
      unfold readNumber
      rw [(readWord?_of_ne hletter rest).1]
      split
      · rename_i heq
        cases heq
      · rename_i heq
        exact absurd (List.cons.inj heq).1 hletter.2.2.2.2.2
      · rfl
    rw [hplain] at h
    obtain ⟨d, more, heq, hd⟩ := exists_digit_of_readUnsigned h
    obtain ⟨rfl, -⟩ := List.cons.inj heq
    exact hdigit hd

theorem ne_of_readNumber {cs : List Char} {found : Value × List Char}
    (h : readNumber cs = .ok found) {c : Char} (hdigit : isAsciiDigit c = false)
    (hletter : c ∉ ['n', 't', 'f', 'N', 'I', '-']) : cs.head? ≠ some c := by
  obtain ⟨d, rest, rfl, hd⟩ := exists_head_of_readNumber h
  intro heq
  obtain rfl := Option.some.inj heq
  rcases hd with hd | hd
  · rw [hdigit] at hd
    cases hd
  · exact hletter hd

theorem opens_of_readNumber {cs : List Char} {found : Value × List Char}
    (h : readNumber cs = .ok found) : Opens cs := by
  have hne : ∀ c, isAsciiDigit c = false → c ∉ ['n', 't', 'f', 'N', 'I', '-'] →
      cs.head? ≠ some c := fun c hdigit hletter => ne_of_readNumber h hdigit hletter
  obtain ⟨c, rest, rfl, -⟩ := exists_head_of_readNumber h
  have hc : ∀ d, isAsciiDigit d = false → d ∉ ['n', 't', 'f', 'N', 'I', '-'] → c ≠ d :=
    fun d hdigit hletter heq => hne d hdigit hletter (congrArg some heq)
  refine ⟨c, rest, rfl, ?_, hc ']' rfl (by decide), hc '}' rfl (by decide)⟩
  simp [isSpace, hc ' ' rfl (by decide), hc '\t' rfl (by decide), hc '\n' rfl (by decide),
    hc '\r' rfl (by decide)]

theorem opens_of_readValue {fuel depth : Nat} {cs : List Char} {found : Value × List Char}
    (h : readValue fuel depth cs = .ok found) : Opens cs := by
  cases depth with
  | zero => cases h
  | succ depth =>
    unfold readValue at h
    split at h
    · exact ⟨_, _, rfl, rfl, by decide, by decide⟩
    · exact ⟨_, _, rfl, rfl, by decide, by decide⟩
    · exact ⟨_, _, rfl, rfl, by decide, by decide⟩
    · exact opens_of_readNumber h

theorem opens_of_readItems {fuel depth n : Nat} {cs : List Char}
    {found : List Value × List Char} (h : readItems (readValue fuel depth) n cs = .ok found) :
    Opens cs := by
  cases n with
  | zero => cases h
  | succ n =>
    cases hvalue : readValue fuel depth cs with
    | ok first => exact opens_of_readValue hvalue
    | error f =>
      unfold readItems at h
      rw [hvalue] at h
      cases h

/-- Fields begin with the quote of a key. -/
theorem exists_quote_of_readFields {value : ValueReader} {n : Nat} {cs : List Char}
    {found : Fields × List Char} (h : readFields value n cs = .ok found) :
    ∃ body, cs = '"' :: body := by
  cases n with
  | zero => cases h
  | succ n =>
    unfold readFields at h
    split at h
    · exact ⟨_, rfl⟩
    · cases h

theorem opens_of_readFields {value : ValueReader} {n : Nat} {cs : List Char}
    {found : Fields × List Char} (h : readFields value n cs = .ok found) : Opens cs := by
  obtain ⟨body, rfl⟩ := exists_quote_of_readFields h
  exact ⟨_, _, rfl, rfl, by decide, by decide⟩

/-- What is read as a number is no text, list or record. -/
theorem readValue_of_readNumber {cs : List Char} {found : Value × List Char}
    (h : readNumber cs = .ok found) (fuel depth : Nat) :
    readValue fuel (depth + 1) cs = .ok found := by
  unfold readValue
  split
  · exact absurd rfl (ne_of_readNumber h (c := '"') rfl (by decide))
  · exact absurd rfl (ne_of_readNumber h (c := '[') rfl (by decide))
  · exact absurd rfl (ne_of_readNumber h (c := '{') rfl (by decide))
  · exact h

/-! Single values. -/

theorem readValue_writeText (s : String) (fuel depth : Nat) (rest : List Char) :
    readValue fuel (depth + 1) ((writeText s).toList ++ rest) = .ok (.text s, rest) := by
  have hquoted : ∀ cs, readValue fuel (depth + 1) ('"' :: cs) =
      (orMalformed (readText? cs)).map fun found => (.text found.1, found.2) := fun cs => by
    rw [readValue]
    cases readText? cs <;> rfl
  rw [toList_writeText, List.cons_append, List.append_assoc, hquoted, List.singleton_append,
    readText?_flatMap]
  rfl

theorem isWhole_toDigits (n : Nat) : IsWhole (Nat.toDigits 10 n) := by
  refine ⟨allDigits_toDigits n, Nat.toDigits_ne_nil, fun hzero => ?_⟩
  rcases Nat.eq_zero_or_pos n with rfl | hpos
  · rfl
  · exact absurd hzero (head_toDigits hpos)

theorem readNumber_toString {n : Int} (h : isTooLong n = false) {rest : List Char}
    (hrest : Ends rest) : readNumber ((toString n).toList ++ rest) = .ok (.int n, rest) := by
  have hsize : (Nat.toDigits 10 n.natAbs).length ≤ digitLimit := by
    rwa [length_toDigits_le (by decide), ← isTooLong_eq_false]
  have hread := readNumber_signed
    (readUnsigned_int (isWhole_toDigits n.natAbs) hsize hrest (decide (n < 0)))
  have hvalue : (if decide (n < 0) = true then -(n.natAbs : Int) else (n.natAbs : Int)) = n := by
    by_cases hnegative : n < 0
    · rw [if_pos (decide_eq_true hnegative)]
      omega
    · rw [if_neg (by simpa using hnegative)]
      omega
  rw [digitsValue_toDigits, hvalue] at hread
  rw [toList_toString_int, ← hread]
  by_cases hnegative : n < 0 <;> simp [hnegative]

/-! Lists and records. -/

theorem length_le_laid (depth : Nat) (after : List Char) (parts : List (List Char)) :
    parts.length ≤ (laid depth after parts).length + 1 ∧
      ∀ part ∈ parts, part.length ≤ (laid depth after parts).length := by
  fun_induction laid depth after parts with
  | case1 => simp
  | case2 part => simp
  | case3 part rest _ ih =>
    obtain ⟨hcount, hparts⟩ := ih
    simp only [List.length_append, List.length_cons]
    refine ⟨by omega, fun found hfound => ?_⟩
    rcases List.mem_cons.mp hfound with rfl | hfound
    · omega
    · have := hparts found hfound
      omega

theorem readValue_list {fuel depth : Nat} {cs body after : List Char} {items : List Value}
    (hskip : skipSpace cs = body) (hbody : Opens body)
    (h : readItems (readValue fuel depth) fuel body = .ok (items, after)) :
    readValue fuel (depth + 1) ('[' :: cs) = .ok (.list items, after) := by
  obtain ⟨c, rest, rfl, -, hc, -⟩ := hbody
  simp only [readValue]
  rw [hskip]
  split
  · rename_i heq
    exact absurd (List.cons.inj heq).1 hc
  · rw [h]
    rfl

theorem readValue_record {fuel depth : Nat} {cs body after : List Char} {fields : Fields}
    (hskip : skipSpace cs = '"' :: body)
    (h : readFields (readValue fuel depth) fuel ('"' :: body) = .ok (fields, after)) :
    readValue fuel (depth + 1) ('{' :: cs) = .ok (.record (Keyed.ofList fields), after) := by
  simp only [readValue]
  rw [hskip]
  split
  · rename_i heq
    exact absurd (List.cons.inj heq).1 (by decide)
  · rw [h]
    rfl

section Items

variable {value : ValueReader} {n : Nat} {cs rest after : List Char} {item : Value}

theorem readItems_last (h : value cs = .ok (item, rest)) (hrest : skipSpace rest = ']' :: after) :
    readItems value (n + 1) cs = .ok ([item], after) := by
  unfold readItems
  rw [h]
  change Except.bind (.ok (item, rest)) _ = _
  simp only [Except.bind, hrest]
  rfl

theorem readItems_more {more : List Char} {items : List Value} (h : value cs = .ok (item, rest))
    (hrest : skipSpace rest = ',' :: more)
    (hitems : readItems value n (skipSpace more) = .ok (items, after)) :
    readItems value (n + 1) cs = .ok (item :: items, after) := by
  unfold readItems
  rw [h]
  change Except.bind (.ok (item, rest)) _ = _
  simp only [Except.bind, hrest, hitems]
  rfl

end Items

section Fields

variable {value : ValueReader} {n : Nat} {cs before rest after : List Char} {key : String}
  {item : Value}

theorem readFields_last (hkey : readText? cs = some (key, ':' :: before))
    (h : value (skipSpace before) = .ok (item, rest)) (hrest : skipSpace rest = '}' :: after) :
    readFields value (n + 1) ('"' :: cs) = .ok ([(key, item)], after) := by
  rw [readFields, hkey]
  change Except.bind (.ok (key, ':' :: before)) _ = _
  have hcolon : skipSpace (':' :: before) = ':' :: before := rfl
  simp only [Except.bind, hcolon, h]
  change Except.bind (.ok (item, rest)) _ = _
  simp only [Except.bind, hrest]
  rfl

theorem readFields_more {more : List Char} {fields : Fields}
    (hkey : readText? cs = some (key, ':' :: before))
    (h : value (skipSpace before) = .ok (item, rest)) (hrest : skipSpace rest = ',' :: more)
    (hfields : readFields value n (skipSpace more) = .ok (fields, after)) :
    readFields value (n + 1) ('"' :: cs) = .ok ((key, item) :: fields, after) := by
  rw [readFields, hkey]
  change Except.bind (.ok (key, ':' :: before)) _ = _
  have hcolon : skipSpace (':' :: before) = ':' :: before := rfl
  simp only [Except.bind, hcolon, h]
  change Except.bind (.ok (item, rest)) _ = _
  simp only [Except.bind, hrest, hfields]
  rfl

end Fields

theorem toList_fieldText (depth : Nat) (f : String × Value) (rest : List Char) :
    (fieldText depth f).toList ++ rest = '"' :: (f.1.toList.flatMap escapeChar ++
      '"' :: ':' :: ' ' :: ((spread depth f.2).toList ++ rest)) := by
  have hcolon : ": ".toList = [':', ' '] := rfl
  rw [fieldText, String.toList_append, String.toList_append, toList_writeText, hcolon]
  simp

theorem skipSpace_blank (cs : List Char) : skipSpace (' ' :: cs) = skipSpace cs := rfl

/-- The parts of a text in brackets are not longer than the text, and not more than it is long. -/
theorem bounds_of_stacked {lines fuel : Nat} {left right : Char} {part : String}
    {parts : List String}
    (h : (stacked lines left right (part :: parts)).toList.length ≤ fuel) :
    parts.length < fuel ∧ ∀ found ∈ part :: parts, found.toList.length ≤ fuel := by
  obtain ⟨hcount, hparts⟩ := length_le_laid (lines + 1) (gap lines ++ [right])
    ((part :: parts).map String.toList)
  rw [toList_stacked_cons] at h
  simp only [List.length_cons, List.length_append, List.length_map] at h hcount
  refine ⟨by omega, fun found hfound => ?_⟩
  have := hparts _ (List.mem_map_of_mem hfound)
  omega

theorem laid_append (depth : Nat) (after rest : List Char) (parts : List (List Char)) :
    laid depth after parts ++ rest = laid depth (after ++ rest) parts := by
  fun_induction laid depth after parts with
  | case1 => rfl
  | case2 part => simp [laid]
  | case3 part more _ ih =>
    rw [List.append_assoc, ih]
    cases more with
    | nil => contradiction
    | cons => rfl

/-- A text in brackets and what follows it. -/
theorem toList_stacked_append (lines : Nat) (left right : Char) (part : String)
    (parts : List String) (rest : List Char) :
    (stacked lines left right (part :: parts)).toList ++ rest =
      left :: (gap (lines + 1) ++
        laid (lines + 1) (gap lines ++ right :: rest) ((part :: parts).map String.toList)) := by
  rw [toList_stacked_cons, List.cons_append, List.append_assoc, laid_append, List.append_assoc,
    List.singleton_append]

/-- A value that is read back wherever its text ends. -/
def ReadBack (fuel depth lines : Nat) (v : Value) : Prop := ∀ rest, Ends rest →
  readValue fuel depth ((spread lines v).toList ++ rest) = .ok (v.collapse, rest)

variable {fuel depth lines : Nat}

/-- The items of a list are read back one by one, if each of them is. -/
theorem readItems_laid {v : Value} {items : List Value} {n : Nat} (hn : items.length < n)
    (h : ∀ w ∈ v :: items, ReadBack fuel depth (lines + 1) w) (rest : List Char) :
    readItems (readValue fuel depth) n (laid (lines + 1) (gap lines ++ ']' :: rest)
      (((v :: items).map (spread (lines + 1))).map String.toList)) =
        .ok ((v :: items).map collapse, rest) := by
  induction items generalizing v n with
  | nil =>
    obtain ⟨n, rfl⟩ := Nat.exists_eq_succ_of_ne_zero (Nat.ne_of_gt hn)
    exact readItems_last (h v (List.mem_cons_self ..) _ (ends_gap lines (']' :: rest)))
      (skipSpace_gap ..)
  | cons next items ih =>
    obtain ⟨n, rfl⟩ := Nat.exists_eq_succ_of_ne_zero (Nat.ne_of_gt (Nat.lt_of_le_of_lt
      (Nat.zero_le _) hn))
    have hitems := ih (Nat.lt_of_succ_lt_succ hn) fun w hw => h w (List.mem_cons_of_mem _ hw)
    have hskip := (opens_of_readItems hitems).skipSpace_eq
    rw [← hskip, ← skipSpace_gap (lines + 1)] at hitems
    have hread := readItems_more (h v (List.mem_cons_self ..) _ (ends_comma _)) rfl hitems
    simpa only [List.map_cons, laid, List.append_assoc, List.cons_append] using hread

/-- The fields of a record are read back one by one, if their values are. -/
theorem readFields_laid {f : String × Value} {fields : Fields} {n : Nat}
    (hn : fields.length < n) (h : ∀ g ∈ f :: fields, ReadBack fuel depth (lines + 1) g.2)
    (rest : List Char) :
    readFields (readValue fuel depth) n (laid (lines + 1) (gap lines ++ '}' :: rest)
      (((f :: fields).map (fieldText (lines + 1))).map String.toList)) =
        .ok ((f :: fields).map fun g => (g.1, g.2.collapse), rest) := by
  induction fields generalizing f n with
  | nil =>
    obtain ⟨n, rfl⟩ := Nat.exists_eq_succ_of_ne_zero (Nat.ne_of_gt hn)
    have hitem := h f (List.mem_cons_self ..) _ (ends_gap lines ('}' :: rest))
    have hopens := (opens_of_readValue hitem).skipSpace_eq
    rw [← hopens, ← skipSpace_blank] at hitem
    have hread := readFields_last (n := n) (readText?_flatMap f.1 _) hitem (skipSpace_gap ..)
    rw [← toList_fieldText] at hread
    exact hread
  | cons next fields ih =>
    obtain ⟨n, rfl⟩ := Nat.exists_eq_succ_of_ne_zero (Nat.ne_of_gt (Nat.lt_of_le_of_lt
      (Nat.zero_le _) hn))
    have hfields := ih (Nat.lt_of_succ_lt_succ hn) fun w hw => h w (List.mem_cons_of_mem _ hw)
    have hskip := (opens_of_readFields hfields).skipSpace_eq
    rw [← hskip, ← skipSpace_gap (lines + 1)] at hfields
    have hitem := h f (List.mem_cons_self ..) _ (ends_comma (gap (lines + 1) ++
      laid (lines + 1) (gap lines ++ '}' :: rest)
        (((next :: fields).map (fieldText (lines + 1))).map String.toList)))
    have hopens := (opens_of_readValue hitem).skipSpace_eq
    rw [← hopens, ← skipSpace_blank] at hitem
    have hread := readFields_more (readText?_flatMap f.1 _) hitem rfl hfields
    rw [← toList_fieldText] at hread
    simpa only [List.map_cons, laid, List.append_assoc, List.cons_append] using hread

theorem readNumber_null (rest : List Char) :
    readNumber ("null".toList ++ rest) = .ok (.null, rest) := rfl

theorem readNumber_bool (b : Bool) (rest : List Char) :
    readNumber ((if b then "true" else "false").toList ++ rest) = .ok (.bool b, rest) := by
  cases b <;> rfl

theorem readBack_scalar {v : Value} (hlegible : v.Legible) (hlist : ∀ items, v ≠ .list items)
    (hrecord : ∀ fields, v ≠ .record fields) : ReadBack fuel (depth + 1) lines v := by
  intro rest hrest
  cases v with
  | null => exact readValue_of_readNumber (readNumber_null rest) fuel depth
  | bool b =>
    have htext : spread lines (.bool b) = if b then "true" else "false" := by
      cases b <;> rfl
    rw [htext]
    exact readValue_of_readNumber (readNumber_bool b rest) fuel depth
  | int n => exact readValue_of_readNumber (readNumber_toString hlegible hrest) fuel depth
  | float x =>
    exact readValue_of_readNumber (readNumber_writeFloat hlegible.1 hlegible.2 hrest) fuel depth
  | text s => exact readValue_writeText s fuel depth rest
  | list items => exact absurd rfl (hlist items)
  | record fields => exact absurd rfl (hrecord fields)

theorem toList_spread_nil (lines : Nat) :
    (spread lines (.list [])).toList = ['[', ']'] ∧
      (spread lines (.record [])).toList = ['{', '}'] :=
  ⟨toList_stacked_nil .., toList_stacked_nil ..⟩

/-- A value that is spread over lines is read back, if it is not nested too deeply. -/
theorem readBack {v : Value} (hlegible : v.Legible) (hlevels : v.levels ≤ depth)
    (hsize : (spread lines v).toList.length ≤ fuel) : ReadBack fuel depth lines v := by
  induction v using nested_induction generalizing depth lines with
  | null | bool | int | float | text =>
    obtain ⟨depth, rfl⟩ := Nat.exists_eq_succ_of_ne_zero
      (Nat.ne_of_gt (Nat.lt_of_lt_of_le (levels_pos _) hlevels))
    exact readBack_scalar hlegible (by simp) (by simp)
  | list items ih =>
    intro rest _
    obtain ⟨depth, rfl⟩ := Nat.exists_eq_succ_of_ne_zero
      (Nat.ne_of_gt (Nat.lt_of_lt_of_le (levels_pos _) hlevels))
    have hinner := itemLevels_le.mp (Nat.le_of_succ_le_succ hlevels)
    cases items with
    | nil =>
      rw [(toList_spread_nil lines).1]
      rfl
    | cons v items =>
      rw [spread_list, List.map_cons] at hsize
      obtain ⟨hcount, hparts⟩ := bounds_of_stacked hsize
      have hitems := readItems_laid (by simpa using hcount) (fun w hw => ih w hw
        (legible_list.mp hlegible w hw) (hinner w hw)
        (hparts _ (by simpa using List.mem_map_of_mem hw))) rest
      have hopens := opens_of_readItems hitems
      rw [spread_list, List.map_cons, toList_stacked_append, collapse_list]
      exact readValue_list ((skipSpace_gap ..).trans hopens.skipSpace_eq) hopens hitems
  | record fields ih =>
    intro rest _
    obtain ⟨depth, rfl⟩ := Nat.exists_eq_succ_of_ne_zero
      (Nat.ne_of_gt (Nat.lt_of_lt_of_le (levels_pos _) hlevels))
    have hinner := fieldLevels_le.mp (Nat.le_of_succ_le_succ hlevels)
    cases fields with
    | nil =>
      rw [(toList_spread_nil lines).2]
      rfl
    | cons f fields =>
      rw [spread_record, List.map_cons] at hsize
      obtain ⟨hcount, hparts⟩ := bounds_of_stacked hsize
      have hback : ∀ g ∈ f :: fields, ReadBack fuel depth (lines + 1) g.2 := by
        intro g hg
        refine ih g hg (legible_record.mp hlegible g hg) (hinner g hg) ?_
        rw [← List.map_cons] at hparts
        have hpart := hparts _ (List.mem_map_of_mem hg)
        rw [fieldText, String.toList_append, List.length_append] at hpart
        exact Nat.le_trans (Nat.le_add_left ..) hpart
      have hfields := readFields_laid (by simpa using hcount) hback rest
      obtain ⟨body, hbody⟩ := exists_quote_of_readFields hfields
      rw [spread_record, List.map_cons, toList_stacked_append, collapse_record]
      rw [hbody] at hfields
      refine readValue_record ?_ hfields
      rw [skipSpace_gap, ← List.map_cons, hbody]
      exact (opens_of_readFields hfields).skipSpace_eq

/-- The text that a value is spread into is read as the value. -/
theorem read_spread {v : Value} (hlegible : v.Legible) (hlevels : v.levels ≤ depthLimit) :
    read (spread 0 v ++ "\n") = .ok v.collapse := by
  have hnewline : "\n".toList = ['\n'] := rfl
  have hends : Ends ['\n'] := ends_gap 0 []
  unfold read
  dsimp only
  rw [String.toList_append, hnewline]
  generalize hfuel : ((spread 0 v).toList ++ ['\n']).length + 1 = fuel
  have hsize : (spread 0 v).toList.length ≤ fuel := by
    rw [← hfuel, List.length_append]
    omega
  have hread := readBack hlegible hlevels hsize ['\n'] hends
  rw [(opens_of_readValue hread).skipSpace_eq, hread]
  rfl

/-! What is read. -/

theorem sound_of_readUnsigned {negative : Bool} {cs rest : List Char} {v : Value}
    (h : readUnsigned negative cs = .ok (v, rest)) : v.Sound := by
  obtain ⟨whole, after, hwhole⟩ : ∃ whole after, readWhole? cs = some (whole, after) := by
    cases hwhole : readWhole? cs with
    | some found => exact ⟨found.1, found.2, rfl⟩
    | none =>
      unfold readUnsigned at h
      rw [hwhole] at h
      cases h
  have hdigits : AllDigits whole := by
    unfold readWhole? at hwhole
    split at hwhole
    · cases hwhole
      exact AllDigits.zeros 1
    · split at hwhole
      · rename_i c ds _ hc
        cases hwhole
        exact AllDigits.cons hc fun d hd => List.mem_takeWhile_imp hd
      · cases hwhole
    · cases hwhole
  cases hplaces : readFraction after with
  | mk places tail => ?_
  cases hpower : readPower tail with
  | mk power final => ?_
  rw [readUnsigned_eq hwhole hplaces hpower] at h
  split at h
  · split at h
    · cases h
    · rename_i hfew
      cases h
      change isTooLong _ = false
      have hsmall : digitsValue 10 whole < 10 ^ digitLimit :=
        Nat.lt_of_lt_of_le (digitsValue_lt hdigits)
          (Nat.pow_le_pow_right (by decide) (Nat.not_lt.mp hfew))
      rw [isTooLong_eq_false]
      split <;> simpa using hsmall
  · cases h
    trivial

theorem sound_of_readNumber {cs rest : List Char} {v : Value}
    (h : readNumber cs = .ok (v, rest)) : v.Sound := by
  unfold readNumber at h
  split at h
  · rename_i found hword
    cases h
    unfold readWord? at hword
    obtain ⟨⟨word, value⟩, hmem, hvalue⟩ := List.exists_of_findSome?_eq_some hword
    dsimp only at hvalue
    split at hvalue
    · cases hvalue
      simp only [List.mem_cons, Prod.mk.injEq, List.not_mem_nil, or_false] at hmem
      rcases hmem with ⟨-, rfl⟩ | ⟨-, rfl⟩ | ⟨-, rfl⟩ | ⟨-, rfl⟩ | ⟨-, rfl⟩ | ⟨-, rfl⟩ <;> trivial
    · cases hvalue
  · exact sound_of_readUnsigned h
  · exact sound_of_readUnsigned h

theorem sound_of_readItems {value : ValueReader} {n : Nat} {cs rest : List Char}
    {items : List Value} (hvalue : ∀ cs v rest, value cs = .ok (v, rest) → v.Sound)
    (h : readItems value n cs = .ok (items, rest)) : ∀ v ∈ items, v.Sound := by
  induction n generalizing cs items rest with
  | zero => cases h
  | succ n ih =>
    unfold readItems at h
    obtain ⟨⟨item, after⟩, hitem, h⟩ := bind_eq_ok_iff.mp h
    have hsound := hvalue _ _ _ hitem
    dsimp only at h
    split at h
    · obtain ⟨⟨more, last⟩, hmore, h⟩ := bind_eq_ok_iff.mp h
      cases h
      exact List.forall_mem_cons.mpr ⟨hsound, ih hmore⟩
    · cases h
      exact List.forall_mem_singleton.mpr hsound
    · cases h

theorem sound_of_readFields {value : ValueReader} {n : Nat} {cs rest : List Char}
    {fields : Fields} (hvalue : ∀ cs v rest, value cs = .ok (v, rest) → v.Sound)
    (h : readFields value n cs = .ok (fields, rest)) : ∀ f ∈ fields, f.2.Sound := by
  induction n generalizing cs fields rest with
  | zero => cases h
  | succ n ih =>
    unfold readFields at h
    split at h
    · obtain ⟨⟨key, afterKey⟩, -, h⟩ := bind_eq_ok_iff.mp h
      dsimp only at h
      split at h
      · obtain ⟨⟨item, after⟩, hitem, h⟩ := bind_eq_ok_iff.mp h
        have hsound := hvalue _ _ _ hitem
        dsimp only at h
        split at h
        · obtain ⟨⟨more, last⟩, hmore, h⟩ := bind_eq_ok_iff.mp h
          cases h
          exact List.forall_mem_cons.mpr ⟨hsound, ih hmore⟩
        · cases h
          exact List.forall_mem_singleton.mpr hsound
        · cases h
      · cases h
    · cases h

theorem sound_of_readValue {fuel : Nat} : ∀ {depth : Nat} (cs : List Char) (v : Value)
    (rest : List Char), readValue fuel depth cs = .ok (v, rest) → v.Sound := by
  intro depth
  induction depth with
  | zero => exact fun _ _ _ h => nomatch h
  | succ depth ih =>
    intro cs v rest h
    unfold readValue at h
    split at h
    · obtain ⟨⟨s, after⟩, -, h⟩ := bind_eq_ok_iff.mp h
      cases h
      trivial
    · split at h
      · cases h
        exact sound_list.mpr nofun
      · obtain ⟨⟨items, after⟩, hitems, h⟩ := bind_eq_ok_iff.mp h
        cases h
        exact sound_list.mpr (sound_of_readItems ih hitems)
    · split at h
      · cases h
        exact sound_record.mpr ⟨List.nodup_nil, nofun⟩
      · obtain ⟨⟨fields, after⟩, hfields, h⟩ := bind_eq_ok_iff.mp h
        cases h
        obtain ⟨hnodup, hmem⟩ := Keyed.ofList_spec fields
        exact sound_record.mpr
          ⟨hnodup, fun f hf => sound_of_readFields ih hfields f (hmem f hf)⟩
    · exact sound_of_readNumber h

/-- What is read from a text has integers of bounded size, and no key twice in a record. -/
theorem sound_of_read {s : String} {v : Value} (h : read s = .ok v) : v.Sound := by
  unfold read at h
  obtain ⟨⟨found, rest⟩, hfound, h⟩ := bind_eq_ok_iff.mp h
  dsimp only at h
  split at h
  · cases h
    exact sound_of_readValue _ _ _ hfound
  · cases h

end Runbook.Json
