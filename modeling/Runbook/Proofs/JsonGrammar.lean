import Runbook.Proofs.JsonValue

/-!
The grammar of JSON. What a text denotes follows from its shape alone; how many digits an integer
may have, and how deeply lists and records may lie in each other, are limits of a reader. The
grammar takes them as parameters. A text denotes one value at most, whatever the limits are, and
the reader reads what the grammar derives within the limits of the reader.
-/
namespace Runbook.Json

open Number Text Value

/-- Whether an integer may have so many digits, if there is a limit to them. -/
def allows (limit : Option Nat) (digits : Nat) : Bool := limit.all fun most => digits ≤ most

/-- A number without a sign at the front of a text, and what follows it. -/
def unsigned? (limit : Option Nat) (negative : Bool) (cs : List Char) :
    Option (Value × List Char) := do
  let (whole, afterWhole) ← readWhole? cs
  let (places, afterPlaces) := readFraction afterWhole
  let (power, rest) := readPower afterPlaces
  if places.isEmpty && power.isNone then
    guard (allows limit whole.length)
    let n : Int := digitsValue 10 whole
    pure (.int (if negative then -n else n), rest)
  else
    let exponent := power.getD 0 - places.length
    pure (.float (ofDigits negative (whole ++ places) exponent), rest)

/-- A number at the front of a text, and what follows it. -/
def signed? (limit : Option Nat) : List Char → Option (Value × List Char)
  | '-' :: rest => unsigned? limit true rest
  | cs => unsigned? limit false cs

/-- A word or a number at the front of a text, and what follows it. -/
def scalar? (limit : Option Nat) (cs : List Char) : Option (Value × List Char) :=
  (readWord? cs).or (signed? limit cs)

/-- What the rules of the grammar are about: a value, a key with its value, and what stands in the
brackets of a list or a record, up to the bracket that closes it. -/
inductive Part where
  | value (v : Value)
  | items (vs : List Value)
  | field (f : String × Value)
  | fields (fs : Fields)

/-- A text begins with a part, and goes on with other characters after it. Lists and records lie in
each other no more than a number of times. -/
inductive Denotes (limit : Option Nat) : Nat → List Char → Part → List Char → Prop
  | text {depth : Nat} {cs rest : List Char} {s : String} (h : readText? cs = some (s, rest)) :
      Denotes limit (depth + 1) ('"' :: cs) (.value (.text s)) rest
  | scalar {depth : Nat} {cs rest : List Char} {v : Value} (h : scalar? limit cs = some (v, rest)) :
      Denotes limit (depth + 1) cs (.value v) rest
  | noItems {depth : Nat} {cs rest : List Char} (h : skipSpace cs = ']' :: rest) :
      Denotes limit (depth + 1) ('[' :: cs) (.value (.list [])) rest
  | list {depth : Nat} {cs rest : List Char} {vs : List Value}
      (h : Denotes limit depth (skipSpace cs) (.items vs) rest) :
      Denotes limit (depth + 1) ('[' :: cs) (.value (.list vs)) rest
  | noFields {depth : Nat} {cs rest : List Char} (h : skipSpace cs = '}' :: rest) :
      Denotes limit (depth + 1) ('{' :: cs) (.value (.record [])) rest
  | record {depth : Nat} {cs rest : List Char} {fs : Fields}
      (h : Denotes limit depth (skipSpace cs) (.fields fs) rest) :
      Denotes limit (depth + 1) ('{' :: cs) (.value (.record (Keyed.ofList fs))) rest
  | lastItem {depth : Nat} {cs after rest : List Char} {v : Value}
      (h : Denotes limit depth cs (.value v) after) (hend : skipSpace after = ']' :: rest) :
      Denotes limit depth cs (.items [v]) rest
  | moreItems {depth : Nat} {cs after next rest : List Char} {v : Value} {vs : List Value}
      (h : Denotes limit depth cs (.value v) after) (hcomma : skipSpace after = ',' :: next)
      (hmore : Denotes limit depth (skipSpace next) (.items vs) rest) :
      Denotes limit depth cs (.items (v :: vs)) rest
  | field {depth : Nat} {cs afterKey before rest : List Char} {key : String} {v : Value}
      (hkey : readText? cs = some (key, afterKey)) (hcolon : skipSpace afterKey = ':' :: before)
      (h : Denotes limit depth (skipSpace before) (.value v) rest) :
      Denotes limit depth ('"' :: cs) (.field (key, v)) rest
  | lastField {depth : Nat} {cs after rest : List Char} {f : String × Value}
      (h : Denotes limit depth cs (.field f) after) (hend : skipSpace after = '}' :: rest) :
      Denotes limit depth cs (.fields [f]) rest
  | moreFields {depth : Nat} {cs after next rest : List Char} {f : String × Value} {fs : Fields}
      (h : Denotes limit depth cs (.field f) after) (hcomma : skipSpace after = ',' :: next)
      (hmore : Denotes limit depth (skipSpace next) (.fields fs) rest) :
      Denotes limit depth cs (.fields (f :: fs)) rest

/-- A text means a value: it denotes it without any limits, and nothing but white space stands
around it. -/
def Means (s : String) (v : Value) : Prop :=
  ∃ depth rest, Denotes none depth (skipSpace s.toList) (.value v) rest ∧ skipSpace rest = []

/-! Numbers. -/

section Scalars

variable {limit limit' : Option Nat} {negative : Bool} {cs : List Char}
  {found found' : Value × List Char}

theorem unsigned?_eq {whole places after tail rest : List Char} {power : Option Int}
    (hwhole : readWhole? cs = some (whole, after)) (hplaces : readFraction after = (places, tail))
    (hpower : readPower tail = (power, rest)) (limit : Option Nat) (negative : Bool) :
    unsigned? limit negative cs =
      if places.isEmpty && power.isNone then
        if allows limit whole.length then
          some (.int (if negative then -(digitsValue 10 whole : Int) else digitsValue 10 whole),
            rest)
        else none
      else
        some (.float (ofDigits negative (whole ++ places) (power.getD 0 - places.length)), rest) := by
  unfold unsigned?
  rw [hwhole]
  simp only [Option.bind_eq_bind, Option.bind_some, hplaces, hpower]
  split
  · by_cases h : allows limit whole.length = true
    · simp only [guard, if_pos h]
      rfl
    · simp only [guard, if_neg h]
      rfl
  · rfl

/-- The parts of a number, where a text begins with one. -/
theorem parts_of_readWhole? (cs : List Char) : readWhole? cs = none ∨
    ∃ whole after places tail power rest, readWhole? cs = some (whole, after) ∧
      readFraction after = (places, tail) ∧ readPower tail = (power, rest) := by
  cases readWhole? cs with
  | none => exact Or.inl rfl
  | some w => exact Or.inr ⟨_, _, _, _, _, _, rfl, rfl, rfl⟩

/-- The reader reads the numbers that its own limit allows. -/
theorem readUnsigned_eq_ok_iff :
    readUnsigned negative cs = .ok found ↔ unsigned? (some digitLimit) negative cs = some found := by
  rcases parts_of_readWhole? cs with hnone |
    ⟨whole, after, places, tail, power, rest, hwhole, hplaces, hpower⟩
  · unfold readUnsigned unsigned?
    rw [hnone]
    exact ⟨nofun, nofun⟩
  · rw [readUnsigned_eq hwhole hplaces hpower, unsigned?_eq hwhole hplaces hpower]
    by_cases hplain : (places.isEmpty && power.isNone) = true
    · rw [if_pos hplain, if_pos hplain]
      have hallows : allows (some digitLimit) whole.length = true ↔ whole.length ≤ digitLimit :=
        decide_eq_true_iff
      by_cases hfew : whole.length ≤ digitLimit
      · rw [if_neg (Nat.not_lt.mpr hfew), if_pos (hallows.mpr hfew), Except.ok.injEq,
          Option.some.injEq]
      · rw [if_pos (Nat.lt_of_not_le hfew), if_neg (mt hallows.mp hfew)]
        exact ⟨nofun, nofun⟩
    · rw [if_neg hplain, if_neg hplain, Except.ok.injEq, Option.some.injEq]

theorem readNumber_eq_ok_iff :
    readNumber cs = .ok found ↔ scalar? (some digitLimit) cs = some found := by
  unfold readNumber scalar?
  split
  · rename_i hword
    rw [hword, Option.some_or, Except.ok.injEq, Option.some.injEq]
  · rename_i hword
    rw [hword, Option.none_or]
    exact readUnsigned_eq_ok_iff
  · rename_i hminus hword
    rw [hword, Option.none_or, signed?]
    · exact readUnsigned_eq_ok_iff
    · exact fun rest heq => hminus rest heq

theorem unsigned?_none (h : unsigned? limit negative cs = some found) :
    unsigned? none negative cs = some found := by
  rcases parts_of_readWhole? cs with hnone |
    ⟨whole, after, places, tail, power, rest, hwhole, hplaces, hpower⟩
  · unfold unsigned? at h
    rw [hnone] at h
    cases h
  · rw [unsigned?_eq hwhole hplaces hpower] at h ⊢
    by_cases hplain : (places.isEmpty && power.isNone) = true
    · rw [if_pos hplain] at h ⊢
      split at h
      · rw [if_pos (show allows none whole.length = true from rfl)]
        exact h
      · cases h
    · rw [if_neg hplain] at h ⊢
      exact h

/-- What is read within a limit is read without one. -/
theorem scalar?_none (h : scalar? limit cs = some found) : scalar? none cs = some found := by
  unfold scalar? at h ⊢
  cases hword : readWord? cs with
  | some word =>
    rw [hword] at h
    exact h
  | none =>
    rw [hword, Option.none_or] at h
    rw [Option.none_or]
    unfold signed? at h ⊢
    split at h
    · exact unsigned?_none h
    · exact unsigned?_none h

theorem scalar?_unique (h : scalar? limit cs = some found) (h' : scalar? limit' cs = some found') :
    found' = found := by
  have hsame := (scalar?_none h').symm.trans (scalar?_none h)
  exact Option.some.inj hsame

/-- A number begins with a digit, a sign or the first letter of a word. -/
theorem exists_head_of_scalar? (h : scalar? limit cs = some found) : ∃ c rest, cs = c :: rest ∧
    (isAsciiDigit c = true ∨ c ∈ ['n', 't', 'f', 'N', 'I', '-']) := by
  cases cs with
  | nil => cases h
  | cons c rest =>
    refine ⟨c, rest, rfl, ?_⟩
    by_contra hc
    obtain ⟨hdigit, hletter⟩ := not_or.mp hc
    simp only [List.mem_cons, List.not_mem_nil, or_false, not_or] at hletter
    have hwhole : readWhole? (c :: rest) = none := by
      rw [readWhole?]
      · rw [if_neg hdigit]
      · exact fun heq => hdigit (heq ▸ rfl)
    have hnone : unsigned? limit false (c :: rest) = none := by
      unfold unsigned?
      rw [hwhole]
      rfl
    unfold scalar? at h
    rw [(readWord?_of_ne hletter rest).1, Option.none_or, signed?, hnone] at h
    · cases h
    · exact fun more heq => hletter.2.2.2.2.2 (List.cons.inj heq).1

theorem scalar?_eq_none {c : Char} (hdigit : isAsciiDigit c = false)
    (hletter : c ∉ ['n', 't', 'f', 'N', 'I', '-']) (cs : List Char) :
    scalar? limit (c :: cs) = none := by
  rw [Option.eq_none_iff_forall_ne_some]
  intro found h
  obtain ⟨d, rest, heq, hd⟩ := exists_head_of_scalar? h
  obtain ⟨rfl, -⟩ := List.cons.inj heq
  rcases hd with hd | hd
  · rw [hdigit] at hd
    cases hd
  · exact hletter hd

end Scalars

/-! The value that a text denotes. -/

namespace Denotes

variable {limit : Option Nat} {depth : Nat} {cs rest : List Char} {v : Value}

theorem opens (h : Denotes limit depth cs (.value v) rest) : Opens cs := by
  cases h with
  | text | noItems | list | noFields | record =>
    exact ⟨_, _, rfl, rfl, by decide, by decide⟩
  | scalar h =>
    obtain ⟨c, rest, rfl, hc⟩ := exists_head_of_scalar? h
    have hne : ∀ d, isAsciiDigit d = false → d ∉ ['n', 't', 'f', 'N', 'I', '-'] → c ≠ d := by
      rintro d hdigit hletter rfl
      rw [scalar?_eq_none hdigit hletter] at h
      cases h
    refine ⟨c, rest, rfl, ?_, hne ']' rfl (by decide), hne '}' rfl (by decide)⟩
    simp [isSpace, hne ' ' rfl (by decide), hne '\t' rfl (by decide), hne '\n' rfl (by decide),
      hne '\r' rfl (by decide)]

theorem opens_items {vs : List Value} (h : Denotes limit depth cs (.items vs) rest) : Opens cs := by
  cases h with
  | lastItem h => exact h.opens
  | moreItems h => exact h.opens

theorem ne_close_of_items {vs : List Value} (h : Denotes limit depth cs (.items vs) rest)
    (tail : List Char) : cs ≠ ']' :: tail := by
  rintro rfl
  obtain ⟨c, _, heq, -, hc, -⟩ := h.opens_items
  exact hc (List.cons.inj heq).1.symm

theorem exists_quote {fs : Fields} (h : Denotes limit depth cs (.fields fs) rest) :
    ∃ body, cs = '"' :: body := by
  cases h with
  | lastField h =>
    cases h
    exact ⟨_, rfl⟩
  | moreFields h =>
    cases h
    exact ⟨_, rfl⟩

theorem ne_close_of_fields {fs : Fields} (h : Denotes limit depth cs (.fields fs) rest)
    (tail : List Char) : cs ≠ '}' :: tail := by
  rintro rfl
  obtain ⟨_, heq⟩ := h.exists_quote
  cases heq

/-! What an opening quote, bracket or brace leads to. -/

theorem of_quote (h : Denotes limit depth ('"' :: cs) (.value v) rest) :
    ∃ s, v = .text s ∧ readText? cs = some (s, rest) := by
  cases h with
  | text h => exact ⟨_, rfl, h⟩
  | scalar h =>
    rw [scalar?_eq_none rfl (by decide)] at h
    cases h

theorem of_bracket (h : Denotes limit depth ('[' :: cs) (.value v) rest) :
    (v = .list [] ∧ skipSpace cs = ']' :: rest) ∨
      ∃ inner vs, v = .list vs ∧ Denotes limit inner (skipSpace cs) (.items vs) rest := by
  cases h with
  | noItems h => exact Or.inl ⟨rfl, h⟩
  | list h => exact Or.inr ⟨_, _, rfl, h⟩
  | scalar h =>
    rw [scalar?_eq_none rfl (by decide)] at h
    cases h

theorem of_brace (h : Denotes limit depth ('{' :: cs) (.value v) rest) :
    (v = .record [] ∧ skipSpace cs = '}' :: rest) ∨ ∃ inner fs,
      v = .record (Keyed.ofList fs) ∧ Denotes limit inner (skipSpace cs) (.fields fs) rest := by
  cases h with
  | noFields h => exact Or.inl ⟨rfl, h⟩
  | record h => exact Or.inr ⟨_, _, rfl, h⟩
  | scalar h =>
    rw [scalar?_eq_none rfl (by decide)] at h
    cases h

/-- No other value and no other rest are derived for a text, within whatever limits. -/
def Settled (cs : List Char) (rest : List Char) : Part → Prop
  | .value v => ∀ limit depth w rest',
      Denotes limit depth cs (.value w) rest' → w = v ∧ rest' = rest
  | .items vs => ∀ limit depth ws rest',
      Denotes limit depth cs (.items ws) rest' → ws = vs ∧ rest' = rest
  | .field f => ∀ limit depth g rest',
      Denotes limit depth cs (.field g) rest' → g = f ∧ rest' = rest
  | .fields fs => ∀ limit depth gs rest',
      Denotes limit depth cs (.fields gs) rest' → gs = fs ∧ rest' = rest

theorem settled {p : Part} (h : Denotes limit depth cs p rest) : Settled cs rest p := by
  induction h with
  | text h =>
    intro limit depth w rest' h'
    obtain ⟨_, rfl, htext⟩ := h'.of_quote
    rw [h] at htext
    cases htext
    exact ⟨rfl, rfl⟩
  | scalar h =>
    intro limit depth w rest' h'
    cases h' with
    | scalar h' =>
      have hsame := scalar?_unique h h'
      exact ⟨congrArg Prod.fst hsame, congrArg Prod.snd hsame⟩
    | text | noItems | list | noFields | record =>
      rw [scalar?_eq_none rfl (by decide)] at h
      cases h
  | noItems h =>
    intro limit depth w rest' h'
    rcases h'.of_bracket with ⟨rfl, hend⟩ | ⟨_, _, rfl, hitems⟩
    · rw [h] at hend
      cases hend
      exact ⟨rfl, rfl⟩
    · exact absurd h (hitems.ne_close_of_items _)
  | list h ih =>
    intro limit depth w rest' h'
    rcases h'.of_bracket with ⟨rfl, hend⟩ | ⟨_, _, rfl, hitems⟩
    · exact absurd hend (h.ne_close_of_items _)
    · obtain ⟨rfl, rfl⟩ := ih _ _ _ _ hitems
      exact ⟨rfl, rfl⟩
  | noFields h =>
    intro limit depth w rest' h'
    rcases h'.of_brace with ⟨rfl, hend⟩ | ⟨_, _, rfl, hfields⟩
    · rw [h] at hend
      cases hend
      exact ⟨rfl, rfl⟩
    · exact absurd h (hfields.ne_close_of_fields _)
  | record h ih =>
    intro limit depth w rest' h'
    rcases h'.of_brace with ⟨rfl, hend⟩ | ⟨_, _, rfl, hfields⟩
    · exact absurd hend (h.ne_close_of_fields _)
    · obtain ⟨rfl, rfl⟩ := ih _ _ _ _ hfields
      exact ⟨rfl, rfl⟩
  | lastItem h hend ih =>
    intro limit depth ws rest' h'
    cases h' with
    | lastItem h' hend' =>
      obtain ⟨rfl, rfl⟩ := ih _ _ _ _ h'
      rw [hend] at hend'
      cases hend'
      exact ⟨rfl, rfl⟩
    | moreItems h' hcomma =>
      obtain ⟨-, rfl⟩ := ih _ _ _ _ h'
      rw [hend] at hcomma
      cases hcomma
  | moreItems h hcomma hmore ih ihmore =>
    intro limit depth ws rest' h'
    cases h' with
    | lastItem h' hend =>
      obtain ⟨-, rfl⟩ := ih _ _ _ _ h'
      rw [hcomma] at hend
      cases hend
    | moreItems h' hcomma' hmore' =>
      obtain ⟨rfl, rfl⟩ := ih _ _ _ _ h'
      rw [hcomma] at hcomma'
      cases hcomma'
      obtain ⟨rfl, rfl⟩ := ihmore _ _ _ _ hmore'
      exact ⟨rfl, rfl⟩
  | field hkey hcolon h ih =>
    intro limit depth g rest' h'
    cases h' with
    | field hkey' hcolon' h' =>
      rw [hkey] at hkey'
      cases hkey'
      rw [hcolon] at hcolon'
      cases hcolon'
      obtain ⟨rfl, rfl⟩ := ih _ _ _ _ h'
      exact ⟨rfl, rfl⟩
  | lastField h hend ih =>
    intro limit depth gs rest' h'
    cases h' with
    | lastField h' hend' =>
      obtain ⟨rfl, rfl⟩ := ih _ _ _ _ h'
      rw [hend] at hend'
      cases hend'
      exact ⟨rfl, rfl⟩
    | moreFields h' hcomma =>
      obtain ⟨-, rfl⟩ := ih _ _ _ _ h'
      rw [hend] at hcomma
      cases hcomma
  | moreFields h hcomma hmore ih ihmore =>
    intro limit depth gs rest' h'
    cases h' with
    | lastField h' hend =>
      obtain ⟨-, rfl⟩ := ih _ _ _ _ h'
      rw [hcomma] at hend
      cases hend
    | moreFields h' hcomma' hmore' =>
      obtain ⟨rfl, rfl⟩ := ih _ _ _ _ h'
      rw [hcomma] at hcomma'
      cases hcomma'
      obtain ⟨rfl, rfl⟩ := ihmore _ _ _ _ hmore'
      exact ⟨rfl, rfl⟩

end Denotes

/-- A text means one value at most. -/
theorem Means.unique {s : String} {v w : Value} (h : Means s v) (h' : Means s w) : w = v := by
  obtain ⟨_, rest, hv, -⟩ := h
  obtain ⟨_, rest', hw, -⟩ := h'
  exact (hv.settled _ _ _ _ hw).1

/-! What the reader reads. -/

section Reading

variable {fuel depth n : Nat} {cs rest : List Char}

theorem denotes_of_readItems {vs : List Value}
    (hvalue : ∀ cs v rest, readValue fuel depth cs = .ok (v, rest) →
      Denotes (some digitLimit) depth cs (.value v) rest)
    (h : readItems (readValue fuel depth) n cs = .ok (vs, rest)) :
    Denotes (some digitLimit) depth cs (.items vs) rest := by
  induction n generalizing cs vs with
  | zero => cases h
  | succ n ih =>
    unfold readItems at h
    obtain ⟨⟨item, after⟩, hitem, h⟩ := bind_eq_ok_iff.mp h
    dsimp only at h
    split at h
    · rename_i hcomma
      obtain ⟨⟨more, last⟩, hmore, h⟩ := bind_eq_ok_iff.mp h
      cases h
      exact .moreItems (hvalue _ _ _ hitem) hcomma (ih hmore)
    · rename_i hend
      cases h
      exact .lastItem (hvalue _ _ _ hitem) hend
    · cases h

theorem orMalformed_eq_ok_iff {α : Type} {x : Option α} {a : α} :
    orMalformed x = .ok a ↔ x = some a := by
  cases x with
  | none => exact ⟨nofun, nofun⟩
  | some b => exact ⟨fun h => congrArg some (Except.ok.inj h), fun h => by cases h; rfl⟩

theorem denotes_of_readFields {fs : Fields}
    (hvalue : ∀ cs v rest, readValue fuel depth cs = .ok (v, rest) →
      Denotes (some digitLimit) depth cs (.value v) rest)
    (h : readFields (readValue fuel depth) n cs = .ok (fs, rest)) :
    Denotes (some digitLimit) depth cs (.fields fs) rest := by
  induction n generalizing cs fs with
  | zero => cases h
  | succ n ih =>
    unfold readFields at h
    split at h
    · obtain ⟨⟨key, afterKey⟩, hkey, h⟩ := bind_eq_ok_iff.mp h
      rw [orMalformed_eq_ok_iff] at hkey
      dsimp only at h
      split at h
      · rename_i hcolon
        obtain ⟨⟨item, after⟩, hitem, h⟩ := bind_eq_ok_iff.mp h
        have hfield := Denotes.field hkey hcolon (hvalue _ _ _ hitem)
        dsimp only at h
        split at h
        · rename_i hcomma
          obtain ⟨⟨more, last⟩, hmore, h⟩ := bind_eq_ok_iff.mp h
          cases h
          exact .moreFields hfield hcomma (ih hmore)
        · rename_i hend
          cases h
          exact .lastField hfield hend
        · cases h
      · cases h
    · cases h

theorem denotes_of_readValue : ∀ {depth : Nat} (cs : List Char) (v : Value) (rest : List Char),
    readValue fuel depth cs = .ok (v, rest) →
      Denotes (some digitLimit) depth cs (.value v) rest := by
  intro depth
  induction depth with
  | zero => exact fun _ _ _ h => nomatch h
  | succ depth ih =>
    intro cs v rest h
    unfold readValue at h
    split at h
    · obtain ⟨⟨s, after⟩, htext, h⟩ := bind_eq_ok_iff.mp h
      cases h
      exact .text (orMalformed_eq_ok_iff.mp htext)
    · split at h
      · rename_i hend
        cases h
        exact .noItems hend
      · obtain ⟨⟨items, after⟩, hitems, h⟩ := bind_eq_ok_iff.mp h
        cases h
        exact .list (denotes_of_readItems ih hitems)
    · split at h
      · rename_i hend
        cases h
        exact .noFields hend
      · obtain ⟨⟨fields, after⟩, hfields, h⟩ := bind_eq_ok_iff.mp h
        cases h
        exact .record (denotes_of_readFields ih hfields)
    · exact .scalar (readNumber_eq_ok_iff.mp h)

end Reading

/-! Every part takes some of a text. -/

section Lengths

variable {limit : Option Nat} {depth : Nat} {cs rest : List Char}

theorem length_skipSpace_le (cs : List Char) : (skipSpace cs).length ≤ cs.length :=
  (List.dropWhile_suffix _).length_le

theorem length_lt_of_readUnits {units : List Nat} (h : readUnits cs = some (units, rest)) :
    rest.length < cs.length := by
  fun_induction readUnits cs generalizing units rest with
  | case1 | case4 | case6 | case7 | case9 => cases h
  | case2 cs =>
    cases h
    exact Nat.lt_succ_self _
  | case3 a b c d cs n more after hmore hhex ih =>
    cases h
    have := ih hmore
    simp only [List.length_cons]
    omega
  | case5 c cs _ n more after hmore hescaped ih =>
    cases h
    have := ih hmore
    simp only [List.length_cons]
    omega
  | case8 c cs _ _ _ _ more after hmore ih =>
    cases h
    exact Nat.lt_succ_of_lt (ih hmore)

theorem length_lt_of_readText? {s : String} (h : readText? cs = some (s, rest)) :
    rest.length < cs.length := by
  unfold readText? at h
  obtain ⟨⟨units, after⟩, hunits, heq⟩ := Option.map_eq_some_iff.mp h
  cases heq
  exact length_lt_of_readUnits hunits

theorem length_lt_of_readWhole? {whole : List Char} (h : readWhole? cs = some (whole, rest)) :
    rest.length < cs.length := by
  unfold readWhole? at h
  split at h
  · cases h
    exact Nat.lt_succ_self _
  · split at h
    · cases h
      exact Nat.lt_succ_of_le (List.length_dropWhile_le _ _)
    · cases h
  · cases h

theorem length_readFraction_le (cs : List Char) : (readFraction cs).2.length ≤ cs.length := by
  unfold readFraction
  split
  · split
    · exact Nat.le_trans (List.length_dropWhile_le _ _) (by simp only [List.length_cons]; omega)
    · exact Nat.le_refl _
  · exact Nat.le_refl _

theorem length_takeSign_le (cs : List Char) : (takeSign cs).2.length ≤ cs.length := by
  unfold takeSign
  split
  · exact Nat.le_succ _
  · exact Nat.le_succ _
  · exact Nat.le_refl _

theorem length_readPower_le (cs : List Char) : (readPower cs).2.length ≤ cs.length := by
  unfold readPower
  split
  · rename_i c ds
    split
    · dsimp only
      split
      · exact Nat.le_refl _
      · have hdigits := List.length_dropWhile_le isAsciiDigit (takeSign ds).2
        have hsign := length_takeSign_le ds
        simp only [List.length_cons]
        omega
    · exact Nat.le_refl _
  · exact Nat.le_refl _

theorem length_lt_of_unsigned? {negative : Bool} {v : Value}
    (h : unsigned? limit negative cs = some (v, rest)) : rest.length < cs.length := by
  rcases parts_of_readWhole? cs with hnone |
    ⟨whole, after, places, tail, power, last, hwhole, hplaces, hpower⟩
  · unfold unsigned? at h
    rw [hnone] at h
    cases h
  · have hlength := length_lt_of_readWhole? hwhole
    have hfraction := length_readFraction_le after
    have hexponent := length_readPower_le tail
    rw [hplaces] at hfraction
    rw [hpower] at hexponent
    have hlast : rest = last := by
      rw [unsigned?_eq hwhole hplaces hpower] at h
      split at h
      · split at h
        · cases h
          rfl
        · cases h
      · cases h
        rfl
    rw [hlast]
    dsimp only at hfraction hexponent
    omega

theorem length_lt_of_readWord? {v : Value} (h : readWord? cs = some (v, rest)) :
    rest.length < cs.length := by
  unfold readWord? at h
  obtain ⟨⟨word, value⟩, hmem, hvalue⟩ := List.exists_of_findSome?_eq_some h
  dsimp only at hvalue
  split at hvalue
  · rename_i hprefix
    cases hvalue
    have hword : 0 < word.toList.length := by
      simp only [List.mem_cons, Prod.mk.injEq, List.not_mem_nil, or_false] at hmem
      rcases hmem with ⟨rfl, -⟩ | ⟨rfl, -⟩ | ⟨rfl, -⟩ | ⟨rfl, -⟩ | ⟨rfl, -⟩ | ⟨rfl, -⟩ <;> decide
    have hlength := (List.isPrefixOf_iff_prefix.mp hprefix).length_le
    rw [List.length_drop, ← String.length_toList]
    omega
  · cases hvalue

theorem length_lt_of_scalar? {v : Value} (h : scalar? limit cs = some (v, rest)) :
    rest.length < cs.length := by
  unfold scalar? at h
  cases hword : readWord? cs with
  | some found =>
    rw [hword, Option.some_or] at h
    cases h
    exact length_lt_of_readWord? hword
  | none =>
    rw [hword, Option.none_or] at h
    unfold signed? at h
    split at h
    · exact Nat.lt_succ_of_lt (length_lt_of_unsigned? h)
    · exact length_lt_of_unsigned? h

theorem length_lt_of_skipSpace {c : Char} (h : skipSpace cs = c :: rest) :
    rest.length < cs.length := by
  have := length_skipSpace_le cs
  rw [h, List.length_cons] at this
  exact this

theorem Denotes.length_lt {p : Part} (h : Denotes limit depth cs p rest) :
    rest.length < cs.length := by
  induction h with
  | text h => exact Nat.lt_succ_of_lt (length_lt_of_readText? h)
  | scalar h => exact length_lt_of_scalar? h
  | noItems h | noFields h => exact Nat.lt_succ_of_lt (length_lt_of_skipSpace h)
  | @list _ cs _ _ h ih | @record _ cs _ _ h ih =>
    exact Nat.lt_succ_of_lt (Nat.lt_of_lt_of_le ih (length_skipSpace_le cs))
  | lastItem h hend ih | lastField h hend ih =>
    exact Nat.lt_trans (length_lt_of_skipSpace hend) ih
  | @moreItems _ _ _ next _ _ _ h hcomma hmore ih ihmore
  | @moreFields _ _ _ next _ _ _ h hcomma hmore ih ihmore =>
    have hnext := length_skipSpace_le next
    have hafter := length_lt_of_skipSpace hcomma
    omega
  | @field _ _ _ before _ _ _ hkey hcolon h ih =>
    have hafter := length_lt_of_readText? hkey
    have hbefore := length_lt_of_skipSpace hcolon
    have hskip := length_skipSpace_le before
    simp only [List.length_cons]
    omega

end Lengths

/-! Completeness of the reader. -/

section Complete

variable {limit : Option Nat} {fuel depth : Nat} {cs rest : List Char}

/-- The reader finds a part at the front of a text. -/
def Found (fuel depth : Nat) (cs rest : List Char) : Part → Prop
  | .value v => readValue fuel depth cs = .ok (v, rest)
  | .items vs => ∀ n, cs.length ≤ n → readItems (readValue fuel depth) n cs = .ok (vs, rest)
  | .field f => ∃ body afterKey before, cs = '"' :: body ∧
      readText? body = some (f.1, afterKey) ∧ skipSpace afterKey = ':' :: before ∧
      readValue fuel depth (skipSpace before) = .ok (f.2, rest)
  | .fields fs => ∀ n, cs.length ≤ n → readFields (readValue fuel depth) n cs = .ok (fs, rest)

/-- Fields are read one after another; `more` is what comes of the rest of them. -/
theorem readFields_of_found {n : Nat} {after : List Char} {f : String × Value}
    (h : Found fuel depth cs after (.field f)) :
    readFields (readValue fuel depth) (n + 1) cs =
      match skipSpace after with
      | ',' :: next => do
        let (fields, last) ← readFields (readValue fuel depth) n (skipSpace next)
        pure (f :: fields, last)
      | '}' :: last => pure ([f], last)
      | _ => throw .malformed := by
  obtain ⟨body, afterKey, before, rfl, hkey, hcolon, hvalue⟩ := h
  rw [readFields, hkey]
  change Except.bind (.ok (f.1, afterKey)) _ = _
  simp only [Except.bind, hcolon, hvalue]
  rfl

theorem Denotes.found {p : Part} (h : Denotes (some digitLimit) depth cs p rest)
    (hfuel : cs.length ≤ fuel) : Found fuel depth cs rest p := by
  induction h with
  | text h =>
    change readValue _ _ _ = _
    rw [readValue, h]
    rfl
  | @scalar depth cs _ _ h =>
    exact readValue_of_readNumber (readNumber_eq_ok_iff.mpr h) fuel depth
  | noItems h =>
    change readValue _ _ _ = _
    simp only [readValue, h]
  | @list _ cs _ _ h ih =>
    have hskip := length_skipSpace_le cs
    rw [List.length_cons] at hfuel
    exact readValue_list rfl h.opens_items (ih (by omega) fuel (by omega))
  | noFields h =>
    change readValue _ _ _ = _
    simp only [readValue, h]
  | @record _ cs _ _ h ih =>
    have hskip := length_skipSpace_le cs
    rw [List.length_cons] at hfuel
    obtain ⟨body, hbody⟩ := h.exists_quote
    have hfields := ih (by omega) fuel (by omega)
    rw [hbody] at hfields
    exact readValue_record hbody hfields
  | lastItem h hend ih =>
    intro n hn
    have hlength := h.length_lt
    obtain ⟨n, rfl⟩ := Nat.exists_eq_succ_of_ne_zero (show n ≠ 0 by omega)
    exact readItems_last (ih hfuel) hend
  | @moreItems _ _ _ next _ _ _ h hcomma hmore ih ihmore =>
    intro n hn
    have hlength := h.length_lt
    have hafter := length_lt_of_skipSpace hcomma
    have hnext := length_skipSpace_le next
    obtain ⟨n, rfl⟩ := Nat.exists_eq_succ_of_ne_zero (show n ≠ 0 by omega)
    exact readItems_more (ih hfuel) hcomma (ihmore (by omega) n (by omega))
  | @field _ _ _ before _ _ _ hkey hcolon h ih =>
    have hafter := length_lt_of_readText? hkey
    have hbefore := length_lt_of_skipSpace hcolon
    have hskip := length_skipSpace_le before
    rw [List.length_cons] at hfuel
    exact ⟨_, _, _, rfl, hkey, hcolon, ih (by omega)⟩
  | lastField h hend ih =>
    intro n hn
    have hlength := h.length_lt
    obtain ⟨n, rfl⟩ := Nat.exists_eq_succ_of_ne_zero (show n ≠ 0 by omega)
    rw [readFields_of_found (ih hfuel), hend]
    rfl
  | @moreFields _ _ _ next _ _ _ h hcomma hmore ih ihmore =>
    intro n hn
    have hlength := h.length_lt
    have hafter := length_lt_of_skipSpace hcomma
    have hnext := length_skipSpace_le next
    obtain ⟨n, rfl⟩ := Nat.exists_eq_succ_of_ne_zero (show n ≠ 0 by omega)
    have hrest := ihmore (by omega) n (by omega)
    rw [readFields_of_found (ih hfuel), hcomma]
    simp only [hrest]
    rfl

/-- What is derived within a limit is derived without one. -/
theorem Denotes.unlimited {p : Part} (h : Denotes limit depth cs p rest) :
    Denotes none depth cs p rest := by
  induction h with
  | text h => exact .text h
  | scalar h => exact .scalar (scalar?_none h)
  | noItems h => exact .noItems h
  | list _ ih => exact .list ih
  | noFields h => exact .noFields h
  | record _ ih => exact .record ih
  | lastItem _ hend ih => exact .lastItem ih hend
  | moreItems _ hcomma _ ih ihmore => exact .moreItems ih hcomma ihmore
  | field hkey hcolon _ ih => exact .field hkey hcolon ih
  | lastField _ hend ih => exact .lastField ih hend
  | moreFields _ hcomma _ ih ihmore => exact .moreFields ih hcomma ihmore

/-- The reader reads exactly what the grammar derives within the limits of the reader. -/
theorem read_eq_ok_iff {s : String} {v : Value} : read s = .ok v ↔ ∃ rest,
    Denotes (some digitLimit) depthLimit (skipSpace s.toList) (.value v) rest ∧
      skipSpace rest = [] := by
  unfold read
  constructor
  · intro h
    obtain ⟨⟨found, rest⟩, hfound, h⟩ := bind_eq_ok_iff.mp h
    dsimp only at h
    split at h
    · rename_i hempty
      cases h
      exact ⟨rest, denotes_of_readValue _ _ _ hfound, List.isEmpty_iff.mp hempty⟩
    · cases h
  · rintro ⟨rest, hdenotes, hrest⟩
    have hlength := length_skipSpace_le s.toList
    have hfound : readValue (s.toList.length + 1) depthLimit (skipSpace s.toList) =
        .ok (v, rest) := hdenotes.found (by omega)
    dsimp only
    rw [hfound]
    change (if (skipSpace rest).isEmpty = true then _ else _) = _
    rw [hrest]
    rfl

theorem means_of_read {s : String} {v : Value} (h : read s = .ok v) : Means s v := by
  obtain ⟨rest, hdenotes, hrest⟩ := read_eq_ok_iff.mp h
  exact ⟨depthLimit, rest, hdenotes.unlimited, hrest⟩

end Complete

end Runbook.Json
