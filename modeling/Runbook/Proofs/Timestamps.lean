import Runbook.Proofs.Dates
import Runbook.Proofs.Digits
import Runbook.Proofs.Notation
import Runbook.Proofs.Success

/-!
Timestamps in records. A timestamp of the years from 1 to 9999 whose offset, if it is known, is made
of whole minutes and less than a day, is read back from the text that records hold; and whatever
is read as a timestamp is of this kind.
-/
namespace Runbook

open Number Text

namespace Date

theorem toList_padded (width n : Nat) : (padded width n).toList =
    List.replicate (width - (Nat.toDigits 10 n).length) '0' ++ Nat.toDigits 10 n := by
  unfold padded
  dsimp only
  rw [String.toList_append, String.toList_ofList, length_toString, toList_toString]

end Date

namespace Timestamp

open Date

/-- A timestamp that a record can hold. -/
structure Recordable (t : Timestamp) : Prop where
  first : -719162 * microsPerDay ≤ t.wall
  last : t.wall < 2932897 * microsPerDay
  offset : ∀ o ∈ t.offset, o % 60 = 0 ∧ o.natAbs < 86400

/-- A number with zeros in front is read back. -/
theorem takeDigits?_padded {width n : Nat} (hn : n < 10 ^ width) (hwidth : 0 < width)
    (rest : List Char) : takeDigits? width ((padded width n).toList ++ rest) = some (n, rest) := by
  have hfew : (Nat.toDigits 10 n).length ≤ width := (length_toDigits_le hwidth).mpr hn
  have hlength : (padded width n).toList.length = width := by
    rw [toList_padded, List.length_append, List.length_replicate]
    omega
  have hdigits : AllDigits (padded width n).toList := by
    rw [toList_padded]
    exact (AllDigits.zeros _).append (allDigits_toDigits n)
  have hvalue : digitsValue 10 (padded width n).toList = n := by
    rw [toList_padded, digitsValue_zeros_append, digitsValue_toDigits]
  unfold takeDigits?
  dsimp only
  rw [List.take_append_of_le_length (Nat.le_of_eq hlength.symm), List.take_of_length_le
    (Nat.le_of_eq hlength), if_pos ⟨hlength, hdigits.all_eq⟩, hvalue,
    List.drop_append_of_le_length (Nat.le_of_eq hlength.symm), List.drop_of_length_le
      (Nat.le_of_eq hlength), List.nil_append]

theorem bind_of_eq_some {α β : Type} {x : Option α} {a : α} (h : x = some a)
    (f : α → Option β) : (x >>= f) = f a := by
  rw [h]
  rfl

theorem guard_of_true {p : Prop} [Decidable p] (h : p) : (guard p : Option Unit) = some () :=
  if_pos h

theorem toList_dateText (d : Date) : d.text.toList = (padded 4 d.year).toList ++
    '-' :: ((padded 2 d.month).toList ++ '-' :: (padded 2 d.day).toList) := by
  have hdash : "-".toList = ['-'] := rfl
  have htext : d.text = padded 4 d.year ++ "-" ++ padded 2 d.month ++ "-" ++ padded 2 d.day := by
    simp [Date.text, toString]
  rw [htext]
  simp only [String.toList_append, hdash, List.append_assoc, List.cons_append,
    List.nil_append]

theorem lt_of_check {year month day : Nat} {d : Date} (h : check year month day = .ok d) :
    year < 10000 ∧ month < 100 ∧ day < 100 := by
  have hlong := daysIn_le year month
  unfold check at h
  split at h
  · cases h
  · split at h
    · cases h
    · split at h
      · cases h
      · omega

theorem readDate?_text {d : Date} (h : check d.year d.month d.day = .ok d) (rest : List Char) :
    readDate? (d.text.toList ++ rest) = some (d, rest) := by
  obtain ⟨hyear, hmonth, hday⟩ := lt_of_check h
  rw [toList_dateText]
  simp only [List.append_assoc, List.cons_append]
  refine (bind_of_eq_some (takeDigits?_padded hyear (by decide) _) _).trans ?_
  refine (bind_of_eq_some (a := (padded 2 d.month).toList ++
    '-' :: ((padded 2 d.day).toList ++ rest)) rfl _).trans ?_
  refine (bind_of_eq_some (takeDigits?_padded hmonth (by decide) _) _).trans ?_
  refine (bind_of_eq_some (a := (padded 2 d.day).toList ++ rest) rfl _).trans ?_
  refine (bind_of_eq_some (takeDigits?_padded hday (by decide) _) _).trans ?_
  exact bind_of_eq_some (a := d) (by rw [h]; rfl) _

/-! The offset. -/

theorem toList_offsetText {o : Int} (h : o % 60 = 0) : (offsetText o).toList =
    (if o < 0 then '-' else '+') :: ((padded 2 (o.natAbs / 3600)).toList ++
      ':' :: (padded 2 (o.natAbs / 60 % 60)).toList) := by
  have hsign : (if o < 0 then "-" else "+" : String).toList = [if o < 0 then '-' else '+'] := by
    split <;> rfl
  have hcolon : ":".toList = [':'] := rfl
  unfold offsetText
  dsimp only
  rw [if_pos (show o.natAbs % 60 = 0 by omega)]
  simp only [String.toList_append, hsign, hcolon, List.append_assoc, List.cons_append,
    List.nil_append]

/-- Hours and minutes after a sign. -/
theorem readOffset?_signed {sign : Char} (hsign : sign = '-' ∨ sign = '+') {hours minutes : Nat}
    (hhours : hours < 24) (hminutes : minutes < 60) :
    readOffset? (sign :: ((padded 2 hours).toList ++ ':' :: (padded 2 minutes).toList)) =
      some (some (if sign == '+' then ((hours * 3600 + minutes * 60 : Nat) : Int)
        else -((hours * 3600 + minutes * 60 : Nat) : Int))) := by
  have htail : takeDigits? 2 (padded 2 minutes).toList = some (minutes, []) := by
    have hread := takeDigits?_padded (show minutes < 10 ^ 2 by omega) (by decide) []
    rwa [List.append_nil] at hread
  have hends : (([] : List Char).isEmpty && minutes < 60 && hours < 24 : Bool) = true := by
    simp [hhours, hminutes]
  rcases hsign with rfl | rfl
  all_goals
    refine (bind_of_eq_some (guard_of_true rfl) _).trans ?_
    refine (bind_of_eq_some (takeDigits?_padded (by omega) (by decide) _) _).trans ?_
    refine (bind_of_eq_some htail _).trans ?_
    exact bind_of_eq_some (guard_of_true hends) _

theorem readOffset?_offsetText {o : Int} (hminutes : o % 60 = 0) (hday : o.natAbs < 86400) :
    readOffset? (offsetText o).toList = some (some o) := by
  have hsign : (if o < 0 then '-' else '+') = '-' ∨ (if o < 0 then '-' else '+') = '+' := by
    split
    · exact Or.inl rfl
    · exact Or.inr rfl
  have hsum : (o.natAbs / 3600 * 3600 + o.natAbs / 60 % 60 * 60 : Nat) = o.natAbs := by omega
  rw [toList_offsetText hminutes, readOffset?_signed hsign (by omega) (by omega), hsum]
  congr 2
  by_cases hnegative : o < 0
  · rw [if_pos hnegative, if_neg (by decide)]
    omega
  · rw [if_neg hnegative, if_pos (by decide)]
    omega

/-- The offset at the end of a record's time, or nothing. -/
def offsetEnd (offset : Option Int) : List Char :=
  ((offset.map fun o => if o = 0 then "Z" else offsetText o).getD "").toList

theorem readOffset?_offsetEnd {offset : Option Int}
    (h : ∀ o ∈ offset, o % 60 = 0 ∧ o.natAbs < 86400) :
    readOffset? (offsetEnd offset) = some offset ∧ Stops isAsciiDigit (offsetEnd offset) ∧
      (offsetEnd offset).head? ≠ some '.' ∧ (offsetEnd offset).head? ≠ some ',' := by
  cases offset with
  | none => exact ⟨rfl, stops_nil _, by decide, by decide⟩
  | some o =>
    obtain ⟨hminutes, hday⟩ := h o rfl
    unfold offsetEnd
    simp only [Option.map_some, Option.getD_some]
    split
    · rename_i hzero
      rw [hzero]
      exact ⟨rfl, stops_cons.mpr rfl, by decide, by decide⟩
    · refine ⟨readOffset?_offsetText hminutes hday, ?_⟩
      rw [toList_offsetText hminutes]
      split <;> exact ⟨stops_cons.mpr rfl, by simp, by simp⟩

/-! The time of day. -/

/-- Seconds, and microseconds if there are some. -/
def secondsText (second micro : Nat) : List Char :=
  ':' :: ((padded 2 second).toList ++ if micro = 0 then [] else '.' :: (padded 6 micro).toList)

theorem readSeconds?_secondsText {second micro : Nat} (hsecond : second < 60)
    (hmicro : micro < 1000000) {rest : List Char} (hstops : Stops isAsciiDigit rest)
    (hpoint : rest.head? ≠ some '.') (hcomma : rest.head? ≠ some ',') :
    readSeconds? (secondsText second micro ++ rest) = some (second, micro, rest) := by
  have htake := takeDigits?_padded (show second < 10 ^ 2 by omega) (by decide)
    ((if micro = 0 then [] else '.' :: (padded 6 micro).toList) ++ rest)
  unfold secondsText
  rw [List.cons_append, List.append_assoc]
  refine (bind_of_eq_some htake _).trans ?_
  refine (bind_of_eq_some (guard_of_true hsecond) _).trans ?_
  dsimp only
  by_cases hzero : micro = 0
  · have hnone : takeMark? (fun c => c == '.' || c == ',') rest = none := by
      cases rest with
      | nil => rfl
      | cons c cs =>
        have hc : c ≠ '.' := fun heq => hpoint (congrArg some heq)
        have hc' : c ≠ ',' := fun heq => hcomma (congrArg some heq)
        exact if_neg (by simp [hc, hc'])
    rw [if_pos hzero, List.nil_append, hnone, hzero]
    rfl
  · have hfew : (Nat.toDigits 10 micro).length ≤ 6 := (length_toDigits_le (by decide)).mpr hmicro
    have hdigits : AllDigits (padded 6 micro).toList := by
      rw [toList_padded]
      exact (AllDigits.zeros _).append (allDigits_toDigits micro)
    have hlength : (padded 6 micro).toList.length = 6 := by
      rw [toList_padded, List.length_append, List.length_replicate]
      omega
    have hvalue : digitsValue 10 (padded 6 micro).toList = micro := by
      rw [toList_padded, digitsValue_zeros_append, digitsValue_toDigits]
    obtain ⟨hplaces, hrest⟩ := split_iff.mpr ⟨rfl, hdigits, hstops⟩
    have hmark : takeMark? (fun c => c == '.' || c == ',')
        ('.' :: (padded 6 micro).toList ++ rest) = some ((padded 6 micro).toList ++ rest) := rfl
    have hsome : (!(padded 6 micro).toList.isEmpty) = true := by
      cases hcs : (padded 6 micro).toList with
      | nil =>
        rw [hcs] at hlength
        cases hlength
      | cons => rfl
    rw [if_neg hzero, hmark]
    dsimp only
    rw [hplaces, hrest]
    refine (bind_of_eq_some (guard_of_true hsome) _).trans ?_
    rw [List.take_of_length_le (Nat.le_of_eq hlength), hvalue, hlength]
    exact congrArg some (by simp)

/-- Date and time of day, in the parts in which they are read. -/
theorem toList_recordText (t : Timestamp) : t.recordText.toList = t.reading.date.text.toList ++
    'T' :: ((padded 2 t.reading.hour).toList ++ ':' :: ((padded 2 t.reading.minute).toList ++
      (secondsText t.reading.second t.reading.micro ++ offsetEnd t.offset))) := by
  have hmark : (String.singleton 'T').toList = ['T'] := rfl
  have hcolon : ":".toList = [':'] := rfl
  have hpoint : ".".toList = ['.'] := rfl
  unfold recordText clockText offsetEnd secondsText
  dsimp only
  split
  all_goals
    simp only [String.toList_append, hmark, hcolon, hpoint, List.append_assoc, List.cons_append,
      List.nil_append]

/-- A wall clock shows one time, which is the time it is read as. -/
theorem ofFields_reading {t : Timestamp} (h : t.Recordable) :
    ofFields t.reading.date t.reading.hour t.reading.minute t.reading.second t.reading.micro
      t.offset = t ∧ check t.reading.date.year t.reading.date.month t.reading.date.day =
        .ok t.reading.date ∧ t.reading.hour < 24 ∧ t.reading.minute < 60 ∧
      t.reading.second < 60 ∧ t.reading.micro < 1000000 := by
  obtain ⟨hfirst, hlast, -⟩ := h
  have hday : microsPerDay = 86400000000 := rfl
  have hfdiv : Int.fdiv t.wall microsPerDay = t.wall / microsPerDay :=
    Int.fdiv_eq_ediv_of_nonneg _ (by decide)
  have hyears : InYears (t.wall / microsPerDay) := by
    rw [hday] at hfirst hlast ⊢
    exact ⟨by omega, by omega⟩
  obtain ⟨hdays, hcheck⟩ := ofDays_spec hyears
  unfold reading ofFields
  rw [hfdiv]
  dsimp only
  refine ⟨?_, hcheck, ?_⟩
  · obtain ⟨wall, offset⟩ := t
    simp only at hdays ⊢
    rw [hdays, hday, show microsPerSecond = 1000000 from rfl]
    congr 1
    omega
  · rw [hday]
    omega

theorem readClock?_recordText {t : Timestamp} (h : t.Recordable) :
    readClock? t.recordText.toList = some t := by
  obtain ⟨hfields, hcheck, hhour, hminute, hsecond, hmicro⟩ := ofFields_reading h
  obtain ⟨hoffset, hstops, hpoint, hcomma⟩ := readOffset?_offsetEnd h.offset
  rw [toList_recordText]
  refine (bind_of_eq_some (readDate?_text hcheck _) _).trans ?_
  dsimp only
  refine (bind_of_eq_some (a := (padded 2 t.reading.hour).toList ++
    ':' :: ((padded 2 t.reading.minute).toList ++
      (secondsText t.reading.second t.reading.micro ++ offsetEnd t.offset))) rfl _).trans ?_
  refine (bind_of_eq_some (takeDigits?_padded (by omega) (by decide) _) _).trans ?_
  refine (bind_of_eq_some (a := (padded 2 t.reading.minute).toList ++
    (secondsText t.reading.second t.reading.micro ++ offsetEnd t.offset)) rfl _).trans ?_
  refine (bind_of_eq_some (takeDigits?_padded (by omega) (by decide) _) _).trans ?_
  refine (bind_of_eq_some (guard_of_true (by simp [hhour, hminute])) _).trans ?_
  refine (bind_of_eq_some (readSeconds?_secondsText hsecond hmicro hstops hpoint hcomma) _).trans ?_
  refine (bind_of_eq_some hoffset _).trans ?_
  exact congrArg some hfields

/-- A timestamp is read back from the text that records hold. -/
theorem read?_recordText {t : Timestamp} (h : t.Recordable) : read? t.recordText = some t := by
  unfold read?
  dsimp only
  rw [readClock?_recordText h]

/-! Whatever is read can be recorded. -/

theorem exists_of_bind_eq_some {α β : Type} {x : Option α} {f : α → Option β} {b : β}
    (h : (x >>= f) = some b) : ∃ a, x = some a ∧ f a = some b :=
  Option.bind_eq_some_iff.mp h

theorem of_guard {p : Prop} [Decidable p] {u : Unit} (h : (guard p : Option Unit) = some u) :
    p := by
  by_contra hp
  exact nomatch (if_neg hp).symm.trans h

theorem inYears_of_readDate? {cs rest : List Char} {d : Date}
    (h : readDate? cs = some (d, rest)) : InYears d.toDays := by
  obtain ⟨year, -, h⟩ := exists_of_bind_eq_some h
  obtain ⟨_, -, h⟩ := exists_of_bind_eq_some h
  obtain ⟨month, -, h⟩ := exists_of_bind_eq_some h
  obtain ⟨_, -, h⟩ := exists_of_bind_eq_some h
  obtain ⟨day, -, h⟩ := exists_of_bind_eq_some h
  obtain ⟨date, hdate, h⟩ := exists_of_bind_eq_some h
  cases h
  cases hcheck : check year.1 month.1 day.1 with
  | error f =>
    rw [hcheck] at hdate
    cases hdate
  | ok found =>
    rw [hcheck] at hdate
    cases hdate
    exact inYears_of_check hcheck

theorem lt_of_readSeconds? {cs rest : List Char} {second micro : Nat}
    (h : readSeconds? cs = some (second, micro, rest)) : second < 60 ∧ micro < 1000000 := by
  unfold readSeconds? at h
  split at h
  · obtain ⟨read, -, h⟩ := exists_of_bind_eq_some h
    obtain ⟨_, hsecond, h⟩ := exists_of_bind_eq_some h
    have hsecond := of_guard hsecond
    dsimp only at h
    split at h
    · rename_i places hplaces
      obtain ⟨_, -, h⟩ := exists_of_bind_eq_some h
      cases h
      refine ⟨hsecond, ?_⟩
      have hshort : ((places.takeWhile isAsciiDigit).take 6).length ≤ 6 := List.length_take_le ..
      have hdigits : AllDigits ((places.takeWhile isAsciiDigit).take 6) := fun c hc =>
        List.all_eq_true.mp (List.all_takeWhile ..) c (List.mem_of_mem_take hc)
      have hvalue := digitsValue_lt hdigits
      have hpow : 10 ^ ((places.takeWhile isAsciiDigit).take 6).length *
          10 ^ (6 - ((places.takeWhile isAsciiDigit).take 6).length) = 1000000 := by
        rw [← Nat.pow_add, Nat.add_sub_cancel' hshort]
      rw [← hpow]
      exact Nat.mul_lt_mul_of_pos_right hvalue (Nat.pow_pos (by decide))
    · cases h
      exact ⟨hsecond, by decide⟩
  · cases h
    exact ⟨by decide, by decide⟩

theorem whole_of_readOffset? {cs : List Char} {offset : Option Int}
    (h : readOffset? cs = some offset) : ∀ o ∈ offset, o % 60 = 0 ∧ o.natAbs < 86400 := by
  unfold readOffset? at h
  split at h
  · cases h
    exact nofun
  · cases h
    rintro _ ⟨⟩
    exact ⟨rfl, by decide⟩
  · cases h
    rintro _ ⟨⟩
    exact ⟨rfl, by decide⟩
  · obtain ⟨_, -, h⟩ := exists_of_bind_eq_some h
    obtain ⟨hours, -, h⟩ := exists_of_bind_eq_some h
    obtain ⟨minutes, -, h⟩ := exists_of_bind_eq_some h
    obtain ⟨_, hends, h⟩ := exists_of_bind_eq_some h
    have hends := of_guard hends
    simp only [Bool.and_eq_true, decide_eq_true_eq] at hends
    cases h
    rintro _ ⟨⟩
    split <;> omega

theorem recordable_ofFields {d : Date} {hour minute second micro : Nat} {offset : Option Int}
    (hdate : InYears d.toDays) (hhour : hour < 24) (hminute : minute < 60) (hsecond : second < 60)
    (hmicro : micro < 1000000) (hoffset : ∀ o ∈ offset, o % 60 = 0 ∧ o.natAbs < 86400) :
    (ofFields d hour minute second micro offset).Recordable := by
  obtain ⟨hlow, hhigh⟩ := hdate
  refine ⟨?_, ?_, hoffset⟩
  all_goals
    unfold ofFields
    rw [show microsPerDay = 86400000000 from rfl, show microsPerSecond = 1000000 from rfl]
    dsimp only
    omega

theorem recordable_of_readClock? {cs : List Char} {t : Timestamp} (h : readClock? cs = some t) :
    t.Recordable := by
  obtain ⟨⟨date, afterDate⟩, hdate, h⟩ := exists_of_bind_eq_some h
  have hyears := inYears_of_readDate? hdate
  dsimp only at h
  split at h
  · cases h
    exact recordable_ofFields hyears (by decide) (by decide) (by decide) (by decide) nofun
  · obtain ⟨_, -, h⟩ := exists_of_bind_eq_some h
    obtain ⟨hour, -, h⟩ := exists_of_bind_eq_some h
    obtain ⟨_, -, h⟩ := exists_of_bind_eq_some h
    obtain ⟨minute, -, h⟩ := exists_of_bind_eq_some h
    obtain ⟨_, hclock, h⟩ := exists_of_bind_eq_some h
    have hclock := of_guard hclock
    obtain ⟨⟨second, micro, afterSeconds⟩, hseconds, h⟩ := exists_of_bind_eq_some h
    obtain ⟨hsecond, hmicro⟩ := lt_of_readSeconds? hseconds
    obtain ⟨offset, hoffset, h⟩ := exists_of_bind_eq_some h
    simp only [Bool.and_eq_true, decide_eq_true_eq] at hclock
    cases h
    exact recordable_ofFields hyears hclock.1 hclock.2 hsecond hmicro
      (whole_of_readOffset? hoffset)

theorem recordable_of_ofUnix? {count : Int} {micros : Nat} {t : Timestamp}
    (h : ofUnix? count micros = some t) : t.Recordable := by
  unfold ofUnix? at h
  extract_lets _ _ _ wall at h
  split at h
  · rename_i hrange
    cases h
    rw [show microsPerSecond = 1000000 from rfl] at hrange
    have hday : microsPerDay = 86400000000 := rfl
    refine ⟨?_, ?_, ?_⟩
    · rw [hday]
      exact le_trans (by decide) hrange.1
    · rw [hday]
      exact hrange.2
    · rintro _ ⟨⟩
      exact ⟨rfl, by decide⟩
  · cases h

theorem recordable_of_ofDouble? {x : Number.Binary64} {t : Timestamp}
    (h : ofDouble? x = some t) : t.Recordable := by
  unfold ofDouble? at h
  split at h
  · cases h
  · exact recordable_of_ofUnix? h

/-- Every timestamp that is read from a text can be recorded. -/
theorem recordable_of_read? {s : String} {t : Timestamp} (h : read? s = some t) :
    t.Recordable := by
  unfold read? at h
  dsimp only at h
  split at h
  · rename_i hclock
    cases h
    exact recordable_of_readClock? hclock
  · split at h
    · cases h
    · split at h
      · exact recordable_of_ofUnix? h
      · split at h
        · obtain ⟨x, -, h⟩ := exists_of_bind_eq_some h
          unfold ofDecimal? at h
          split at h
          · cases h
          · split at h <;> exact recordable_of_ofDouble? h
        · cases h

end Timestamp

end Runbook
