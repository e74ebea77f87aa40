import Runbook.Log.Record
import Runbook.Proofs.JsonGrammar

/-!
Lines of a log. A value that is built of texts, integers, booleans and null is written on one line:
no control character stands in what is written, and JSON gives it no other meaning than the value.
So nothing that a record says is lost in its line, whatever its texts hold and whatever its fields
are called.
-/
namespace Runbook

open Number Text

/-- A value without doubles, with integers that have so many digits at most, and with no key twice
in a record. -/
inductive Value.Exact (limit : Option Nat) : Value → Prop
  | null : Exact limit .null
  | bool (b : Bool) : Exact limit (.bool b)
  | int {n : Int} (h : Json.allows limit (Nat.toDigits 10 n.natAbs).length = true) :
      Exact limit (.int n)
  | text (s : String) : Exact limit (.text s)
  | list {items : List Value} (h : ∀ v ∈ items, v.Exact limit) : Exact limit (.list items)
  | record {fields : Fields} (hkeys : (Keyed.keys fields).Nodup)
      (h : ∀ f ∈ fields, f.2.Exact limit) : Exact limit (.record fields)

namespace Json

open Value

/-! The layout of one line. -/

theorem toList_bracketed (left right : Char) (parts : List String) :
    (bracketed left right parts).toList =
      left :: ((String.intercalate ", " parts).toList ++ [right]) := by
  unfold bracketed
  rw [String.toList_append, String.toList_append, String.toList_singleton,
    String.toList_singleton, List.singleton_append, List.cons_append]

theorem toList_intercalate_cons_cons (part next : String) (parts : List String) :
    (String.intercalate ", " (part :: next :: parts)).toList =
      part.toList ++ ',' :: ' ' :: (String.intercalate ", " (next :: parts)).toList := by
  have hcomma : ", ".toList = [',', ' '] := rfl
  rw [String.intercalate_cons_cons, String.toList_append, String.toList_append, hcomma,
    List.append_assoc, List.cons_append, List.singleton_append]

theorem writeItems_eq (items : List Value) : writeItems items = items.map write := by
  induction items with
  | nil => rfl
  | cons v rest ih => rw [writeItems, ih, List.map_cons]

/-- The text of a field on one line: its key in quotes, a colon and its value. -/
def pairText (f : String × Value) : String := writeText f.1 ++ ": " ++ write f.2

theorem writeFields_eq (fields : Fields) : writeFields fields = fields.map pairText := by
  induction fields with
  | nil => rfl
  | cons f rest ih =>
    rw [writeFields, ih, List.map_cons]
    rfl

theorem write_list (items : List Value) :
    write (.list items) = bracketed '[' ']' (items.map write) := by
  rw [write, writeItems_eq]

theorem write_record (fields : Fields) :
    write (.record fields) = bracketed '{' '}' (fields.map pairText) := by
  rw [write, writeFields_eq]

theorem toList_pairText (f : String × Value) (rest : List Char) :
    (pairText f).toList ++ rest = '"' :: (f.1.toList.flatMap escapeChar ++
      '"' :: ':' :: ' ' :: ((write f.2).toList ++ rest)) := by
  have hcolon : ": ".toList = [':', ' '] := rfl
  rw [pairText, String.toList_append, String.toList_append, toList_writeText, hcolon]
  simp

/-! Values on one line have their meaning. -/

/-- What can follow a value on its line. -/
def Closes (rest : List Char) : Prop := ∀ c ∈ rest.head?, c = ',' ∨ c = ']' ∨ c = '}'

theorem closes_cons {c : Char} (hc : c ∈ [',', ']', '}']) (rest : List Char) :
    Closes (c :: rest) := by
  intro d hd
  obtain rfl := Option.some.inj hd
  simpa using hc

theorem readPower_of_closes {rest : List Char} (h : Closes rest) :
    readPower rest = (none, rest) := by
  cases rest with
  | nil => rfl
  | cons c cs =>
    have hc : ¬ (c = 'e' ∨ c = 'E') := by
      rcases h c rfl with rfl | rfl | rfl <;> decide
    exact if_neg hc

theorem readFraction_of_closes {rest : List Char} (h : Closes rest) :
    readFraction rest = ([], rest) := by
  unfold readFraction
  split
  · rcases h '.' rfl with h | h | h <;> exact absurd h (by decide)
  · rfl

section Meaning

variable {limit : Option Nat} {depth : Nat} {rest : List Char}

theorem Denotes.opens_fields {cs : List Char} {fs : Fields}
    (h : Denotes limit depth cs (.fields fs) rest) : Opens cs := by
  obtain ⟨body, rfl⟩ := h.exists_quote
  exact ⟨_, _, rfl, rfl, by decide, by decide⟩

/-- The digits of an integer, where a number ends. -/
theorem unsigned?_toDigits {n : Nat} (h : allows limit (Nat.toDigits 10 n).length = true)
    (hrest : Closes rest) (negative : Bool) :
    unsigned? limit negative (Nat.toDigits 10 n ++ rest) =
      some (.int (if negative then -(n : Int) else n), rest) := by
  have hdigits : Stops isAsciiDigit rest := fun c hc => by
    rcases hrest c hc with rfl | rfl | rfl <;> rfl
  rw [unsigned?_eq ((isWhole_toDigits n).readWhole?_append hdigits)
    (readFraction_of_closes hrest) (readPower_of_closes hrest), digitsValue_toDigits]
  exact if_pos h

theorem scalar?_toString {n : Int} (h : allows limit (Nat.toDigits 10 n.natAbs).length = true)
    (hrest : Closes rest) :
    scalar? limit ((toString n).toList ++ rest) = some (.int n, rest) := by
  have hread := unsigned?_toDigits h hrest (decide (n < 0))
  obtain ⟨c, ds, hdigits⟩ := List.exists_cons_of_ne_nil
    (Nat.toDigits_ne_nil (n := n.natAbs) (b := 10))
  have hc : isAsciiDigit c = true :=
    allDigits_toDigits n.natAbs c (hdigits ▸ List.mem_cons_self ..)
  obtain ⟨hplain, hsigned⟩ := readWord?_of_digit hc (ds ++ rest)
  rw [toList_toString_int]
  rw [hdigits, List.cons_append] at hread
  unfold scalar?
  by_cases hnegative : n < 0
  · rw [if_pos hnegative, hdigits, List.cons_append, List.cons_append, hsigned, Option.none_or,
      signed?]
    rw [decide_eq_true hnegative, if_pos rfl] at hread
    rw [hread, show -(n.natAbs : Int) = n by omega]
  · rw [if_neg hnegative, hdigits, List.cons_append, hplain, Option.none_or, signed?]
    · rw [decide_eq_false hnegative, if_neg Bool.false_ne_true] at hread
      rw [hread, show (n.natAbs : Int) = n by omega]
    · rintro more heq
      obtain ⟨rfl, -⟩ := List.cons.inj heq
      cases hc

/-- A value denotes itself wherever its text ends. -/
def Denoted (limit : Option Nat) (depth : Nat) (v : Value) : Prop := ∀ rest, Closes rest →
  Denotes limit depth ((write v).toList ++ rest) (.value v) rest

theorem denotes_items {v : Value} {items : List Value}
    (h : ∀ w ∈ v :: items, Denoted limit depth w) (rest : List Char) :
    Denotes limit depth
      ((String.intercalate ", " ((v :: items).map write)).toList ++ ']' :: rest)
      (.items (v :: items)) rest := by
  induction items generalizing v with
  | nil =>
    rw [List.map_singleton, String.intercalate_singleton]
    exact .lastItem (h v (List.mem_cons_self ..) _ (closes_cons (by decide) rest)) rfl
  | cons next items ih =>
    have hmore := ih fun w hw => h w (List.mem_cons_of_mem _ hw)
    rw [← hmore.opens_items.skipSpace_eq, ← skipSpace_blank] at hmore
    have hfirst := h v (List.mem_cons_self ..) _ (closes_cons (c := ',') (by decide)
      (' ' :: ((String.intercalate ", " ((next :: items).map write)).toList ++ ']' :: rest)))
    rw [List.map_cons, List.map_cons, toList_intercalate_cons_cons, List.append_assoc]
    exact .moreItems hfirst rfl hmore

theorem denotes_pair {f : String × Value} (h : Denoted limit depth f.2) (hrest : Closes rest) :
    Denotes limit depth ((pairText f).toList ++ rest) (.field f) rest := by
  have hvalue := h rest hrest
  rw [← hvalue.opens.skipSpace_eq, ← skipSpace_blank] at hvalue
  rw [toList_pairText]
  exact .field (readText?_flatMap f.1 _) rfl hvalue

theorem denotes_fields {f : String × Value} {fields : Fields}
    (h : ∀ g ∈ f :: fields, Denoted limit depth g.2) (rest : List Char) :
    Denotes limit depth
      ((String.intercalate ", " ((f :: fields).map pairText)).toList ++ '}' :: rest)
      (.fields (f :: fields)) rest := by
  induction fields generalizing f with
  | nil =>
    rw [List.map_singleton, String.intercalate_singleton]
    exact .lastField (denotes_pair (h f (List.mem_cons_self ..)) (closes_cons (by decide) rest)) rfl
  | cons next fields ih =>
    have hmore := ih fun g hg => h g (List.mem_cons_of_mem _ hg)
    rw [← hmore.opens_fields.skipSpace_eq, ← skipSpace_blank] at hmore
    have hfirst := denotes_pair (h f (List.mem_cons_self ..)) (closes_cons (c := ',') (by decide)
      (' ' :: ((String.intercalate ", " ((next :: fields).map pairText)).toList ++ '}' :: rest)))
    rw [List.map_cons, List.map_cons, toList_intercalate_cons_cons, List.append_assoc]
    exact .moreFields hfirst rfl hmore

/-- A value on one line denotes itself, within any limits that it keeps to. -/
theorem denotes_write {v : Value} (h : v.Exact limit) (hlevels : v.levels ≤ depth + 1) :
    Denoted limit (depth + 1) v := by
  induction h generalizing depth with
  | null => exact fun rest _ => .scalar rfl
  | bool b => cases b <;> exact fun rest _ => .scalar rfl
  | int h => exact fun rest hrest => .scalar (scalar?_toString h hrest)
  | text s =>
    intro rest _
    rw [write, toList_writeText, List.cons_append, List.append_assoc, List.singleton_append]
    exact .text (readText?_flatMap s rest)
  | @list items h ih =>
    intro rest _
    have hinner := itemLevels_le.mp (Nat.le_of_succ_le_succ hlevels)
    rw [write_list, toList_bracketed, List.cons_append, List.append_assoc, List.singleton_append]
    cases items with
    | nil => exact .noItems rfl
    | cons v items =>
      -- An item takes a level for itself, so there is one left below the list.
      obtain ⟨depth, rfl⟩ := Nat.exists_eq_succ_of_ne_zero
        (Nat.ne_of_gt (Nat.lt_of_lt_of_le v.levels_pos (hinner v (List.mem_cons_self ..))))
      have hitems := denotes_items (fun w hw => ih w hw (hinner w hw)) rest
      rw [← hitems.opens_items.skipSpace_eq] at hitems
      exact .list hitems
  | @record fields hkeys h ih =>
    intro rest _
    have hinner := fieldLevels_le.mp (Nat.le_of_succ_le_succ hlevels)
    rw [write_record, toList_bracketed, List.cons_append, List.append_assoc, List.singleton_append]
    cases fields with
    | nil => exact .noFields rfl
    | cons f fields =>
      obtain ⟨depth, rfl⟩ := Nat.exists_eq_succ_of_ne_zero
        (Nat.ne_of_gt (Nat.lt_of_lt_of_le f.2.levels_pos (hinner f (List.mem_cons_self ..))))
      have hfields := denotes_fields (fun g hg => ih g hg (hinner g hg)) rest
      rw [← hfields.opens_fields.skipSpace_eq] at hfields
      have hrecord := Denotes.record hfields
      rw [Keyed.ofList_of_nodup hkeys] at hrecord
      exact hrecord

/-- A line that holds nothing but a value denotes it. -/
theorem Denoted.alone {v : Value} (h : Denoted limit depth v) :
    Denotes limit depth (skipSpace (write v).toList) (.value v) [] := by
  have hdenotes := h [] nofun
  rw [List.append_nil] at hdenotes
  rw [hdenotes.opens.skipSpace_eq]
  exact hdenotes

end Meaning

/-- A value on one line means itself and nothing else. -/
theorem means_write_iff {v w : Value} (h : v.Exact none) : Means (write v) w ↔ w = v := by
  have hmeans : Means (write v) v :=
    ⟨_, [], (denotes_write h (Nat.le_succ v.levels)).alone, rfl⟩
  exact ⟨fun hw => hmeans.unique hw, fun heq => heq ▸ hmeans⟩

/-- No character of a text is a control character, such as a line break. -/
def ControlFree (s : String) : Prop := ∀ c ∈ s.toList, 32 ≤ c.toNat

theorem ControlFree.append {s t : String} (hs : ControlFree s) (ht : ControlFree t) :
    ControlFree (s ++ t) := by
  intro c hc
  rw [String.toList_append] at hc
  exact (List.mem_append.mp hc).elim (hs c) (ht c)

end Json

namespace Keyed

variable {α : Type}

theorem get?_append (key : String) (entries more : List (String × α)) :
    get? key (entries ++ more) = (get? key entries).or (get? key more) := by
  induction entries with
  | nil => rfl
  | cons e rest ih =>
    rw [List.cons_append, get?, get?]
    split
    · rfl
    · exact ih

theorem get?_of_not_mem {key : String} {entries : List (String × α)}
    (h : key ∉ keys entries) : get? key entries = none := by
  rw [← has_iff_mem_keys, has, Bool.not_eq_true, Option.isSome_eq_false_iff] at h
  exact Option.isNone_iff_eq_none.mp h

/-- A choice of entries by their keys is a choice of what can be found. -/
theorem get?_filter (p : String → Bool) (key : String) (entries : List (String × α)) :
    get? key (entries.filter fun e => p e.1) = if p key then get? key entries else none := by
  induction entries with
  | nil => exact (ite_self _).symm
  | cons e rest ih =>
    rw [List.filter_cons, get?]
    by_cases hkey : e.1 = key
    · subst hkey
      by_cases hp : p e.1 = true
      · rw [if_pos hp, if_pos hp, get?, if_pos rfl, if_pos rfl]
      · rw [if_neg hp, if_neg hp, ih, if_neg hp]
    · rw [if_neg hkey, ← ih]
      split
      · rw [get?, if_neg hkey]
      · rfl

/-- The entries that some names have, in the order of the names. -/
def choose (names : List String) (entries : List (String × α)) : List (String × α) :=
  names.filterMap fun name => (get? name entries).map fun v => (name, v)

theorem choose_cons_of_none {name : String} {entries : List (String × α)}
    (h : get? name entries = none) (names : List String) :
    choose (name :: names) entries = choose names entries := by
  unfold choose
  rw [List.filterMap_cons, h]
  rfl

theorem choose_cons_of_some {name : String} {entries : List (String × α)} {value : α}
    (h : get? name entries = some value) (names : List String) :
    choose (name :: names) entries = (name, value) :: choose names entries := by
  unfold choose
  rw [List.filterMap_cons, h]
  rfl

theorem get?_choose (key : String) (names : List String) (entries : List (String × α)) :
    get? key (choose names entries) = if key ∈ names then get? key entries else none := by
  induction names with
  | nil => rfl
  | cons name names ih =>
    cases hfound : get? name entries with
    | none =>
      rw [choose_cons_of_none hfound, ih]
      by_cases hkey : key = name
      · rw [hkey, hfound, ite_self, ite_self]
      · simp only [List.mem_cons, hkey, false_or]
    | some value =>
      rw [choose_cons_of_some hfound, get?, ih]
      by_cases hkey : name = key
      · rw [if_pos hkey, if_pos (hkey ▸ List.mem_cons_self ..), ← hkey, hfound]
      · simp only [List.mem_cons, hkey, Ne.symm hkey, false_or, if_false]

theorem sublist_keys_choose (names : List String) (entries : List (String × α)) :
    (keys (choose names entries)).Sublist names := by
  induction names with
  | nil => exact List.Sublist.slnil
  | cons name names ih =>
    cases hfound : get? name entries with
    | none =>
      rw [choose_cons_of_none hfound]
      exact ih.cons _
    | some value =>
      rw [choose_cons_of_some hfound]
      exact ih.cons_cons _

end Keyed

namespace Log.Record

variable {time : String} {r : Record}

/-! The fields of a line. -/

/-- What a line begins with. -/
def front (time : String) (r : Record) : Fields :=
  [("timestamp", .text time), ("level", .text (levelName r.level)), ("logger", .text r.logger),
    ("message", .text r.message)]

/-- The field for the extra fields that have no place of their own, if there are any. -/
def remainder (r : Record) : Fields :=
  if (others r.extra).isEmpty then [] else [("extra", .record (others r.extra))]

/-- The field for an error. -/
def failure (r : Record) : Fields := (r.exception.map fun e => ("exception", Value.text e)).toList

/-- All that a line says. -/
def payload (time : String) (r : Record) : Fields :=
  front time r ++ Keyed.choose contextKeys r.extra ++ remainder r ++ failure r

theorem line_eq (time : String) (r : Record) :
    r.line time = Json.write (.record (r.payload time)) := rfl

/-- The keys of a line, in their order. -/
def lineKeys : List String :=
  ["timestamp", "level", "logger", "message"] ++ contextKeys ++ ["extra"] ++ ["exception"]

theorem sublist_keys_remainder (r : Record) : (Keyed.keys r.remainder).Sublist ["extra"] := by
  unfold remainder
  split
  · exact List.nil_sublist _
  · exact List.Sublist.refl _

theorem sublist_keys_failure (r : Record) : (Keyed.keys r.failure).Sublist ["exception"] := by
  unfold failure
  cases r.exception with
  | none => exact List.nil_sublist _
  | some e => exact List.Sublist.refl _

theorem sublist_keys_payload (time : String) (r : Record) :
    (Keyed.keys (r.payload time)).Sublist lineKeys := by
  unfold payload lineKeys Keyed.keys
  rw [List.map_append, List.map_append, List.map_append]
  exact (((List.Sublist.refl _).append (Keyed.sublist_keys_choose _ _)).append
    (sublist_keys_remainder r)).append (sublist_keys_failure r)

/-- What holds of every text, of every extra field and of the record of the others holds of every
field of a line. -/
theorem forall_mem_payload {P : Value → Prop} (htext : ∀ s, P (.text s))
    (hextra : ∀ f ∈ r.extra, P f.2) (hothers : P (.record (others r.extra))) :
    ∀ f ∈ r.payload time, P f.2 := by
  intro f hf
  unfold payload at hf
  rw [List.mem_append, List.mem_append, List.mem_append] at hf
  rcases hf with ((hf | hf) | hf) | hf
  · simp only [front, List.mem_cons, List.not_mem_nil, or_false] at hf
    rcases hf with rfl | rfl | rfl | rfl <;> exact htext _
  · obtain ⟨name, -, hname⟩ := List.mem_filterMap.mp hf
    obtain ⟨v, hv, rfl⟩ := Option.map_eq_some_iff.mp hname
    exact hextra _ (Keyed.mem_of_get? hv)
  · unfold remainder at hf
    split at hf
    · cases hf
    · obtain rfl := List.mem_singleton.mp hf
      exact hothers
  · obtain ⟨e, -, rfl⟩ := Option.map_eq_some_iff.mp (Option.mem_toList.mp hf)
    exact htext e

theorem exact_payload {limit : Option Nat} (hkeys : (Keyed.keys r.extra).Nodup)
    (hvalues : ∀ f ∈ r.extra, f.2.Exact limit) (time : String) :
    (Value.record (r.payload time)).Exact limit := by
  have hothers : (others r.extra).Sublist r.extra := List.filter_sublist
  refine .record ((sublist_keys_payload time r).nodup (by decide))
    (forall_mem_payload Value.Exact.text hvalues (.record ?_ ?_))
  · exact (hothers.map _).nodup hkeys
  · exact fun f hf => hvalues f (hothers.subset hf)

theorem get?_payload (key : String) (time : String) (r : Record) :
    Keyed.get? key (r.payload time) = (((Keyed.get? key (front time r)).or
      (if key ∈ contextKeys then Keyed.get? key r.extra else none)).or
        (Keyed.get? key r.remainder)).or (Keyed.get? key r.failure) := by
  unfold payload
  rw [Keyed.get?_append, Keyed.get?_append, Keyed.get?_append, Keyed.get?_choose]

theorem get?_front {key : String} (h : key ∉ ["timestamp", "level", "logger", "message"]) :
    Keyed.get? key (front time r) = none := Keyed.get?_of_not_mem h

theorem get?_remainder {key : String} (h : key ≠ "extra") : Keyed.get? key r.remainder = none :=
  Keyed.get?_of_not_mem fun hmem =>
    h (List.mem_singleton.mp ((sublist_keys_remainder r).subset hmem))

theorem get?_failure {key : String} (h : key ≠ "exception") : Keyed.get? key r.failure = none :=
  Keyed.get?_of_not_mem fun hmem =>
    h (List.mem_singleton.mp ((sublist_keys_failure r).subset hmem))

/-- A line says of a record what it is to say: each thing in its place, and nothing besides. -/
structure Tells (time : String) (r : Record) (fields : Fields) : Prop where
  timestamp : Keyed.get? "timestamp" fields = some (.text time)
  level : Keyed.get? "level" fields = some (.text (levelName r.level))
  logger : Keyed.get? "logger" fields = some (.text r.logger)
  message : Keyed.get? "message" fields = some (.text r.message)
  context : ∀ key ∈ contextKeys, Keyed.get? key fields = Keyed.get? key r.extra
  remaining : let rest := r.extra.filter fun f => !contextKeys.contains f.1
    Keyed.get? "extra" fields = if rest.isEmpty then none else some (.record rest)
  exception : Keyed.get? "exception" fields = r.exception.map .text
  order : (Keyed.keys fields).Sublist lineKeys

/-- A record with extra fields as callers give them: no name twice and none that begins with an
underscore, and values without doubles. -/
structure Loggable (r : Record) : Prop where
  keys : (Keyed.keys r.extra).Nodup
  names : ∀ key ∈ Keyed.keys r.extra, isPrivate key = false
  values : ∀ f ∈ r.extra, f.2.Exact none

theorem Loggable.others_eq (h : r.Loggable) :
    others r.extra = r.extra.filter fun f => !contextKeys.contains f.1 := by
  refine List.filter_congr fun f hf => ?_
  rw [h.names f.1 (List.mem_map_of_mem (f := (·.1)) hf)]
  rfl

theorem Loggable.tells (h : r.Loggable) (time : String) : Tells time r (r.payload time) where
  timestamp := rfl
  level := rfl
  logger := rfl
  message := rfl
  context key hkey := by
    have hoff : ∀ key ∈ contextKeys, key ∉ ["timestamp", "level", "logger", "message"] ∧
        key ≠ "extra" ∧ key ≠ "exception" := by decide
    obtain ⟨hfront, hremainder, hfailure⟩ := hoff key hkey
    rw [get?_payload, if_pos hkey, get?_front hfront, get?_remainder hremainder,
      get?_failure hfailure, Option.none_or, Option.or_none, Option.or_none]
  remaining := by
    rw [get?_payload, if_neg (by decide), get?_front (by decide), get?_failure (by decide),
      Option.none_or, Option.none_or, Option.or_none, remainder, h.others_eq]
    dsimp only
    split
    · rfl
    · rfl
  exception := by
    rw [get?_payload, if_neg (by decide), get?_front (by decide), get?_remainder (by decide),
      Option.none_or, Option.none_or, Option.none_or, failure]
    cases r.exception with
    | none => rfl
    | some e => rfl
  order := sublist_keys_payload time r

theorem Loggable.means_line_iff (h : r.Loggable) (time : String) {v : Value} :
    Json.Means (r.line time) v ↔ v = .record (r.payload time) := by
  rw [line_eq]
  exact Json.means_write_iff (exact_payload h.keys h.values time)

/-- Two records with the same line agree on everything that a line is about. -/
theorem same_of_line_eq {time' : String} {r' : Record} (h : r.Loggable) (h' : r'.Loggable)
    (hline : r.line time = r'.line time') :
    time = time' ∧ levelName r.level = levelName r'.level ∧ r.logger = r'.logger ∧
      r.message = r'.message ∧ r.exception = r'.exception ∧
      ∀ key, Keyed.get? key r.extra = Keyed.get? key r'.extra := by
  have hmeans := (h.means_line_iff time).mpr rfl
  rw [hline, h'.means_line_iff time', Value.record.injEq] at hmeans
  have htold := h.tells time
  have htold' := h'.tells time'
  rw [hmeans] at htold
  -- No remaining fields and an empty record of them are told apart, so the lists are the same.
  have hrest : (r.extra.filter fun f => !contextKeys.contains f.1) =
      r'.extra.filter fun f => !contextKeys.contains f.1 := by
    have hsame := htold.remaining.symm.trans htold'.remaining
    generalize (r.extra.filter fun f => !contextKeys.contains f.1) = rest at hsame ⊢
    generalize (r'.extra.filter fun f => !contextKeys.contains f.1) = rest' at hsame ⊢
    cases rest with
    | nil =>
      cases rest' with
      | nil => rfl
      | cons => cases hsame
    | cons =>
      cases rest' with
      | nil => cases hsame
      | cons => exact Value.record.inj (Option.some.inj hsame)
  refine ⟨?_, ?_, ?_, ?_, ?_, fun key => ?_⟩
  · simpa using htold.timestamp.symm.trans htold'.timestamp
  · simpa using htold.level.symm.trans htold'.level
  · simpa using htold.logger.symm.trans htold'.logger
  · simpa using htold.message.symm.trans htold'.message
  · have hsame := htold.exception.symm.trans htold'.exception
    exact Option.map_injective (fun _ _ heq => Value.text.inj heq) hsame
  · by_cases hkey : key ∈ contextKeys
    · exact (htold.context key hkey).symm.trans (htold'.context key hkey)
    · have hfound := congrArg (Keyed.get? key) hrest
      have hp : (!contextKeys.contains key) = true := by simpa using hkey
      rw [Keyed.get?_filter (fun key => !contextKeys.contains key),
        Keyed.get?_filter (fun key => !contextKeys.contains key), if_pos hp, if_pos hp] at hfound
      exact hfound

end Log.Record

end Runbook
