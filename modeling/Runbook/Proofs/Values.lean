import Mathlib.Data.List.Nodup
import Runbook.Json.Writer
import Runbook.Proofs.Digits

/-!
Values as trees. Induction goes from the items of a list and the fields of a record to the whole.
What a value is asked for here is what decides whether it can be written and read again: the texts
in it, the size of its numbers, and the keys of its records.
-/
namespace Runbook

namespace Keyed

variable {α : Type}

theorem set_of_not_mem {key : String} {value : α} {entries : List (String × α)}
    (h : key ∉ keys entries) : set key value entries = entries ++ [(key, value)] := by
  induction entries with
  | nil => rfl
  | cons e rest ih =>
    obtain ⟨hfirst, hrest⟩ := not_or.mp (mt List.mem_cons.mpr h)
    simp only [set, if_neg (Ne.symm hfirst), ih hrest, List.cons_append]

/-- What a sequence of settings makes has every key once, and only pairs that were set. -/
theorem ofList_spec (entries : List (String × α)) :
    (keys (ofList entries)).Nodup ∧ ∀ e ∈ ofList entries, e ∈ entries := by
  have hfold : ∀ (entries acc : List (String × α)), (keys acc).Nodup →
      (keys (entries.foldl (fun acc e => set e.1 e.2 acc) acc)).Nodup ∧
        ∀ e ∈ entries.foldl (fun acc e => set e.1 e.2 acc) acc, e ∈ acc ∨ e ∈ entries := by
    intro entries
    induction entries with
    | nil => exact fun acc hacc => ⟨hacc, fun e he => Or.inl he⟩
    | cons first rest ih =>
      intro acc hacc
      obtain ⟨hnodup, hmem⟩ := ih (set first.1 first.2 acc) (nodup_keys_set hacc)
      refine ⟨hnodup, fun e he => ?_⟩
      rcases hmem e he with he | he
      · rcases eq_or_mem_of_mem_set he with rfl | he
        · exact Or.inr (List.mem_cons_self ..)
        · exact Or.inl he
      · exact Or.inr (List.mem_cons_of_mem _ he)
  obtain ⟨hnodup, hmem⟩ := hfold entries [] List.nodup_nil
  exact ⟨hnodup, fun e he => (hmem e he).resolve_left List.not_mem_nil⟩

/-- Settings of keys that are all different are kept as they are. -/
theorem ofList_of_nodup {entries : List (String × α)} (h : (keys entries).Nodup) :
    ofList entries = entries := by
  have hfold : ∀ (entries acc : List (String × α)), (keys (acc ++ entries)).Nodup →
      entries.foldl (fun acc e => set e.1 e.2 acc) acc = acc ++ entries := by
    intro entries
    induction entries with
    | nil => exact fun acc _ => (List.append_nil acc).symm
    | cons first rest ih =>
      intro acc hacc
      have hfresh : first.1 ∉ keys acc := by
        unfold keys at hacc
        rw [List.map_append, List.nodup_append] at hacc
        exact fun hmem => hacc.2.2 _ hmem _ (List.mem_cons_self ..) rfl
      rw [List.foldl_cons, set_of_not_mem hfresh, ih _ (by simpa using hacc), List.append_assoc,
        List.singleton_append]
  exact hfold entries [] h

/-- A pair with a key that no other pair has is found under it. -/
theorem get?_eq_some_iff {entries : List (String × α)} (h : (keys entries).Nodup) {key : String}
    {value : α} : get? key entries = some value ↔ (key, value) ∈ entries := by
  refine ⟨mem_of_get?, fun hmem => ?_⟩
  induction entries with
  | nil => cases hmem
  | cons e rest ih =>
    obtain ⟨hfirst, hrest⟩ := List.nodup_cons.mp h
    rw [get?]
    rcases List.mem_cons.mp hmem with rfl | hmem
    · exact if_pos rfl
    · rw [if_neg, ih hrest hmem]
      rintro rfl
      exact hfirst (List.mem_map_of_mem (f := (·.1)) hmem)

/-- Items are found by their keys where these are all different. -/
theorem find?_eq_some_iff {key : α → String} {xs : List α} (h : (xs.map key).Nodup) {name : String}
    {x : α} : xs.find? (fun x => key x == name) = some x ↔ x ∈ xs ∧ key x = name := by
  constructor
  · intro hfind
    exact ⟨List.mem_of_find?_eq_some hfind,
      beq_iff_eq.mp (List.find?_some (p := fun x => key x == name) hfind)⟩
  · rintro ⟨hmem, rfl⟩
    cases hfind : xs.find? fun y => key y == key x with
    | none => exact absurd (beq_self_eq_true (key x)) (List.find?_eq_none.mp hfind x hmem)
    | some y =>
      have hkey : key y = key x :=
        beq_iff_eq.mp (List.find?_some (p := fun y => key y == key x) hfind)
      rw [List.inj_on_of_nodup_map h (List.mem_of_find?_eq_some hfind) hmem hkey]

/-- Of several settings of one key the last one stays. -/
theorem get?_foldl_set (key : α → String) (xs : List α) (entries : List (String × α))
    (name : String) : get? name (xs.foldl (fun acc x => set (key x) x acc) entries) =
      (xs.reverse.find? fun x => key x == name).or (get? name entries) := by
  induction xs using List.reverseRecOn with
  | nil => rfl
  | append_singleton xs x ih =>
    rw [List.foldl_concat, List.reverse_append, List.reverse_singleton, List.singleton_append]
    by_cases hname : key x = name
    · rw [List.find?_cons_of_pos (p := fun x => key x == name) (beq_iff_eq.mpr hname), ← hname,
        get?_set_self, Option.some_or]
    · rw [List.find?_cons_of_neg (p := fun x => key x == name) (mt beq_iff_eq.mp hname),
        get?_set_ne (Ne.symm hname), ih]

end Keyed

namespace Value

open Number Text

/-- Induction over a value: what holds of all items holds of their list, and what holds of all
fields of their record. -/
@[elab_as_elim] theorem nested_induction {motive : Value → Prop} (v : Value)
    (null : motive .null) (bool : ∀ b, motive (.bool b)) (int : ∀ n, motive (.int n))
    (float : ∀ x, motive (.float x)) (text : ∀ s, motive (.text s))
    (list : ∀ items, (∀ v ∈ items, motive v) → motive (.list items))
    (record : ∀ fields, (∀ f ∈ fields, motive f.2) → motive (.record fields)) : motive v :=
  @Value.rec motive (fun items => ∀ v ∈ items, motive v) (fun fields => ∀ f ∈ fields, motive f.2)
    (fun f => motive f.2) null bool int float text list record nofun
    (fun _ _ hfirst hrest => List.forall_mem_cons.mpr ⟨hfirst, hrest⟩) nofun
    (fun _ _ hfirst hrest => List.forall_mem_cons.mpr ⟨hfirst, hrest⟩) (fun _ _ h => h) v

theorem levels_pos (v : Value) : 0 < v.levels := by
  cases v <;> exact Nat.succ_pos _

theorem itemLevels_le {items : List Value} {n : Nat} :
    itemLevels items ≤ n ↔ ∀ v ∈ items, v.levels ≤ n := by
  induction items with
  | nil => simp [itemLevels]
  | cons v rest ih => rw [itemLevels, Nat.max_le, ih, List.forall_mem_cons]

theorem fieldLevels_le {fields : Fields} {n : Nat} :
    fieldLevels fields ≤ n ↔ ∀ f ∈ fields, f.2.levels ≤ n := by
  induction fields with
  | nil => simp [fieldLevels]
  | cons f rest ih => rw [fieldLevels, Nat.max_le, ih, List.forall_mem_cons]

/-! The texts in a value. -/

mutual

/-- The texts in a value, keys included. -/
def texts : Value → List String
  | .text s => [s]
  | .list items => itemTexts items
  | .record fields => fieldTexts fields
  | _ => []

def itemTexts : List Value → List String
  | [] => []
  | v :: rest => texts v ++ itemTexts rest

def fieldTexts : List (String × Value) → List String
  | [] => []
  | (k, v) :: rest => k :: (texts v ++ fieldTexts rest)

end

theorem mem_texts_list {items : List Value} {s : String} :
    s ∈ texts (.list items) ↔ ∃ v ∈ items, s ∈ v.texts := by
  change s ∈ itemTexts items ↔ _
  induction items with
  | nil => simp [itemTexts]
  | cons v rest ih => simp [itemTexts, ih]

theorem mem_texts_record {fields : Fields} {s : String} :
    s ∈ texts (.record fields) ↔ ∃ f ∈ fields, s = f.1 ∨ s ∈ f.2.texts := by
  change s ∈ fieldTexts fields ↔ _
  induction fields with
  | nil => simp [fieldTexts]
  | cons f rest ih => simp [fieldTexts, ih, or_assoc]

/-- No text in a value has halves. -/
def Whole (v : Value) : Prop := ∀ s ∈ v.texts, hasHalves s = false

theorem whole_text {s : String} : Whole (.text s) ↔ hasHalves s = false :=
  List.forall_mem_singleton

theorem whole_list {items : List Value} : Whole (.list items) ↔ ∀ v ∈ items, v.Whole := by
  unfold Whole
  simp only [mem_texts_list]
  exact ⟨fun h v hv s hs => h s ⟨v, hv, hs⟩, fun h s ⟨v, hv, hs⟩ => h v hv s hs⟩

theorem whole_record {fields : Fields} :
    Whole (.record fields) ↔ ∀ f ∈ fields, hasHalves f.1 = false ∧ f.2.Whole := by
  unfold Whole
  simp only [mem_texts_record]
  refine ⟨fun h f hf => ⟨h f.1 ⟨f, hf, Or.inl rfl⟩, fun s hs => h s ⟨f, hf, Or.inr hs⟩⟩, ?_⟩
  rintro h s ⟨f, hf, rfl | hs⟩
  · exact (h f hf).1
  · exact (h f hf).2 s hs

/-! Values that JSON can hold. -/

mutual

/-- Whether a value can be written and read again: its integers have not too many digits, and its
doubles are finite. -/
def Legible : Value → Prop
  | .int n => isTooLong n = false
  | .float x => x.isNaN = false ∧ x.isInfinite = false
  | .list items => LegibleItems items
  | .record fields => LegibleFields fields
  | _ => True

def LegibleItems : List Value → Prop
  | [] => True
  | v :: rest => Legible v ∧ LegibleItems rest

def LegibleFields : List (String × Value) → Prop
  | [] => True
  | (_, v) :: rest => Legible v ∧ LegibleFields rest

end

theorem legible_list {items : List Value} : Legible (.list items) ↔ ∀ v ∈ items, v.Legible := by
  change LegibleItems items ↔ _
  induction items with
  | nil => simp [LegibleItems]
  | cons v rest ih => rw [LegibleItems, ih, List.forall_mem_cons]

theorem legible_record {fields : Fields} :
    Legible (.record fields) ↔ ∀ f ∈ fields, f.2.Legible := by
  change LegibleFields fields ↔ _
  induction fields with
  | nil => simp [LegibleFields]
  | cons f rest ih => rw [LegibleFields, ih, List.forall_mem_cons]

mutual

/-- What a reader of JSON gives: integers that have not too many digits, and records that have no
key twice. -/
def Sound : Value → Prop
  | .int n => isTooLong n = false
  | .list items => SoundItems items
  | .record fields => (Keyed.keys fields).Nodup ∧ SoundFields fields
  | _ => True

def SoundItems : List Value → Prop
  | [] => True
  | v :: rest => Sound v ∧ SoundItems rest

def SoundFields : List (String × Value) → Prop
  | [] => True
  | (_, v) :: rest => Sound v ∧ SoundFields rest

end

theorem sound_list {items : List Value} : Sound (.list items) ↔ ∀ v ∈ items, v.Sound := by
  change SoundItems items ↔ _
  induction items with
  | nil => simp [SoundItems]
  | cons v rest ih => rw [SoundItems, ih, List.forall_mem_cons]

theorem sound_record {fields : Fields} : Sound (.record fields) ↔
    (Keyed.keys fields).Nodup ∧ ∀ f ∈ fields, f.2.Sound := by
  have hfields : SoundFields fields ↔ ∀ f ∈ fields, f.2.Sound := by
    induction fields with
    | nil => simp [SoundFields]
    | cons f rest ih => rw [SoundFields, ih, List.forall_mem_cons]
  rw [Sound, hfields]

mutual

/-- A value in which every record keeps one value for each key. -/
def collapse : Value → Value
  | .list items => .list (collapseItems items)
  | .record fields => .record (Keyed.ofList (collapseFields fields))
  | v => v

def collapseItems : List Value → List Value
  | [] => []
  | v :: rest => collapse v :: collapseItems rest

def collapseFields : List (String × Value) → List (String × Value)
  | [] => []
  | (k, v) :: rest => (k, collapse v) :: collapseFields rest

end

theorem collapse_list (items : List Value) :
    collapse (.list items) = .list (items.map collapse) := by
  have hitems : collapseItems items = items.map collapse := by
    induction items with
    | nil => rfl
    | cons v rest ih => rw [collapseItems, ih, List.map_cons]
  rw [collapse, hitems]

theorem collapse_record (fields : Fields) : collapse (.record fields) =
    .record (Keyed.ofList (fields.map fun f => (f.1, f.2.collapse))) := by
  have hfields : collapseFields fields = fields.map fun f => (f.1, f.2.collapse) := by
    induction fields with
    | nil => rfl
    | cons f rest ih => rw [collapseFields, ih, List.map_cons]
  rw [collapse, hfields]

/-- A value whose records have no key twice is kept as it is. -/
theorem collapse_of_sound {v : Value} (h : v.Sound) : v.collapse = v := by
  induction v using nested_induction with
  | null | bool | int | float | text => rfl
  | list items ih =>
    rw [collapse_list, List.map_congr_left fun v hv => ih v hv (sound_list.mp h v hv),
      List.map_id']
  | record fields ih =>
    obtain ⟨hnodup, hfields⟩ := sound_record.mp h
    have hsame : (fields.map fun f => (f.1, f.2.collapse)) = fields := by
      rw [List.map_congr_left (g := id) fun f hf => by rw [ih f hf (hfields f hf)]; rfl,
        List.map_id]
    rw [collapse_record, hsame, Keyed.ofList_of_nodup hnodup]

end Value

end Runbook
