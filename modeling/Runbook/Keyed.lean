/-!
Ordered dictionaries as lists of key–value pairs. Setting a key that is present replaces its
value in place; a new key goes to the end. Reading a key gives its first pair, so a list without
repeated keys stays one and reads as a function.
-/
namespace Runbook.Keyed

variable {α β : Type}

def get? (key : String) : List (String × α) → Option α
  | [] => none
  | (k, v) :: rest => if k = key then some v else get? key rest

def has (key : String) (entries : List (String × α)) : Bool := (get? key entries).isSome

def set (key : String) (value : α) : List (String × α) → List (String × α)
  | [] => [(key, value)]
  | (k, v) :: rest => if k = key then (k, value) :: rest else (k, v) :: set key value rest

def erase (key : String) : List (String × α) → List (String × α)
  | [] => []
  | (k, v) :: rest => if k = key then rest else (k, v) :: erase key rest

def keys (entries : List (String × α)) : List String := entries.map (·.1)

/-- The dictionary that a sequence of settings makes. -/
def ofList (entries : List (String × α)) : List (String × α) :=
  entries.foldl (fun acc e => set e.1 e.2 acc) []

/-- The values in increasing order of their keys. -/
def sorted (entries : List (String × α)) : List (String × α) :=
  entries.mergeSort fun a b => decide (a.1 ≤ b.1)

@[simp] theorem get?_nil (key : String) : get? key ([] : List (String × α)) = none := rfl

@[simp] theorem get?_set_self (key : String) (value : α) (entries : List (String × α)) :
    get? key (set key value entries) = some value := by
  induction entries with
  | nil => simp [set, get?]
  | cons e rest ih => by_cases h : e.1 = key <;> simp [set, get?, h, ih]

theorem get?_set_ne {key other : String} (h : other ≠ key) (value : α)
    (entries : List (String × α)) : get? other (set key value entries) = get? other entries := by
  induction entries with
  | nil => simp [set, get?, h.symm]
  | cons e rest ih => by_cases hk : e.1 = key <;> by_cases ho : e.1 = other <;> simp_all [set, get?]

theorem mem_keys_set {key other : String} {value : α} {entries : List (String × α)} :
    other ∈ keys (set key value entries) ↔ other = key ∨ other ∈ keys entries := by
  induction entries with
  | nil => simp [set, keys]
  | cons e rest ih =>
    by_cases hk : e.1 = key
    · simp_all [set, keys]
    · simp_all only [keys, set, List.map_cons, List.mem_cons]
      grind

theorem has_iff_mem_keys {key : String} {entries : List (String × α)} :
    has key entries = true ↔ key ∈ keys entries := by
  induction entries with
  | nil => simp [has, keys]
  | cons e rest ih =>
    by_cases hk : e.1 = key
    · simp_all [has, get?, keys]
    · simp_all only [has, get?, keys, List.map_cons, List.mem_cons]
      grind

theorem nodup_keys_set {key : String} {value : α} {entries : List (String × α)}
    (h : (keys entries).Nodup) : (keys (set key value entries)).Nodup := by
  induction entries with
  | nil => simp [set, keys]
  | cons e rest ih =>
    by_cases hk : e.1 = key
    · simp_all [set, keys]
    · have hr : (keys rest).Nodup := (List.nodup_cons.1 h).2
      have hm : e.1 ∉ keys (set key value rest) := by
        rw [mem_keys_set]
        rintro (he | he)
        · exact hk he
        · exact (List.nodup_cons.1 h).1 he
      simp only [set, if_neg hk]
      exact List.nodup_cons.2 ⟨hm, ih hr⟩

theorem mem_of_get? {key : String} {value : α} {entries : List (String × α)}
    (h : get? key entries = some value) : (key, value) ∈ entries := by
  induction entries with
  | nil => simp at h
  | cons e rest ih =>
    by_cases hk : e.1 = key
    · have hv : e.2 = value := by simpa [get?, hk] using h
      rw [← hk, ← hv]
      exact List.mem_cons_self ..
    · have hrest : get? key rest = some value := by simpa [get?, hk] using h
      exact List.mem_cons_of_mem _ (ih hrest)

theorem eq_or_mem_of_mem_set {key : String} {value : α} {entries : List (String × α)}
    {e : String × α} (h : e ∈ set key value entries) : e = (key, value) ∨ e ∈ entries := by
  induction entries with
  | nil => exact Or.inl (List.mem_singleton.mp h)
  | cons first rest ih =>
    by_cases hk : first.1 = key
    · simp only [set, if_pos hk, List.mem_cons] at h
      rcases h with rfl | h
      · exact Or.inl (by rw [hk])
      · exact Or.inr (List.mem_cons_of_mem _ h)
    · simp only [set, if_neg hk, List.mem_cons] at h
      rcases h with rfl | h
      · exact Or.inr (List.mem_cons_self ..)
      · rcases ih h with h | h
        · exact Or.inl h
        · exact Or.inr (List.mem_cons_of_mem _ h)

theorem has_set {key other : String} {value : α} {entries : List (String × α)} :
    has other (set key value entries) = (decide (other = key) || has other entries) := by
  rw [Bool.eq_iff_iff, has_iff_mem_keys, mem_keys_set]
  simp [has_iff_mem_keys]

theorem sublist_erase (key : String) (entries : List (String × α)) :
    (erase key entries).Sublist entries := by
  induction entries with
  | nil => exact List.Sublist.slnil
  | cons e rest ih =>
    by_cases hk : e.1 = key
    · simp only [erase, if_pos hk]
      exact List.sublist_cons_self ..
    · simp only [erase, if_neg hk]
      exact ih.cons_cons _

theorem nodup_keys_erase {key : String} {entries : List (String × α)}
    (h : (keys entries).Nodup) : (keys (erase key entries)).Nodup :=
  ((sublist_erase key entries).map _).nodup h

theorem has_erase_ne {key other : String} (h : other ≠ key) (entries : List (String × α)) :
    has other (erase key entries) = has other entries := by
  induction entries with
  | nil => rfl
  | cons e rest ih =>
    by_cases hk : e.1 = key
    · simp [erase, has, get?, hk, h.symm]
    · by_cases ho : e.1 = other
      · simp [erase, has, get?, ho, h]
      · simpa [erase, has, get?, hk, ho] using ih

theorem has_erase_self {key : String} {entries : List (String × α)}
    (h : (keys entries).Nodup) : has key (erase key entries) = false := by
  induction entries with
  | nil => rfl
  | cons e rest ih =>
    have hnotin : e.1 ∉ keys rest := (List.nodup_cons.mp h).1
    by_cases hk : e.1 = key
    · simp only [erase, if_pos hk]
      rw [Bool.eq_false_iff, Ne, has_iff_mem_keys, ← hk]
      exact hnotin
    · have hrest : has key (erase key rest) = false := ih (List.nodup_cons.mp h).2
      simpa [erase, has, get?, hk] using hrest

end Runbook.Keyed
