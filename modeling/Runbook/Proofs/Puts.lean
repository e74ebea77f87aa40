import Mathlib.Data.List.Sort
import Runbook.Proofs.StoredRuns

/-!
What a sequence of puts leaves. Every identifier has one run, the one that was put last, and it has
the place of the run that was put first. In a listing the runs stand by the times at which they were
made, and those of one time stay in their order. There is one such listing for each sequence.
-/
namespace Runbook

/-- A stable sort keeps what holds of earlier and later items for those that it does not tell apart.
-/
theorem pairwise_mergeSort_of_pairwise {α : Type} {le : α → α → Bool} {R : α → α → Prop}
    {xs : List α} (htrans : ∀ a b c, le a b = true → le b c = true → le a c = true)
    (htotal : ∀ a b, (le a b || le b a) = true) (h : xs.Pairwise R) :
    (xs.mergeSort le).Pairwise fun a b => le a b = true ∧ (le b a = true → R a b) := by
  have hsorted : (xs.zipIdx.mergeSort (List.zipIdxLE le)).Pairwise fun a b =>
      List.zipIdxLE le a b = true :=
    List.pairwise_mergeSort (List.zipIdxLE_trans htrans) (List.zipIdxLE_total htotal) _
  have hplaces : (xs.zipIdx.mergeSort (List.zipIdxLE le)).Pairwise fun a b => a.2 ≠ b.2 := by
    have hperm := List.mergeSort_perm xs.zipIdx (List.zipIdxLE le)
    refine (hperm.pairwise_iff fun hne => hne.symm).mpr (List.pairwise_map.mp ?_)
    rw [List.zipIdx_map_snd]
    exact List.nodup_range'
  rw [← List.mergeSort_zipIdx, List.pairwise_map]
  refine (hsorted.and hplaces).imp_of_mem ?_
  rintro ⟨a, i⟩ ⟨b, j⟩ ha hb ⟨hle, hne⟩
  have hfound : ∀ {c : α} {k : Nat}, (c, k) ∈ xs.zipIdx.mergeSort (List.zipIdxLE le) →
      xs[k]? = some c := fun hc => by
    rw [← List.mk_mem_zipIdx_iff_getElem?]
    exact List.mem_mergeSort.mp hc
  obtain ⟨hi, rfl⟩ := List.getElem?_eq_some_iff.mp (hfound ha)
  obtain ⟨hj, rfl⟩ := List.getElem?_eq_some_iff.mp (hfound hb)
  unfold List.zipIdxLE at hle
  split at hle
  · rename_i hforth
    refine ⟨hforth, fun hback => ?_⟩
    rw [if_pos hback, decide_eq_true_eq] at hle
    exact List.pairwise_iff_getElem.mp h i j hi hj (Nat.lt_of_le_of_ne hle hne)
  · cases hle

namespace Workflow.Store

variable {puts kept rs rs' : List Run} {r : Run} {id : String}

/-- The run that was put last under an identifier. -/
def latest? (puts : List Run) (id : String) : Option Run := puts.reverse.find? fun r => r.id == id

/-- How many puts came before the first one under an identifier. -/
def firstPut (puts : List Run) (id : String) : Nat := puts.findIdx fun r => r.id == id

/-- A listing after some puts: for each identifier the run that was put last, in the order of the
times at which the runs were made, and for one time in the order in which their identifiers came. -/
structure Lists (puts rs : List Run) : Prop where
  once : (rs.map Run.id).Nodup
  latest : ∀ r, r ∈ rs ↔ latest? puts r.id = some r
  ordered : rs.Pairwise fun a b => a.created.orderKey < b.created.orderKey ∨
    a.created.orderKey = b.created.orderKey ∧ firstPut puts a.id < firstPut puts b.id

/-- There is no other listing. -/
theorem Lists.unique (h : Lists puts rs) (h' : Lists puts rs') : rs = rs' := by
  have hperm : rs.Perm rs' := by
    refine (List.perm_ext_iff_of_nodup h.once.of_map h'.once.of_map).mpr fun r => ?_
    rw [h.latest, h'.latest]
  refine hperm.eq_of_pairwise (fun a b _ _ hab hba => ?_) h.ordered h'.ordered
  omega

/-- What is kept after some puts. -/
def keptAfter (puts : List Run) : List Run := puts.foldl (fun kept r => replaceFirst r kept) []

theorem keptAfter_concat (puts : List Run) (r : Run) :
    keptAfter (puts ++ [r]) = replaceFirst r (keptAfter puts) := List.foldl_concat ..

/-! Which runs are kept. -/

theorem find?_replaceFirst_eq (r : Run) (kept : List Run) (id : String) :
    (replaceFirst r kept).find? (fun q => q.id == id) =
      if r.id = id then some r else kept.find? fun q => q.id == id := by
  have hcons : ∀ (q : Run) (rest : List Run), (q :: rest).find? (fun q => q.id == id) =
      if q.id = id then some q else rest.find? fun q => q.id == id := by
    intro q rest
    split
    · rename_i hid
      exact List.find?_cons_of_pos (beq_iff_eq.mpr hid)
    · rename_i hid
      exact List.find?_cons_of_neg (mt beq_iff_eq.mp hid)
  induction kept with
  | nil => exact hcons r []
  | cons q rest ih =>
    unfold replaceFirst
    by_cases hsame : q.id = r.id
    · rw [if_pos hsame, hcons, hcons, hsame]
      split <;> rfl
    · rw [if_neg hsame, hcons, ih, hcons]
      by_cases hid : r.id = id
      · rw [if_pos hid, if_pos hid, if_neg (hid ▸ hsame)]
      · rw [if_neg hid, if_neg hid]

theorem latest?_concat (puts : List Run) (r : Run) (id : String) :
    latest? (puts ++ [r]) id = if r.id = id then some r else latest? puts id := by
  unfold latest?
  rw [List.reverse_append, List.reverse_singleton, List.singleton_append]
  split
  · rename_i hid
    exact List.find?_cons_of_pos (beq_iff_eq.mpr hid)
  · rename_i hid
    exact List.find?_cons_of_neg (mt beq_iff_eq.mp hid)

/-- The run that is found under an identifier is the one that was put last. -/
theorem find?_keptAfter (puts : List Run) (id : String) :
    (keptAfter puts).find? (fun r => r.id == id) = latest? puts id := by
  induction puts using List.reverseRecOn with
  | nil => rfl
  | append_singleton puts r ih =>
    rw [keptAfter_concat, find?_replaceFirst_eq, latest?_concat, ih]

theorem mem_of_mem_keptAfter (h : r ∈ keptAfter puts) : r ∈ puts := by
  induction puts using List.reverseRecOn with
  | nil => exact h
  | append_singleton puts q ih =>
    rw [keptAfter_concat] at h
    rw [List.mem_append, List.mem_singleton]
    rcases mem_replaceFirst h with rfl | h
    · exact Or.inr rfl
    · exact Or.inl (ih h)

/-! Where they stand. -/

theorem ids_replaceFirst (r : Run) (kept : List Run) : (replaceFirst r kept).map Run.id =
    if r.id ∈ kept.map Run.id then kept.map Run.id else kept.map Run.id ++ [r.id] := by
  induction kept with
  | nil => rfl
  | cons q rest ih =>
    unfold replaceFirst
    by_cases hsame : q.id = r.id
    · simp [hsame]
    · rw [if_neg hsame, List.map_cons, ih, List.map_cons]
      by_cases hrest : r.id ∈ rest.map Run.id
      · rw [if_pos hrest, if_pos (List.mem_cons_of_mem _ hrest)]
      · rw [if_neg hrest, if_neg (List.not_mem_cons_of_ne_of_not_mem (Ne.symm hsame) hrest),
          List.cons_append]

theorem firstPut_lt_iff : firstPut puts id < puts.length ↔ id ∈ puts.map Run.id := by
  unfold firstPut
  rw [List.findIdx_lt_length]
  simp

theorem mem_ids_keptAfter : id ∈ (keptAfter puts).map Run.id ↔ id ∈ puts.map Run.id := by
  induction puts using List.reverseRecOn with
  | nil => rfl
  | append_singleton puts r ih =>
    have hnew : id ∈ (puts ++ [r]).map Run.id ↔
        id ∈ (keptAfter puts).map Run.id ∨ id = r.id := by
      rw [List.map_append, List.mem_append, ih, List.map_singleton, List.mem_singleton]
    rw [keptAfter_concat, ids_replaceFirst, hnew]
    split
    · rename_i hthere
      refine ⟨Or.inl, ?_⟩
      rintro (hid | rfl)
      · exact hid
      · exact hthere
    · rw [List.mem_append, List.mem_singleton]

/-- The runs that are kept stand in the order in which their identifiers came. -/
theorem pairwise_keptAfter (puts : List Run) :
    ((keptAfter puts).map Run.id).Pairwise fun a b => firstPut puts a < firstPut puts b := by
  induction puts using List.reverseRecOn with
  | nil => exact List.Pairwise.nil
  | append_singleton puts r ih =>
    have hold : ∀ id ∈ (keptAfter puts).map Run.id, firstPut puts id < puts.length ∧
        firstPut (puts ++ [r]) id = firstPut puts id := by
      intro id hid
      have hlt := firstPut_lt_iff.mpr (mem_ids_keptAfter.mp hid)
      refine ⟨hlt, ?_⟩
      unfold firstPut at hlt ⊢
      rw [List.findIdx_append, if_pos hlt]
    have hbefore : ((keptAfter puts).map Run.id).Pairwise fun a b =>
        firstPut (puts ++ [r]) a < firstPut (puts ++ [r]) b := by
      refine ih.imp_of_mem fun ha hb hlt => ?_
      rw [(hold _ ha).2, (hold _ hb).2]
      exact hlt
    rw [keptAfter_concat, ids_replaceFirst]
    split
    · exact hbefore
    · rename_i hnew
      have hlast : puts.length ≤ firstPut (puts ++ [r]) r.id := by
        have hnone := mt firstPut_lt_iff.mp (mt mem_ids_keptAfter.mpr hnew)
        unfold firstPut at hnone ⊢
        rw [List.findIdx_append, if_neg hnone]
        exact Nat.le_add_left ..
      rw [List.pairwise_append]
      refine ⟨hbefore, List.pairwise_singleton .., fun a ha b hb => ?_⟩
      rw [List.mem_singleton.mp hb, (hold a ha).2]
      exact Nat.lt_of_lt_of_le (hold a ha).1 hlast

/-- What is kept after some puts is listed as it should be. -/
theorem lists_keptAfter (puts : List Run) : Lists puts
    ((keptAfter puts).mergeSort fun a b => decide (a.created.orderKey ≤ b.created.orderKey)) := by
  have hperm := List.mergeSort_perm (keptAfter puts) fun a b =>
    decide (a.created.orderKey ≤ b.created.orderKey)
  have hnodup : ((keptAfter puts).map Run.id).Nodup :=
    (pairwise_keptAfter puts).imp fun hlt heq => by
      rw [heq] at hlt
      exact Nat.lt_irrefl _ hlt
  refine ⟨(hperm.map Run.id).nodup_iff.mpr hnodup, fun r => ?_, ?_⟩
  · rw [hperm.mem_iff, ← find?_keptAfter, Keyed.find?_eq_some_iff hnodup]
    exact (and_iff_left rfl).symm
  · refine (pairwise_mergeSort_of_pairwise ?_ ?_
      (List.pairwise_map.mp (pairwise_keptAfter puts))).imp fun ⟨hle, hplace⟩ => ?_
    · intro a b c hab hbc
      rw [decide_eq_true_eq] at hab hbc ⊢
      exact Int.le_trans hab hbc
    · intro a b
      rw [Bool.or_eq_true, decide_eq_true_eq, decide_eq_true_eq]
      exact Int.le_total ..
    · rw [decide_eq_true_eq] at hle
      rcases Int.lt_or_eq_of_le hle with hlt | heq
      · exact Or.inl hlt
      · exact Or.inr ⟨heq, hplace (decide_eq_true (Int.le_of_eq heq.symm))⟩

end Workflow.Store

end Runbook
