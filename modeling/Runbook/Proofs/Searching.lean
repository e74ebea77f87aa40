import Mathlib.Data.List.Induction
import Mathlib.Data.List.Nodup
import Runbook.Keyed
import Runbook.Proofs.Reachability

/-!
The search for reachable states while it goes on. Every turn takes one state from the front of the
queue, and a state that is followed puts its successors at the end, so that the queue may grow. A
search of its own accord comes to an end all the same: after no more turns than there are starts and
transitions, and with no other result than the states that paths lead to, each of them once.
-/
namespace Runbook.Workflow.Definition

variable {d : Definition}

/-- A search that is left to go on until its queue is empty, the number of its turns, and what it
has found then. -/
inductive Searches (d : Definition) : List String → List String → Nat → List String → Prop
  | stops (seen : List String) : Searches d [] seen 0 seen
  | skips {id : String} {queue seen found : List String} {turns : Nat} (hseen : id ∈ seen)
      (hrest : Searches d queue seen turns found) : Searches d (id :: queue) seen (turns + 1) found
  | follows {id : String} {queue seen found : List String} {turns : Nat} (hnew : id ∉ seen)
      (hrest : Searches d (queue ++ d.successors id) (seen ++ [id]) turns found) :
      Searches d (id :: queue) seen (turns + 1) found

theorem Searches.unique {queue seen found other : List String} {turns count : Nat}
    (h : d.Searches queue seen turns found) (hother : d.Searches queue seen count other) :
    count = turns ∧ other = found := by
  induction h generalizing count with
  | stops =>
    cases hother
    exact ⟨rfl, rfl⟩
  | skips hseen _ ih =>
    cases hother with
    | skips _ hrest => exact (ih hrest).imp_left (congrArg (· + 1))
    | follows hnew => exact absurd hseen hnew
  | follows hnew _ ih =>
    cases hother with
    | skips hseen => exact absurd hseen hnew
    | follows _ hrest => exact (ih hrest).imp_left (congrArg (· + 1))

/-- With a turn for every state in the queue and every transition not yet explored, a search has
turns enough. -/
theorem exists_searches {fuel : Nat} {queue seen : List String}
    (hfuel : queue.length + d.unexplored seen ≤ fuel) :
    ∃ turns ≤ fuel, d.Searches queue seen turns (d.search fuel queue seen) := by
  fun_induction search d fuel queue seen with
  | case1 fuel seen => exact ⟨0, Nat.zero_le fuel, .stops seen⟩
  | case2 => simp at hfuel
  | case3 fuel id queue seen hseen ih =>
    simp only [List.length_cons] at hfuel
    obtain ⟨turns, hturns, hrest⟩ := ih (by omega)
    exact ⟨turns + 1, Nat.succ_le_succ hturns, .skips (by simpa using hseen) hrest⟩
  | case4 fuel id queue seen hseen ih =>
    have hnew : id ∉ seen := by simpa using hseen
    have hexplored := d.unexplored_append hnew
    have hsuccessors := d.length_successors_le id
    simp only [List.length_cons] at hfuel
    obtain ⟨turns, hturns, hrest⟩ := ih (by simp only [List.length_append]; omega)
    exact ⟨turns + 1, Nat.succ_le_succ hturns, .follows hnew hrest⟩

/-- A search follows no state twice. -/
theorem Searches.nodup {queue seen found : List String} {turns : Nat}
    (h : d.Searches queue seen turns found) (hseen : seen.Nodup) : found.Nodup := by
  induction h with
  | stops => exact hseen
  | skips _ _ ih => exact ih hseen
  | follows hnew _ ih =>
    refine ih (List.nodup_append.mpr ⟨hseen, List.nodup_singleton _, fun a ha b hb heq => ?_⟩)
    exact hnew (List.mem_singleton.mp hb ▸ heq ▸ ha)

theorem searches_reachableFrom (d : Definition) (starts : List String) :
    ∃ turns ≤ starts.length + d.transitions.length,
      d.Searches starts [] turns (d.reachableFrom starts) :=
  exists_searches (Nat.add_le_add_left List.countP_le_length _)

/-! Successors. -/

/-- Where some transitions lead from a state, in the order of the first one to each target. -/
def targetsFrom (id : String) (ts : List Transition) : List String :=
  ((ts.filter fun t => t.source == id).map Transition.target).foldl addNew []

/-- How many transitions stand before the first one that leads from one state to another. -/
def firstLeading (source target : String) (ts : List Transition) : Nat :=
  ts.findIdx fun t => t.source == source && t.target == target

theorem targetsFrom_concat (id : String) (ts : List Transition) (t : Transition) :
    targetsFrom id (ts ++ [t]) =
      if t.source = id then addNew (targetsFrom id ts) t.target else targetsFrom id ts := by
  unfold targetsFrom
  rw [List.filter_append]
  split
  · rename_i hsource
    rw [List.filter_cons_of_pos (by simpa using hsource), List.map_append, List.foldl_append]
    rfl
  · rename_i hsource
    rw [List.filter_cons_of_neg (by simpa using hsource), List.filter_nil, List.append_nil]

theorem mem_targetsFrom {source target : String} {ts : List Transition} :
    target ∈ targetsFrom source ts ↔ ∃ t ∈ ts, t.source = source ∧ t.target = target := by
  unfold targetsFrom
  rw [mem_foldl_addNew]
  simp [and_assoc]

theorem firstLeading_lt {source target : String} {ts : List Transition}
    (h : target ∈ targetsFrom source ts) : firstLeading source target ts < ts.length := by
  obtain ⟨t, ht, rfl, rfl⟩ := mem_targetsFrom.mp h
  exact List.findIdx_lt_length_of_exists ⟨t, ht, by simp⟩

/-- A further transition comes behind those that lead to a target already. -/
theorem firstLeading_concat {source target : String} {ts : List Transition}
    (h : target ∈ targetsFrom source ts) (t : Transition) :
    firstLeading source target (ts ++ [t]) = firstLeading source target ts := by
  have hlt := firstLeading_lt h
  unfold firstLeading at hlt ⊢
  rw [List.findIdx_append, if_pos hlt]

/-- Targets stand in the order of the first transitions to them, each of them once. -/
theorem pairwise_targetsFrom (source : String) (ts : List Transition) :
    (targetsFrom source ts).Pairwise fun a b =>
      firstLeading source a ts < firstLeading source b ts := by
  induction ts using List.reverseRecOn with
  | nil => exact List.Pairwise.nil
  | append_singleton ts t ih =>
    have hkept : (targetsFrom source ts).Pairwise fun a b =>
        firstLeading source a (ts ++ [t]) < firstLeading source b (ts ++ [t]) := by
      refine ih.imp_of_mem fun ha hb hlt => ?_
      rwa [firstLeading_concat ha, firstLeading_concat hb]
    rw [targetsFrom_concat]
    split
    · rename_i hsource
      unfold addNew
      split
      · exact hkept
      · rename_i hmet
        have hfirst : ts.length ≤ firstLeading source t.target (ts ++ [t]) := by
          unfold firstLeading
          rw [List.findIdx_append, if_neg]
          · exact Nat.le_add_left ..
          · intro hlt
            obtain ⟨u, hu, hleads⟩ := List.findIdx_lt_length.mp hlt
            rw [Bool.and_eq_true, beq_iff_eq, beq_iff_eq] at hleads
            exact hmet (List.contains_iff_mem.mpr (mem_targetsFrom.mpr ⟨u, hu, hleads⟩))
        refine List.pairwise_append.mpr ⟨hkept, List.pairwise_singleton .., ?_⟩
        intro a ha b hb
        rw [List.mem_singleton.mp hb, firstLeading_concat ha]
        exact Nat.lt_of_lt_of_le (firstLeading_lt ha) hfirst
    · exact hkept

/-- The successors of all states as one pass over the transitions collects them. -/
def successorTable (ts : List Transition) : List (String × List String) :=
  ts.foldl (fun table t =>
    Keyed.set t.source (addNew ((Keyed.get? t.source table).getD []) t.target) table) []

theorem get?_successorTable (ts : List Transition) (id : String) :
    (Keyed.get? id (successorTable ts)).getD [] = targetsFrom id ts := by
  induction ts using List.reverseRecOn generalizing id with
  | nil => rfl
  | append_singleton ts t ih =>
    unfold successorTable at ih ⊢
    rw [List.foldl_concat, targetsFrom_concat]
    split
    · rename_i hsource
      rw [← hsource, Keyed.get?_set_self, ih]
      rfl
    · rename_i hsource
      rw [Keyed.get?_set_ne (Ne.symm hsource), ih]

/-- The targets of the transitions out of a state, each once and in the order of the first
transition to it, as they are also found in the table that one pass over the transitions makes. -/
structure Lists (d : Definition) (id : String) (targets : List String) : Prop where
  mem : ∀ target, target ∈ targets ↔ ∃ t ∈ d.transitions, t.source = id ∧ t.target = target
  nodup : targets.Nodup
  ordered : targets.Pairwise fun a b =>
    firstLeading id a d.transitions < firstLeading id b d.transitions
  tabled : (Keyed.get? id (successorTable d.transitions)).getD [] = targets

theorem lists_successors (d : Definition) (id : String) : d.Lists id (d.successors id) := by
  have hordered := pairwise_targetsFrom id d.transitions
  exact ⟨fun target => mem_targetsFrom, hordered.imp fun hlt heq => absurd (heq ▸ hlt)
    (Nat.lt_irrefl _), hordered, get?_successorTable d.transitions id⟩

/-- Whatever the transitions of a definition and the starts are: the search comes to an end, after
no more turns than there are starts and transitions; it finds exactly the states to which a path
leads from a start, each once; one state can reach another exactly if a path leads there; and the
successors of a state are listed in the order of its transitions. -/
theorem search_finds (d : Definition) (starts : List String) :
    (∃ turns ≤ starts.length + d.transitions.length,
      d.Searches starts [] turns (d.reachableFrom starts) ∧
      ∀ count found, d.Searches starts [] count found →
        count = turns ∧ found = d.reachableFrom starts) ∧
    (d.reachableFrom starts).Nodup ∧
    (∀ id, id ∈ d.reachableFrom starts ↔ ∃ start ∈ starts, d.Reaches start id) ∧
    (∀ a b, d.canReach a b = true ↔ d.Reaches a b) ∧
    ∀ id, d.Lists id (d.successors id) := by
  obtain ⟨turns, hturns, hsearches⟩ := d.searches_reachableFrom starts
  refine ⟨⟨turns, hturns, hsearches, fun count found => hsearches.unique⟩,
    hsearches.nodup List.nodup_nil, fun id => mem_reachableFrom, fun a b => canReach_iff,
    d.lists_successors⟩

end Runbook.Workflow.Definition
