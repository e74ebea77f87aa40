import Mathlib.Logic.Relation
import Mathlib.Tactic.ByContra
import Runbook.Workflow.Definition

/-!
The search for reachable states finds exactly the states that paths lead to. Its fuel is enough:
every state that is followed uses up the transitions out of it, so the queue together with the
transitions not yet explored never outgrows the fuel.
-/
namespace Runbook.Workflow.Definition

/-- A transition leads from one state to another. -/
def Leads (d : Definition) (source target : String) : Prop :=
  ∃ t ∈ d.transitions, t.source = source ∧ t.target = target

/-- A path of transitions, which may be empty, leads from one state to another. -/
def Reaches (d : Definition) : String → String → Prop := Relation.ReflTransGen d.Leads

variable (d : Definition)

theorem Reaches.refl (id : String) : d.Reaches id id := Relation.ReflTransGen.refl

variable {d}

theorem Reaches.trans {a b c : String} (hab : d.Reaches a b) (hbc : d.Reaches b c) :
    d.Reaches a c := Relation.ReflTransGen.trans hab hbc

theorem Reaches.of_leads {a b : String} (h : d.Leads a b) : d.Reaches a b :=
  Relation.ReflTransGen.single h

theorem Reaches.head {a b c : String} (hab : d.Leads a b) (hbc : d.Reaches b c) :
    d.Reaches a c := Relation.ReflTransGen.head hab hbc

theorem Reaches.eq_or_head {a b : String} (h : d.Reaches a b) :
    a = b ∨ ∃ next, d.Leads a next ∧ d.Reaches next b := Relation.ReflTransGen.cases_head h

/-- No state leads along transitions back to itself. -/
def Acyclic (d : Definition) : Prop := ∀ a b, d.Leads a b → ¬ d.Reaches b a

theorem Acyclic.antisymm (h : d.Acyclic) {a b : String} (hab : d.Reaches a b)
    (hba : d.Reaches b a) : a = b := by
  rcases hab.eq_or_head with heq | ⟨next, hleads, hpath⟩
  · exact heq
  · exact absurd (hpath.trans hba) (h a next hleads)

theorem mem_foldl_addNew {seen ids : List String} {id : String} :
    id ∈ ids.foldl addNew seen ↔ id ∈ seen ∨ id ∈ ids := by
  induction ids generalizing seen with
  | nil => simp
  | cons next rest ih =>
    rw [List.foldl_cons, ih]
    by_cases h : next ∈ seen
    · have hs : addNew seen next = seen := by simp [addNew, h]
      rw [hs, List.mem_cons]
      constructor
      · intro hcase
        rcases hcase with hseen | hrest
        · exact Or.inl hseen
        · exact Or.inr (Or.inr hrest)
      · intro hcase
        rcases hcase with hseen | rfl | hrest
        · exact Or.inl hseen
        · exact Or.inl h
        · exact Or.inr hrest
    · have hs : addNew seen next = seen ++ [next] := by simp [addNew, h]
      rw [hs, List.mem_append, List.mem_singleton, List.mem_cons, or_assoc]

theorem length_foldl_addNew_le (seen ids : List String) :
    (ids.foldl addNew seen).length ≤ seen.length + ids.length := by
  induction ids generalizing seen with
  | nil => simp
  | cons next rest ih =>
    have hstep : (addNew seen next).length ≤ seen.length + 1 := by
      unfold addNew
      split
      · omega
      · simp
    have hrest := ih (addNew seen next)
    rw [List.foldl_cons, List.length_cons]
    omega

theorem mem_targets_outgoing {a b : String} :
    b ∈ (d.outgoing a).map Transition.target ↔ d.Leads a b := by
  simp [outgoing, Leads, and_assoc]

theorem mem_successors {a b : String} : b ∈ d.successors a ↔ d.Leads a b := by
  unfold successors
  rw [mem_foldl_addNew, mem_targets_outgoing]
  simp

theorem length_successors_le (a : String) :
    (d.successors a).length ≤ (d.outgoing a).length := by
  have h := length_foldl_addNew_le [] ((d.outgoing a).map Transition.target)
  simpa [successors] using h

/-- How many transitions leave states that have not been followed. -/
def unexplored (d : Definition) (seen : List String) : Nat :=
  d.transitions.countP fun t => !seen.contains t.source

theorem unexplored_append {seen : List String} {id : String} (h : id ∉ seen) :
    d.unexplored (seen ++ [id]) + (d.outgoing id).length = d.unexplored seen := by
  unfold unexplored outgoing
  rw [← List.countP_eq_length_filter]
  induction d.transitions with
  | nil => rfl
  | cons t rest ih =>
    simp only [List.countP_cons]
    by_cases hid : t.source = id
    · subst hid
      have hbefore : (!seen.contains t.source) = true := by simpa using h
      have hafter : (!(seen ++ [t.source]).contains t.source) = false := by simp
      simp only [hbefore, hafter, BEq.rfl, if_true, Bool.false_eq_true, if_false]
      omega
    · have hout : (t.source == id) = false := by simpa using hid
      have hsame : (seen ++ [id]).contains t.source = seen.contains t.source := by
        rw [Bool.eq_iff_iff]
        simp [hid]
      rw [hsame, hout]
      simp only [Bool.false_eq_true, if_false]
      omega

/-- Whatever leads out of a set of states leads into it or into the queue. -/
def ClosedUpTo (d : Definition) (queue seen : List String) : Prop :=
  ∀ a ∈ seen, ∀ b, d.Leads a b → b ∈ seen ∨ b ∈ queue

theorem ClosedUpTo.reaches {queue seen : List String} (h : d.ClosedUpTo queue seen)
    {a b : String} (ha : a ∈ seen) (hab : d.Reaches a b) :
    b ∈ seen ∨ ∃ start ∈ queue, d.Reaches start b := by
  induction hab using Relation.ReflTransGen.head_induction_on with
  | refl => exact Or.inl ha
  | head hstep hpath ih =>
    rcases h _ ha _ hstep with hseen | hqueue
    · exact ih hseen
    · exact Or.inr ⟨_, hqueue, hpath⟩

theorem ClosedUpTo.follow {queue seen : List String} {id : String}
    (h : d.ClosedUpTo (id :: queue) seen) :
    d.ClosedUpTo (queue ++ d.successors id) (seen ++ [id]) := by
  intro a ha b hab
  rw [List.mem_append, List.mem_append, mem_successors, List.mem_singleton]
  rcases List.mem_append.mp ha with hseen | hid
  · rcases h a hseen b hab with hb | hb
    · exact Or.inl (Or.inl hb)
    · rcases List.mem_cons.mp hb with rfl | hb
      · exact Or.inl (Or.inr rfl)
      · exact Or.inr (Or.inl hb)
  · rw [List.mem_singleton.mp hid] at hab
    exact Or.inr (Or.inr hab)

theorem reaches_iff_eq_or_successor {a b : String} :
    d.Reaches a b ↔ b = a ∨ ∃ next ∈ d.successors a, d.Reaches next b := by
  constructor
  · intro h
    rcases h.eq_or_head with rfl | ⟨next, hstep, hpath⟩
    · exact Or.inl rfl
    · exact Or.inr ⟨next, mem_successors.mpr hstep, hpath⟩
  · intro hcase
    rcases hcase with rfl | ⟨next, hnext, hpath⟩
    · exact Reaches.refl d b
    · exact Reaches.head (mem_successors.mp hnext) hpath

/-- With enough fuel a search finds what it has seen and whatever the queue leads to. -/
theorem mem_search {fuel : Nat} {queue seen : List String} {id : String}
    (hfuel : queue.length + d.unexplored seen ≤ fuel) (hclosed : d.ClosedUpTo queue seen) :
    id ∈ d.search fuel queue seen ↔ id ∈ seen ∨ ∃ start ∈ queue, d.Reaches start id := by
  fun_induction search d fuel queue seen with
  | case1 => simp
  | case2 => simp at hfuel
  | case3 fuel next queue seen hseen ih =>
    have hnext : next ∈ seen := by simpa using hseen
    have hrest : d.ClosedUpTo queue seen := by
      intro a ha b hab
      rcases hclosed a ha b hab with hb | hb
      · exact Or.inl hb
      · rcases List.mem_cons.mp hb with rfl | hb
        · exact Or.inl hnext
        · exact Or.inr hb
    rw [ih (by simp only [List.length_cons] at hfuel; omega) hrest]
    constructor
    · intro hcase
      rcases hcase with hid | ⟨start, hstart, hpath⟩
      · exact Or.inl hid
      · exact Or.inr ⟨start, List.mem_cons_of_mem _ hstart, hpath⟩
    · intro hcase
      rcases hcase with hid | ⟨start, hstart, hpath⟩
      · exact Or.inl hid
      · rcases List.mem_cons.mp hstart with rfl | hstart
        · exact hrest.reaches hnext hpath
        · exact Or.inr ⟨start, hstart, hpath⟩
  | case4 fuel next queue seen hseen ih =>
    have hnext : next ∉ seen := by simpa using hseen
    have hexplored := d.unexplored_append hnext
    have hsuccessors := d.length_successors_le next
    rw [ih (by simp only [List.length_cons, List.length_append] at *; omega) hclosed.follow]
    constructor
    · intro hcase
      rcases hcase with hid | ⟨start, hstart, hpath⟩
      · rcases List.mem_append.mp hid with hid | hid
        · exact Or.inl hid
        · rw [List.mem_singleton.mp hid]
          exact Or.inr ⟨next, List.mem_cons_self .., Reaches.refl d next⟩
      · rcases List.mem_append.mp hstart with hstart | hstart
        · exact Or.inr ⟨start, List.mem_cons_of_mem _ hstart, hpath⟩
        · exact Or.inr ⟨next, List.mem_cons_self .., Reaches.head (mem_successors.mp hstart) hpath⟩
    · intro hcase
      rcases hcase with hid | ⟨start, hstart, hpath⟩
      · exact Or.inl (List.mem_append_left _ hid)
      · rcases List.mem_cons.mp hstart with rfl | hstart
        · rcases reaches_iff_eq_or_successor.mp hpath with rfl | ⟨succ, hsucc, hrest⟩
          · exact Or.inl (List.mem_append_right _ (List.mem_singleton.mpr rfl))
          · exact Or.inr ⟨succ, List.mem_append_right _ hsucc, hrest⟩
        · exact Or.inr ⟨start, List.mem_append_left _ hstart, hpath⟩

theorem mem_reachableFrom {starts : List String} {id : String} :
    id ∈ d.reachableFrom starts ↔ ∃ start ∈ starts, d.Reaches start id := by
  have hclosed : d.ClosedUpTo starts [] := by
    intro a ha
    simp at ha
  have hfuel : starts.length + d.unexplored [] ≤ starts.length + d.transitions.length :=
    Nat.add_le_add_left List.countP_le_length _
  unfold reachableFrom
  rw [mem_search hfuel hclosed]
  simp

theorem canReach_iff {source target : String} :
    d.canReach source target = true ↔ d.Reaches source target := by
  unfold canReach
  rw [List.contains_iff_mem, mem_reachableFrom]
  simp

/-- Whether there is a cycle is decided by a search from the end of every transition. -/
theorem acyclic_iff : d.Acyclic ↔ ∀ t ∈ d.transitions, d.canReach t.target t.source = false := by
  constructor
  · intro h t ht
    rw [Bool.eq_false_iff, Ne, canReach_iff]
    exact h t.source t.target ⟨t, ht, rfl, rfl⟩
  · intro h a b hleads hpath
    obtain ⟨t, ht, rfl, rfl⟩ := hleads
    have hnone := h t ht
    rw [canReach_iff.mpr hpath] at hnone
    cases hnone

instance (d : Definition) : Decidable d.Acyclic := decidable_of_iff' _ acyclic_iff

/-- Among some states there is one that reaches whichever of them reach it. -/
theorem exists_first_among {ids : List String} (hne : ids ≠ []) :
    ∃ a ∈ ids, ∀ b ∈ ids, d.Reaches b a → d.Reaches a b := by
  induction ids with
  | nil => exact absurd rfl hne
  | cons next rest ih =>
    by_cases hrest : rest = []
    · subst hrest
      refine ⟨next, List.mem_cons_self .., ?_⟩
      intro b hb _
      rw [List.mem_singleton.mp hb]
      exact Reaches.refl d next
    obtain ⟨a, ha, hfirst⟩ := ih hrest
    by_cases hnext : d.Reaches next a → d.Reaches a next
    · refine ⟨a, List.mem_cons_of_mem _ ha, ?_⟩
      intro b hb hba
      rcases List.mem_cons.mp hb with rfl | hb
      · exact hnext hba
      · exact hfirst b hb hba
    -- the new state reaches the first one so far without being reached by it
    · have hna : d.Reaches next a := by
        by_contra hno
        exact hnext fun h => absurd h hno
      refine ⟨next, List.mem_cons_self .., ?_⟩
      intro b hb hbn
      rcases List.mem_cons.mp hb with rfl | hb
      · exact Reaches.refl d b
      · exact hna.trans (hfirst b hb (hbn.trans hna))

end Runbook.Workflow.Definition
