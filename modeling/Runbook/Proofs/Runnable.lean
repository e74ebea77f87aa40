import Runbook.Proofs.Validity

/-!
What makes a definition fit to be run, told by its states, transitions and paths alone, and the six
checks that decide it. Each check is free of errors exactly where one of the conditions holds, but
for the one on terminal states, which is only made where it is clear which state is the initial one.
-/
namespace Runbook.Workflow.Definition

variable {d : Definition}

/-- How many transitions lead out of a state, also those that lead to one target. -/
def exitCount (d : Definition) (id : String) : Nat := d.transitions.countP fun t => t.source = id

/-- How many transitions lead out of a state without a guard. -/
def openExitCount (d : Definition) (id : String) : Nat :=
  d.transitions.countP fun t => t.source = id ∧ t.guard = none

def entryCount (d : Definition) (id : String) : Nat := d.transitions.countP fun t => t.target = id

/-- No transition out of a state has a guard. -/
def Unguarded (d : Definition) (id : String) : Prop :=
  ∀ t ∈ d.transitions, t.source = id → t.guard = none

/-- Wherever a fork leads, a path goes on from there to a join. -/
def Gathers (d : Definition) (fork join : String) : Prop :=
  ∀ branch, d.Leads fork branch → d.Reaches branch join

/-- The branches of a fork come together: in the join of its region, or in some join where it has
no region. -/
def Rejoins (d : Definition) (fork : String) : Prop :=
  match d.regionOf? fork with
  | some r => d.Gathers fork r.join
  | none => ∃ j ∈ d.states, j.kind = .join ∧ d.Gathers fork j.id

/-- What a definition has to be like to be run. -/
structure Runnable (d : Definition) : Prop where
  initial : ∃ s, (∀ other, other ∈ d.states ∧ other.kind = .initial ↔ other = s) ∧
    d.exitCount s.id = 1 ∧ d.Unguarded s.id
  declared : ∀ t ∈ d.transitions, ∀ id, id = t.source ∨ id = t.target → ∃ s ∈ d.states, s.id = id
  terminal : ∃ s ∈ d.states, s.kind = .initial ∧
    ∃ e ∈ d.states, e.kind = .terminal ∧ d.Reaches s.id e.id
  choice : ∀ s ∈ d.states, s.kind = .choice → 1 ≤ d.exitCount s.id
  default : ∀ s ∈ d.states, s.kind ≠ .fork → s.kind ≠ .initial → s.kind ≠ .terminal →
    d.openExitCount s.id ≤ 1
  fork : ∀ s ∈ d.states, s.kind = .fork →
    2 ≤ d.exitCount s.id ∧ d.Unguarded s.id ∧ d.Rejoins s.id
  join : ∀ s ∈ d.states, s.kind = .join → 2 ≤ d.entryCount s.id ∧ d.exitCount s.id = 1

/-! Transitions out of a state and into it. -/

theorem length_outgoing (id : String) : (d.outgoing id).length = d.exitCount id := by
  unfold outgoing exitCount
  rw [← List.countP_eq_length_filter]
  exact List.countP_congr fun t _ => by simp

theorem length_incoming (id : String) : (d.incoming id).length = d.entryCount id := by
  unfold incoming entryCount
  rw [← List.countP_eq_length_filter]
  exact List.countP_congr fun t _ => by simp

theorem unguardedCount_eq (id : String) : d.unguardedCount id = d.openExitCount id := by
  unfold unguardedCount outgoing openExitCount
  rw [List.filter_filter, ← List.countP_eq_length_filter]
  exact List.countP_congr fun t _ => by simp [and_comm]

theorem forall_mem_outgoing {id : String} {p : Transition → Prop} :
    (∀ t ∈ d.outgoing id, p t) ↔ ∀ t ∈ d.transitions, t.source = id → p t := by
  simp [outgoing]

/-- A state has one way out, without a guard, where all its exits are one and have none. -/
theorem exists_outgoing_iff {id : String} : (∃ t, d.outgoing id = [t] ∧ t.guard = none) ↔
    d.exitCount id = 1 ∧ d.Unguarded id := by
  unfold Unguarded
  rw [← forall_mem_outgoing, ← length_outgoing, List.length_eq_one_iff]
  constructor
  · rintro ⟨t, ht, hguard⟩
    refine ⟨⟨t, ht⟩, fun t' ht' => ?_⟩
    rw [ht] at ht'
    rw [List.mem_singleton.mp ht', hguard]
  · rintro ⟨⟨t, ht⟩, hguards⟩
    exact ⟨t, ht, hguards t (ht ▸ List.mem_singleton_self t)⟩

/-! Lists of issues without errors. -/

/-- Nothing in a list of issues is an error. -/
def Harmless (issues : List Issue) : Prop := ∀ i ∈ issues, i.severity ≠ .error

theorem harmless_nil : Harmless [] := nofun

theorem harmless_append {as bs : List Issue} :
    Harmless (as ++ bs) ↔ Harmless as ∧ Harmless bs := List.forall_mem_append

theorem harmless_flatMap {α : Type} {as : List α} {f : α → List Issue} :
    Harmless (as.flatMap f) ↔ ∀ a ∈ as, Harmless (f a) := by
  unfold Harmless
  simp only [List.mem_flatMap]
  exact ⟨fun h a ha i hi => h i ⟨a, ha, hi⟩, fun h i ⟨a, ha, hi⟩ => h a ha i hi⟩

/-- An error is not harmless, and is not reported where it is not found. -/
theorem harmless_ite {p : Prop} [Decidable p] {i : Issue} (hi : i.severity = .error) :
    Harmless (if p then [i] else []) ↔ ¬ p := by
  split
  · rename_i hp
    exact iff_of_false (fun h => h i (List.mem_singleton_self i) hi) (not_not_intro hp)
  · rename_i hp
    exact iff_of_true harmless_nil hp

theorem harmless_map {α : Type} {as : List α} {f : α → Issue} (hf : ∀ a, (f a).severity = .error) :
    Harmless (as.map f) ↔ as = [] := by
  constructor
  · intro h
    refine List.eq_nil_iff_forall_not_mem.mpr fun a ha => ?_
    exact h (f a) (List.mem_map_of_mem ha) (hf a)
  · rintro rfl
    exact harmless_nil

theorem harmless_of_warnings {α : Type} {as : List α} {f : α → Issue}
    (hf : ∀ a, (f a).severity = .warning) : Harmless (as.map f) := by
  intro i hi
  obtain ⟨a, -, rfl⟩ := List.mem_map.mp hi
  rw [hf a]
  nofun

/-! The checks. -/

theorem ofKind_eq_singleton_iff {kind : StateKind} {s : State} :
    d.ofKind kind = [s] ↔ ∀ other, other ∈ d.states ∧ other.kind = kind ↔ other = s := by
  have hnodup : (d.ofKind kind).Nodup := (List.Nodup.of_map State.id d.distinct).filter _
  simp only [← mem_ofKind]
  constructor
  · intro h other
    rw [h, List.mem_singleton]
  · intro h
    exact List.perm_singleton.mp ((List.perm_ext_iff_of_nodup hnodup (List.nodup_singleton s)).mpr
      fun other => (h other).trans List.mem_singleton.symm)

theorem harmless_initialIssues : Harmless d.initialIssues ↔
    ∃ s, d.ofKind .initial = [s] ∧ ∃ t, d.outgoing s.id = [t] ∧ t.guard = none := by
  have herror : ∀ {i : Issue}, i.severity = .error → ¬ Harmless [i] :=
    fun hi h => h _ (List.mem_singleton_self _) hi
  unfold initialIssues
  split
  · rename_i hnone
    exact iff_of_false (herror rfl) fun ⟨s, hs, _⟩ => by rw [hs] at hnone; cases hnone
  · rename_i s hs
    have honly : ∀ {s' : State}, d.ofKind .initial = [s'] → s' = s := fun hs' => by
      rw [hs] at hs'
      exact (List.singleton_inj.mp hs').symm
    split
    · rename_i t ht
      rw [harmless_ite rfl]
      constructor
      · intro hguard
        exact ⟨s, hs, t, ht, by simpa using hguard⟩
      · rintro ⟨s', hs', t', ht', hguard⟩
        rw [honly hs', ht] at ht'
        rw [List.singleton_inj.mp ht', hguard]
        nofun
    · rename_i hother
      refine iff_of_false (herror rfl) ?_
      rintro ⟨s', hs', t, ht, -⟩
      rw [honly hs'] at ht
      exact hother t ht
  · rename_i hother
    exact iff_of_false (herror rfl) fun ⟨s, hs, _⟩ => hother s hs

theorem harmless_referenceIssues : Harmless d.referenceIssues ↔
    ∀ t ∈ d.transitions, ∀ id, id = t.source ∨ id = t.target → ∃ s ∈ d.states, s.id = id := by
  unfold referenceIssues
  rw [harmless_flatMap]
  refine forall₂_congr fun t _ => ?_
  rw [harmless_map fun _ => rfl, List.filter_eq_nil_iff]
  simp [declares]

theorem harmless_reachabilityIssues : Harmless d.reachabilityIssues ↔
    ∀ s, d.initial? = some s → ∃ e ∈ d.states, e.kind = .terminal ∧ d.Reaches s.id e.id := by
  unfold reachabilityIssues
  cases hinitial : d.initial? with
  | none => exact iff_of_true harmless_nil nofun
  | some s =>
    have hunreachable : Harmless (d.unreachableIssues (d.reachableFrom [s.id])) :=
      harmless_of_warnings fun _ => rfl
    have hdeadEnds : Harmless (d.deadEndIssues (d.reachableFrom [s.id])) :=
      harmless_of_warnings fun _ => rfl
    have hterminal : Harmless (d.terminalIssues (d.reachableFrom [s.id])) ↔
        ∃ e ∈ d.states, e.kind = .terminal ∧ d.Reaches s.id e.id := by
      unfold terminalIssues
      rw [← ite_not, harmless_ite rfl, not_not, List.any_eq_true]
      simp only [mem_ofKind, List.contains_iff_mem, mem_reachableFrom, List.mem_singleton,
        exists_eq_left, and_assoc]
    dsimp only
    rw [harmless_append, harmless_append, hterminal]
    constructor
    · rintro ⟨⟨-, h⟩, -⟩ _ ⟨⟩
      exact h
    · exact fun h => ⟨⟨hunreachable, h s rfl⟩, hdeadEnds⟩

theorem harmless_exitIssues : Harmless d.exitIssues ↔ ∀ s ∈ d.states,
    (s.kind = .choice → 1 ≤ d.exitCount s.id) ∧
      (s.kind ≠ .fork → s.kind ≠ .initial → s.kind ≠ .terminal → d.openExitCount s.id ≤ 1) := by
  unfold exitIssues
  rw [harmless_flatMap]
  refine forall₂_congr fun s _ => ?_
  unfold stateExitIssues
  split
  · rename_i hkind
    refine iff_of_true harmless_nil ⟨fun hchoice => ?_, fun hfork hinitial hterminal => ?_⟩
    · rw [hchoice] at hkind
      cases hkind
    · cases hs : s.kind <;> simp_all [StateKind.isPseudo]
  · rename_i hkind
    have hdecides : s.kind ≠ .fork ∧ s.kind ≠ .initial ∧ s.kind ≠ .terminal := by
      cases hs : s.kind <;> simp_all [StateKind.isPseudo]
    rw [harmless_append, harmless_ite rfl, harmless_ite rfl, unguardedCount_eq, Nat.not_lt,
      ← length_outgoing]
    have hchoice : ¬ (s.kind == .choice && (d.outgoing s.id).isEmpty) = true ↔
        (s.kind = .choice → 1 ≤ (d.outgoing s.id).length) := by
      cases d.outgoing s.id <;> simp
    rw [hchoice]
    obtain ⟨hfork, hinitial, hterminal⟩ := hdecides
    exact and_congr_right fun _ => ⟨fun h _ _ _ => h, fun h => h hfork hinitial hterminal⟩

/-- The join that a fork is checked with gathers its branches if any join does. -/
theorem harmless_matchingJoin {fork : String} {branches : List String}
    (hbranches : ∀ b, b ∈ branches ↔ d.Leads fork b) (hne : branches ≠ []) :
    (∃ join, d.matchingJoin? fork branches = some join ∧
      (branches.filter fun b => !d.canReach b join) = []) ↔ d.Rejoins fork := by
  have hgathers : ∀ join, (branches.filter fun b => !d.canReach b join) = [] ↔
      d.Gathers fork join := by
    intro join
    rw [List.filter_eq_nil_iff]
    unfold Gathers
    simp only [hbranches, Bool.not_eq_true', Bool.not_eq_false, canReach_iff]
  simp only [hgathers]
  unfold matchingJoin? Rejoins
  cases d.regionOf? fork with
  | some r => simp
  | none =>
    dsimp only
    have hall : ∀ j, (branches.all fun b => d.canReach b j) = true ↔ d.Gathers fork j := by
      intro j
      rw [List.all_eq_true]
      unfold Gathers
      simp only [hbranches, canReach_iff]
    cases branches with
    | nil => exact absurd rfl hne
    | cons first rest =>
      dsimp only
      constructor
      · rintro ⟨join, hjoin, hpaths⟩
        have hmem : join ∈ (d.ofKind .join).map State.id := by
          rcases Option.or_eq_some_iff.mp hjoin with hfound | ⟨-, hfound⟩
          · exact List.mem_of_find?_eq_some hfound
          · exact List.mem_of_find?_eq_some hfound
        obtain ⟨s, hs, rfl⟩ := List.mem_map.mp hmem
        exact ⟨s, (mem_ofKind.mp hs).1, (mem_ofKind.mp hs).2, hpaths⟩
      · rintro ⟨s, hs, hkind, hpaths⟩
        have hmem : s.id ∈ (d.ofKind .join).map State.id :=
          List.mem_map_of_mem (mem_ofKind.mpr ⟨hs, hkind⟩)
        have hsome : ((d.ofKind .join).map State.id |>.find? fun j =>
            (first :: rest).all fun b => d.canReach b j).isSome :=
          List.find?_isSome.mpr ⟨s.id, hmem, (hall s.id).mpr hpaths⟩
        obtain ⟨join, hjoin⟩ := Option.isSome_iff_exists.mp hsome
        have hpaths : ((first :: rest).all fun b => d.canReach b join) = true :=
          List.find?_some (p := fun j => (first :: rest).all fun b => d.canReach b j) hjoin
        refine ⟨join, ?_, (hall join).mp hpaths⟩
        rw [hjoin]
        rfl

theorem harmless_forkIssuesOf (fork : String) : Harmless (d.forkIssuesOf fork) ↔
    2 ≤ d.exitCount fork ∧ d.Unguarded fork ∧ d.Rejoins fork := by
  unfold forkIssuesOf
  dsimp only
  rw [harmless_append, harmless_append, harmless_ite rfl, harmless_map fun _ => rfl, Nat.not_lt,
    length_outgoing, and_assoc]
  refine and_congr_right fun htwo => and_congr ?_ ?_
  · unfold Unguarded
    rw [List.filter_eq_nil_iff, ← forall_mem_outgoing]
    simp
  · have hne : (d.outgoing fork).map Transition.target ≠ [] := by
      rw [← length_outgoing] at htwo
      rw [Ne, List.map_eq_nil_iff, ← List.length_eq_zero_iff]
      omega
    rw [← harmless_matchingJoin (fun b => mem_targets_outgoing) hne]
    cases d.matchingJoin? fork ((d.outgoing fork).map Transition.target) with
    | none => exact iff_of_false (fun h => h _ (List.mem_singleton_self _) rfl) nofun
    | some join =>
      dsimp only
      rw [harmless_map fun _ => rfl]
      simp

theorem harmless_joinIssuesOf (join : String) : Harmless (d.joinIssuesOf join) ↔
    2 ≤ d.entryCount join ∧ d.exitCount join = 1 := by
  unfold joinIssuesOf
  rw [harmless_append, harmless_ite rfl, harmless_ite rfl, Nat.not_lt, not_not, length_incoming,
    length_outgoing]

/-- Validation finds no error exactly in definitions that are fit to be run. -/
theorem validate_clean_iff_runnable :
    (∀ f ∈ d.validate.findings, f.severity ≠ .error) ↔ d.Runnable := by
  have hissues : (∀ f ∈ d.validate.findings, f.severity ≠ .error) ↔ Harmless d.issues :=
    List.forall_mem_map
  rw [hissues]
  unfold issues forkIssues joinIssues
  simp only [harmless_append, harmless_flatMap, harmless_initialIssues, harmless_referenceIssues,
    harmless_reachabilityIssues, harmless_exitIssues, harmless_forkIssuesOf,
    harmless_joinIssuesOf, exists_outgoing_iff, ofKind_eq_singleton_iff, mem_ofKind]
  constructor
  · rintro ⟨⟨⟨⟨⟨⟨s, honly, hexit⟩, hdeclared⟩, hterminal⟩, hexits⟩, hforks⟩, hjoins⟩
    have hs : s ∈ d.states ∧ s.kind = .initial := (honly s).mpr rfl
    have hinitial : d.initial? = some s := by
      unfold initial?
      rw [ofKind_eq_singleton_iff.mpr honly]
    exact ⟨⟨s, honly, hexit⟩, hdeclared, ⟨s, hs.1, hs.2, hterminal s hinitial⟩,
      fun s hs => (hexits s hs).1, fun s hs => (hexits s hs).2,
      fun s hs hkind => hforks s ⟨hs, hkind⟩, fun s hs hkind => hjoins s ⟨hs, hkind⟩⟩
  · rintro ⟨⟨s, honly, hexit⟩, hdeclared, ⟨s', hs', hkind, hterminal⟩, hchoice, hdefault, hfork,
      hjoin⟩
    obtain rfl := (honly s').mp ⟨hs', hkind⟩
    refine ⟨⟨⟨⟨⟨⟨s', honly, hexit⟩, hdeclared⟩, fun s hs => ?_⟩, fun s hs =>
      ⟨hchoice s hs, hdefault s hs⟩⟩, fun s hs => hfork s hs.1 hs.2⟩, fun s hs => hjoin s hs.1 hs.2⟩
    obtain rfl := (honly s).mp (mem_of_initial? hs)
    exact hterminal

end Runbook.Workflow.Definition
