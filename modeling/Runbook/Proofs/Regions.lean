import Runbook.Proofs.Drafting

/-!
Forks, joins and the regions between them. Fork and join markers open and close regions like
brackets: in every draft the open and closed regions begin with forks, the closed ones end in joins,
every fork and every join is accounted for, and states lie in the regions of forks.
-/
namespace Runbook.Workflow

namespace Draft

variable {d d' : Draft}

section Regions

/-- Every region that is open or closed begins with a fork, every closed one ends in a join, and all
forks and joins are accounted for; states lie in the regions of forks. -/
structure Paired (d : Draft) : Prop where
  opened : ∀ f ∈ d.openForks, d.kind? f.1 = some .fork
  closed : ∀ r ∈ d.regions, d.kind? r.fork = some .fork ∧ d.kind? r.join = some .join
  forks : ∀ id, d.kind? id = some .fork →
    id ∈ d.openForks.map Prod.fst ∨ id ∈ d.regions.map Region.fork
  joins : ∀ id, d.kind? id = some .join → id ∈ d.regions.map Region.join
  inner : ∀ id s f, d.state? id = some s → s.region = some f → d.kind? f = some .fork

theorem kind?_declare {id other : String} :
    (d.declare id).kind? other =
      if other = id then some ((d.kind? id).getD .normal) else d.kind? other := by
  unfold kind?
  rw [state?_declare]
  split
  · cases d.state? id <;> rfl
  · rfl

theorem kind?_modifyState {id other : String} {f : State → State}
    (hid : ∀ s : State, (f s).id = s.id) (hkind : ∀ s : State, (f s).kind = s.kind) :
    (d.modifyState id f).kind? other = d.kind? other := by
  unfold kind?
  rw [state?_modifyState hid]
  split
  · rename_i hother
    rw [hother, Option.map_map]
    exact congrArg (Option.map · _) (funext hkind)
  · rfl

/-- A declared state that is marked has the kind of its mark. -/
theorem kind?_marked_declare {id other : String} {kind : StateKind} :
    ((d.declare id).marked id kind).kind? other = if other = id then some kind else d.kind? other := by
  unfold kind?
  rw [state?_marked]
  split
  · rw [state?_declare, if_pos rfl]
    rfl
  · rename_i hother
    rw [state?_declare, if_neg hother]

theorem kind?_joined {id fork other : String} {outer : List (String × Nat)} :
    (d.joined id fork outer).kind? other = ((d.declare id).marked id .join).kind? other := by
  unfold kind?
  rw [state?_joined]
  split
  · rename_i hother
    rw [hother, Option.map_map]
    rfl
  · rfl

/-- A state that may be marked keeps its kind, if it had one of its own. -/
theorem MayBe.kind?_marked {id other : String} {kind present : StateKind} (h : d.MayBe id kind)
    (hpresent : d.kind? other = some present) (hown : present ≠ .normal) :
    ((d.declare id).marked id kind).kind? other = some present := by
  rw [kind?_marked_declare]
  split
  · rename_i hother
    rw [hother] at hpresent
    rw [(h present hpresent).resolve_left hown]
  · exact hpresent

/-- The region of a state after another one was declared is its old one or the innermost. -/
theorem region_of_state?_declare {id other f : String} {s : State}
    (hs : (d.declare id).state? other = some s) (hf : s.region = some f) :
    (∃ t, d.state? other = some t ∧ t.region = some f) ∨ f ∈ d.openForks.map Prod.fst := by
  rw [state?_declare] at hs
  split at hs
  · rename_i hother
    cases ht : d.state? id with
    | some t =>
      rw [ht, Option.getD_some, Option.some.injEq] at hs
      exact Or.inl ⟨t, hother ▸ ht, hs ▸ hf⟩
    | none =>
      rw [ht, Option.getD_none, Option.some.injEq] at hs
      subst hs
      right
      change d.openForks.head?.map Prod.fst = some f at hf
      obtain ⟨first, hfirst, rfl⟩ := Option.map_eq_some_iff.mp hf
      exact List.mem_map_of_mem (List.mem_of_mem_head? hfirst)
  · exact Or.inl ⟨s, hs, hf⟩

/-- The second draft marks, opens and closes nothing that the first one does not. -/
structure Unmarked (d d' : Draft) : Prop where
  kept : ∀ id kind, d.kind? id = some kind → d'.kind? id = some kind
  fresh : ∀ id kind, d'.kind? id = some kind → d.kind? id = some kind ∨ kind ≠ .fork ∧ kind ≠ .join
  inner : ∀ id s f, d'.state? id = some s → s.region = some f →
    (∃ id t, d.state? id = some t ∧ t.region = some f) ∨ f ∈ d.openForks.map Prod.fst
  openForks : d'.openForks = d.openForks
  regions : d'.regions = d.regions

theorem unmarked_of_states_eq (hstates : d'.states = d.states)
    (hopen : d'.openForks = d.openForks) (hregions : d'.regions = d.regions) : Unmarked d d' := by
  have hstate : ∀ id, d'.state? id = d.state? id := by
    intro id
    unfold state?
    rw [hstates]
  refine ⟨fun id kind hkind => ?_, fun id kind hkind => Or.inl ?_,
    fun id s f hs hf => Or.inl ⟨id, s, (hstate id).symm.trans hs, hf⟩, hopen, hregions⟩
  · exact (congrArg (Option.map State.kind) (hstate id)).trans hkind
  · exact (congrArg (Option.map State.kind) (hstate id)).symm.trans hkind

theorem Unmarked.trans {d'' : Draft} (h : Unmarked d d') (h' : Unmarked d' d'') :
    Unmarked d d'' where
  kept := fun id kind hkind => h'.kept id kind (h.kept id kind hkind)
  fresh := by
    intro id kind hkind
    rcases h'.fresh id kind hkind with hkind | hplain
    · exact h.fresh id kind hkind
    · exact Or.inr hplain
  inner := by
    intro id s f hs hf
    rcases h'.inner id s f hs hf with ⟨other, t, ht, htf⟩ | hopen
    · exact h.inner other t f ht htf
    · rw [h.openForks] at hopen
      exact Or.inr hopen
  openForks := h'.openForks.trans h.openForks
  regions := h'.regions.trans h.regions

theorem Unmarked.paired (h : Unmarked d d') (hd : d.Paired) : d'.Paired where
  opened := by
    intro f hf
    rw [h.openForks] at hf
    exact h.kept _ _ (hd.opened f hf)
  closed := by
    intro r hr
    rw [h.regions] at hr
    obtain ⟨hfork, hjoin⟩ := hd.closed r hr
    exact ⟨h.kept _ _ hfork, h.kept _ _ hjoin⟩
  forks := by
    intro id hid
    rw [h.openForks, h.regions]
    rcases h.fresh id _ hid with hold | ⟨hne, -⟩
    · exact hd.forks id hold
    · exact absurd rfl hne
  joins := by
    intro id hid
    rw [h.regions]
    rcases h.fresh id _ hid with hold | ⟨-, hne⟩
    · exact hd.joins id hold
    · exact absurd rfl hne
  inner := by
    intro id s f hs hf
    rcases h.inner id s f hs hf with ⟨other, t, ht, htf⟩ | hopen
    · exact h.kept _ _ (hd.inner other t f ht htf)
    · obtain ⟨region, hregion, rfl⟩ := List.mem_map.mp hopen
      exact h.kept _ _ (hd.opened region hregion)

theorem unmarked_declare (d : Draft) (id : String) : Unmarked d (d.declare id) where
  kept := by
    intro other kind hkind
    rw [kind?_declare]
    split
    · rename_i hother
      rw [ ← hother, hkind]
      rfl
    · exact hkind
  fresh := by
    intro other kind hkind
    rw [kind?_declare] at hkind
    split at hkind
    · rename_i hother
      rw [hother]
      cases hold : d.kind? id with
      | some present =>
        rw [hold, Option.getD_some] at hkind
        exact Or.inl hkind
      | none =>
        rw [hold, Option.getD_none] at hkind
        obtain rfl := Option.some.inj hkind
        exact Or.inr ⟨nofun, nofun⟩
    · exact Or.inl hkind
  inner := by
    intro other s f hs hf
    rcases region_of_state?_declare hs hf with ⟨t, ht, htf⟩ | hopen
    · exact Or.inl ⟨other, t, ht, htf⟩
    · exact Or.inr hopen
  openForks := openForks_declare
  regions := regions_declare

theorem unmarked_declarePseudo (d : Draft) (id : String) {kind : StateKind}
    (hkind : kind ≠ .fork ∧ kind ≠ .join) : Unmarked d (d.declarePseudo id kind) := by
  have hstate : ∀ other s, (d.declarePseudo id kind).state? other = some s →
      d.state? other = some s ∨ s = ⟨id, kind, [], "", none⟩ := by
    intro other s hs
    rw [state?_declarePseudo] at hs
    split at hs
    · rename_i hother
      cases hold : d.state? id with
      | some t =>
        rw [hold, Option.getD_some] at hs
        exact Or.inl (hother ▸ hold.trans hs)
      | none =>
        rw [hold, Option.getD_none] at hs
        exact Or.inr (Option.some.inj hs).symm
    · exact Or.inl hs
  refine ⟨?_, ?_, ?_, ?_, ?_⟩
  · intro other present hpresent
    obtain ⟨s, hs, rfl⟩ := exists_state_of_kind? hpresent
    unfold kind?
    rw [state?_declarePseudo]
    split
    · rename_i hother
      rw [ ← hother, hs]
      rfl
    · rw [hs]
      rfl
  · intro other present hpresent
    obtain ⟨s, hs, rfl⟩ := exists_state_of_kind? hpresent
    rcases hstate other s hs with hold | rfl
    · exact Or.inl (congrArg (Option.map State.kind) hold)
    · exact Or.inr hkind
  · intro other s f hs hf
    rcases hstate other s hs with hold | rfl
    · exact Or.inl ⟨other, s, hold, hf⟩
    · cases hf
  all_goals
    unfold declarePseudo
    split <;> rfl

theorem unmarked_declareSource (d : Draft) (e : Endpoint) : Unmarked d (d.declareSource e) := by
  cases e with
  | pseudo => exact unmarked_declarePseudo d startId ⟨nofun, nofun⟩
  | state id => exact unmarked_declare d id

theorem unmarked_declareTarget (d : Draft) (e : Endpoint) : Unmarked d (d.declareTarget e) := by
  cases e with
  | pseudo => exact unmarked_declarePseudo d endId ⟨nofun, nofun⟩
  | state id => exact unmarked_declare d id

/-- A change of a state within its kind and its region. -/
theorem unmarked_modifyState (d : Draft) (id : String) {f : State → State}
    (hid : ∀ s : State, (f s).id = s.id) (hkind : ∀ s : State, (f s).kind = s.kind)
    (hregion : ∀ s : State, (f s).region = s.region) : Unmarked d (d.modifyState id f) where
  kept := fun other kind h => (kind?_modifyState hid hkind).trans h
  fresh := fun other kind h => Or.inl ((kind?_modifyState hid hkind).symm.trans h)
  inner := by
    intro other s region hs hf
    rw [state?_modifyState hid] at hs
    split at hs
    · obtain ⟨t, ht, rfl⟩ := Option.map_eq_some_iff.mp hs
      exact Or.inl ⟨id, t, ht, (hregion t).symm.trans hf⟩
    · exact Or.inl ⟨other, s, hs, hf⟩
  openForks := rfl
  regions := rfl

theorem unmarked_describe (d : Draft) (id text : String) : Unmarked d (d.describe id text) :=
  (unmarked_declare d id).trans
    (unmarked_modifyState _ id (fun _ => rfl) (fun _ => rfl) fun _ => rfl)

theorem unmarked_draw (d : Draft) (line : Nat) (source target : Endpoint)
    (guard label : Option String) : Unmarked d (d.draw line source target guard label) := by
  have hbegun : Unmarked d (d.begun line source) := by
    cases source <;> exact unmarked_of_states_eq rfl rfl rfl
  have hlinking : Unmarked d (d.linking line source target) :=
    (hbegun.trans (unmarked_declareSource _ source)).trans (unmarked_declareTarget _ target)
  exact hlinking.trans (unmarked_of_states_eq rfl rfl rfl)

/-- A state that is declared and marked lies in no region but that of a fork. -/
theorem Paired.inner_marked (h : d.Paired) {id other f : String} {kind : StateKind} {s : State}
    (hs : ((d.declare id).marked id kind).state? other = some s) (hf : s.region = some f) :
    d.kind? f = some .fork := by
  have hdeclared : ∃ t, (d.declare id).state? other = some t ∧ t.region = some f := by
    rw [state?_marked] at hs
    split at hs
    · rename_i hother
      obtain ⟨t, ht, rfl⟩ := Option.map_eq_some_iff.mp hs
      exact ⟨t, hother ▸ ht, hf⟩
    · exact ⟨s, hs, hf⟩
  obtain ⟨t, ht, htf⟩ := hdeclared
  rcases region_of_state?_declare ht htf with ⟨u, hu, huf⟩ | hopen
  · exact h.inner other u f hu huf
  · obtain ⟨region, hregion, rfl⟩ := List.mem_map.mp hopen
    exact h.opened region hregion

theorem Paired.choice (h : d.Paired) {id : String} (hfree : d.MayBe id .choice) :
    ((d.declare id).marked id .choice).Paired := by
  have hopen : ((d.declare id).marked id .choice).openForks = d.openForks := openForks_declare
  have hregions : ((d.declare id).marked id .choice).regions = d.regions := regions_declare
  have hold : ∀ other kind, kind ≠ .choice →
      ((d.declare id).marked id .choice).kind? other = some kind → d.kind? other = some kind := by
    intro other kind hne hkind
    rw [kind?_marked_declare] at hkind
    split at hkind
    · exact absurd (Option.some.inj hkind).symm hne
    · exact hkind
  refine ⟨?_, ?_, ?_, ?_, ?_⟩
  · rw [hopen]
    exact fun f hf => hfree.kind?_marked (h.opened f hf) nofun
  · rw [hregions]
    intro r hr
    obtain ⟨hfork, hjoin⟩ := h.closed r hr
    exact ⟨hfree.kind?_marked hfork nofun, hfree.kind?_marked hjoin nofun⟩
  · rw [hopen, hregions]
    exact fun other hkind => h.forks other (hold other .fork nofun hkind)
  · rw [hregions]
    exact fun other hkind => h.joins other (hold other .join nofun hkind)
  · exact fun other s f hs hf => hfree.kind?_marked (h.inner_marked hs hf) nofun

theorem Paired.forked (h : d.Paired) {id : String} {line : Nat} (hfree : d.MayBe id .fork) :
    (d.forked line id).Paired := by
  have hregions : (d.forked line id).regions = d.regions := regions_declare
  have hkinds : ∀ other, (d.forked line id).kind? other =
      if other = id then some .fork else d.kind? other := fun _ => kind?_marked_declare
  have hkept : ∀ {other kind}, d.kind? other = some kind → kind ≠ .normal →
      (d.forked line id).kind? other = some kind := hfree.kind?_marked
  refine ⟨?_, ?_, ?_, ?_, ?_⟩
  · intro f hf
    rcases List.mem_cons.mp hf with rfl | hf
    · rw [hkinds, if_pos rfl]
    · exact hkept (h.opened f hf) nofun
  · rw [hregions]
    intro r hr
    obtain ⟨hfork, hjoin⟩ := h.closed r hr
    exact ⟨hkept hfork nofun, hkept hjoin nofun⟩
  · rw [hregions]
    intro other hkind
    rw [hkinds] at hkind
    split at hkind
    · rename_i hother
      rw [hother]
      exact Or.inl (List.mem_cons_self ..)
    · exact (h.forks other hkind).imp_left (List.mem_cons_of_mem _)
  · rw [hregions]
    intro other hkind
    rw [hkinds] at hkind
    split at hkind
    · cases hkind
    · exact h.joins other hkind
  · intro other s f hs hf
    exact hkept (h.inner_marked hs hf) nofun

theorem Paired.joined (h : d.Paired) {id fork : String} {first : Nat}
    {outer : List (String × Nat)} (hfree : d.MayBe id .join)
    (hopen : d.openForks = (fork, first) :: outer) : (d.joined id fork outer).Paired := by
  have hkinds : ∀ other, (d.joined id fork outer).kind? other =
      if other = id then some .join else d.kind? other :=
    fun _ => kind?_joined.trans kind?_marked_declare
  have hkept : ∀ {other kind}, d.kind? other = some kind → kind ≠ .normal →
      (d.joined id fork outer).kind? other = some kind :=
    fun hkind hown => kind?_joined.trans (hfree.kind?_marked hkind hown)
  have hopened : ∀ f ∈ outer, d.kind? f.1 = some .fork :=
    fun f hf => h.opened f (hopen ▸ List.mem_cons_of_mem _ hf)
  have hfork : d.kind? fork = some .fork := h.opened (fork, first) (hopen ▸ List.mem_cons_self ..)
  have hregions : (d.joined id fork outer).regions = d.regions ++ [Region.mk fork id] := rfl
  refine ⟨?_, ?_, ?_, ?_, ?_⟩
  · exact fun f hf => hkept (hopened f hf) nofun
  · rw [hregions]
    intro r hr
    rcases List.mem_append.mp hr with hr | hr
    · obtain ⟨hrfork, hrjoin⟩ := h.closed r hr
      exact ⟨hkept hrfork nofun, hkept hrjoin nofun⟩
    · rw [List.mem_singleton.mp hr]
      refine ⟨hkept hfork nofun, ?_⟩
      rw [hkinds, if_pos rfl]
  · rw [hregions, List.map_append]
    intro other hkind
    rw [hkinds] at hkind
    split at hkind
    · cases hkind
    · rcases h.forks other hkind with hother | hother
      · rw [hopen, List.map_cons] at hother
        rcases List.mem_cons.mp hother with rfl | hother
        · exact Or.inr (List.mem_append_right _ (List.mem_singleton_self _))
        · exact Or.inl hother
      · exact Or.inr (List.mem_append_left _ hother)
  · rw [hregions, List.map_append]
    intro other hkind
    rw [hkinds] at hkind
    split at hkind
    · rename_i hother
      rw [hother]
      exact List.mem_append_right _ (List.mem_singleton_self _)
    · exact List.mem_append_left _ (h.joins other hkind)
  · intro other s f hs hf
    rw [state?_joined] at hs
    split at hs
    · obtain ⟨t, -, rfl⟩ := Option.map_eq_some_iff.mp hs
      obtain ⟨region, hregion, rfl⟩ := Option.map_eq_some_iff.mp hf
      exact hkept (hopened region (List.mem_of_mem_head? hregion)) nofun
    · exact hkept (h.inner_marked hs hf) nofun

theorem Paired.gains (h : d.Paired) {line : Nat} (hd : Gains line d d') : d'.Paired := by
  cases hd with
  | aside notes openNote =>
    exact Unmarked.paired (d := d) (unmarked_of_states_eq rfl rfl rfl) h
  | description hid text => exact (unmarked_describe d _ text).paired h
  | arrow => exact (unmarked_draw d line _ _ _ _).paired h
  | marker hid hfree hmarks =>
    cases hmarks with
    | choice => exact h.choice hfree
    | fork => exact h.forked hfree
    | join hopen => exact h.joined hfree hopen

end Regions

theorem kind?_withAction {id other : String} {action : Action} :
    (d.withAction id action).kind? other = d.kind? other :=
  kind?_modifyState (fun _ => rfl) fun _ => rfl

theorem unmarked_withAction (d : Draft) (id : String) (action : Action) :
    Unmarked d (d.withAction id action) :=
  unmarked_modifyState d id (fun _ => rfl) (fun _ => rfl) fun _ => rfl

theorem paired_ofLines {fenced : Bool} {diagram actions : List NumberedLine}
    (hd : ofLines fenced diagram actions = .ok d) : d.Paired := by
  refine ofLines_keeps ⟨nofun, nofun, nofun, nofun, nofun⟩ ?_ ?_ hd
  · exact fun _ _ _ h hgains => h.gains hgains
  · exact fun before id action _ h => (unmarked_withAction before id action).paired h

/-- The regions are all closed where a diagram ends, and no action entry opens one. -/
theorem openForks_ofLines {fenced : Bool} {diagram actions : List NumberedLine}
    (hd : ofLines fenced diagram actions = .ok d) : d.openForks = [] := by
  obtain ⟨drawn, -, hclosed, -, hactions⟩ := ofLines_eq_ok_iff.mp hd
  refine foldlM_keeps (P := fun d => d.openForks = []) (fun before _ _ hb hstep => ?_) hclosed
    hactions
  rcases exists_of_addAction hstep with rfl | ⟨id, text, action, -, rfl⟩
  · exact hb
  · exact hb

end Draft

end Runbook.Workflow
