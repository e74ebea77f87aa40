import Runbook.Proofs.Brackets
import Runbook.Proofs.WellDrawn

/-!
What the statements of a diagram say of its regions. Read as brackets, the markers of forks and
joins tell whether a diagram is refused for one of them and where, which regions a definition has,
and in which of them each of its states lies.
-/
namespace Runbook.Workflow

open Draft (sourceId targetId insideAfter)

/-- The bracket that a marker of a kind is. -/
def Bracket.ofKind? (id : String) (line : Nat) : StateKind → Option Bracket
  | .fork => some (.opening id line)
  | .join => some (.closing id line)
  | _ => none

namespace Statement

/-- The states that a statement mentions. A note is about a state and does not declare it. -/
def mentions : Statement → List String
  | .arrow source target _ => [sourceId source, targetId target]
  | .marker id _ => [id]
  | .alias id _ => [id]
  | .description id _ => [id]
  | _ => []

/-- The bracket that the marker of a fork or a join is. -/
def bracket? (line : Nat) : Statement → Option Bracket
  | .marker id word => (Draft.markerKind? word).bind (Bracket.ofKind? id line)
  | _ => none

theorem bracket?_marker {line : Nat} {id word : String} {kind : StateKind}
    (h : Draft.markerKind? word = some kind) :
    (marker id word).bracket? line = Bracket.ofKind? id line kind := by
  simp only [bracket?, h, Option.bind_some]

end Statement

/-- The statements of a diagram, with their lines, as far as they have been read. -/
abbrev Said := List (Nat × Statement)

namespace Said

/-- What lines say. What stands inside a note is no statement. -/
def ofLines (inside : Bool) : List NumberedLine → Said
  | [] => []
  | line :: rest =>
    (if inside then [] else [(line.1, Statement.read (Text.strip line.2))]) ++
      ofLines (insideAfter inside line) rest

/-- The brackets among statements. -/
def brackets (said : Said) : List Bracket := said.filterMap fun x => x.2.bracket? x.1

def Mentions (said : Said) (id : String) : Prop := ∃ x ∈ said, id ∈ x.2.mentions

/-- Where a state lies: a join in the innermost region that its last marker leaves open, and any
other state in the innermost one that is open where it is first mentioned. -/
inductive Lies (said : Said) (s : State) : Prop
  | mentioned {before after : Said} {x : Nat × Statement} {forks : List (String × Nat)}
      (hkind : s.kind ≠ .join) (hsaid : said = before ++ x :: after)
      (hmention : s.id ∈ x.2.mentions) (hfirst : ¬ before.Mentions s.id)
      (hopen : Bracket.Leaves before.brackets forks) (hregion : s.region = forks.head?.map Prod.fst)
  | closed {before after : List Bracket} {line : Nat} {forks : List (String × Nat)}
      (hkind : s.kind = .join) (hbrackets : said.brackets = before ++ .closing s.id line :: after)
      (hlast : ∀ line, .closing s.id line ∉ after)
      (hopen : Bracket.Leaves (before ++ [.closing s.id line]) forks)
      (hregion : s.region = forks.head?.map Prod.fst)

variable {said more : Said} {x : Nat × Statement} {s s' : State} {id : String}

theorem brackets_append : (said ++ more).brackets = said.brackets ++ more.brackets :=
  List.filterMap_append

theorem brackets_singleton : brackets [x] = (x.2.bracket? x.1).toList := by
  unfold brackets
  cases hb : x.2.bracket? x.1 <;> simp [hb]

theorem mentions_snoc : (said ++ [x]).Mentions id ↔ said.Mentions id ∨ id ∈ x.2.mentions := by
  unfold Mentions
  simp [or_and_right, exists_or]

/-- A state lies where it lay, unless a join marker of its own comes. -/
theorem Lies.append (h : said.Lies s) (hclosing : ∀ line, .closing s.id line ∉ more.brackets)
    (hid : s'.id = s.id) (hregion : s'.region = s.region)
    (hjoin : s'.kind = .join ↔ s.kind = .join) : (said ++ more).Lies s' := by
  cases h with
  | @mentioned before after y forks hkind hsaid hmention hfirst hopen hlies =>
    have hsaid' : said ++ more = before ++ y :: (after ++ more) := by
      rw [hsaid, List.append_assoc, List.cons_append]
    exact .mentioned (mt hjoin.mp hkind) hsaid' (hid ▸ hmention) (hid ▸ hfirst) hopen
      (hregion.trans hlies)
  | @closed before after last forks hkind hbrackets hlast hopen hlies =>
    have hbrackets' : (said ++ more).brackets =
        before ++ .closing s'.id last :: (after ++ more.brackets) := by
      rw [brackets_append, hbrackets, List.append_assoc, List.cons_append, hid]
    refine .closed (hjoin.mpr hkind) hbrackets' ?_ (hid ▸ hopen) (hregion.trans hlies)
    rw [hid]
    intro line hmem
    rcases List.mem_append.mp hmem with hmem | hmem
    · exact hlast line hmem
    · exact hclosing line hmem

end Said

namespace Draft

variable {d d' d'' : Draft} {said : Said} {line : Nat} {id : String}

/-- What a statement makes of the states that it closes no region with. They stay in their regions,
and one that it declares lies in the innermost region that is open, or stands for an end of the
diagram. -/
inductive Settled (d : Draft) (s' : State) : Prop
  | kept {s : State} (hold : d.state? s'.id = some s) (hregion : s'.region = s.region)
      (hjoin : s'.kind = .join ↔ s.kind = .join) (hpseudo : s'.kind.isPseudo = s.kind.isPseudo)
  | declared (hnew : s'.id ∉ d.ids) (hregion : s'.region = d.region) (hjoin : s'.kind ≠ .join)
  | pseudo (hends : s'.kind.isPseudo = true)

/-- The second draft has every state of the first, and its own are settled from there. -/
structure Settles (d d' : Draft) : Prop where
  kept : ∀ id ∈ d.ids, id ∈ d'.ids
  settled : ∀ id s', d'.state? id = some s' → d.Settled s'

theorem settled_of_state? {s : State} (h : d.state? id = some s) : d.Settled s := by
  obtain ⟨-, rfl⟩ := mem_of_state? h
  exact .kept h rfl Iff.rfl rfl

theorem settles_of_states_eq (h : d'.states = d.states) : d.Settles d' := by
  have hstate : ∀ id, d'.state? id = d.state? id := by
    intro id
    unfold state?
    rw [h]
  refine ⟨fun id hid => ?_, fun id s' hs' => settled_of_state? ((hstate id).symm.trans hs')⟩
  unfold ids at hid ⊢
  rwa [h]

theorem Settles.trans (h : d.Settles d') (h' : d'.Settles d'')
    (hopen : d'.openForks = d.openForks) :
    d.Settles d'' := by
  refine ⟨fun id hid => h'.kept id (h.kept id hid), fun id s'' hs'' => ?_⟩
  cases h'.settled id s'' hs'' with
  | @kept s' hold hsame hjoin hpseudo =>
    have hid := (mem_of_state? hold).2
    cases h.settled _ s' hold with
    | kept hold' hsame' hjoin' hpseudo' =>
      exact .kept (hid ▸ hold') (hsame.trans hsame') (hjoin.trans hjoin') (hpseudo.trans hpseudo')
    | declared hnew hlies hkind =>
      exact .declared (hid ▸ hnew) (hsame.trans hlies) (mt hjoin.mp hkind)
    | pseudo hends => exact .pseudo (hpseudo.trans hends)
  | declared hnew hlies hkind =>
    have hregion : d'.region = d.region := by
      unfold region
      rw [hopen]
    exact .declared (mt (h.kept _) hnew) (hlies.trans hregion) hkind
  | pseudo hends => exact .pseudo hends

theorem settles_declare (d : Draft) (id : String) : d.Settles (d.declare id) := by
  refine ⟨fun other hother => ?_, fun other s' hs' => ?_⟩
  · rw [ids_declare, mem_addNew]
    exact Or.inl hother
  · rw [state?_declare] at hs'
    split at hs'
    · cases hold : d.state? id with
      | some s =>
        rw [hold] at hs'
        exact settled_of_state? (hold.trans hs')
      | none =>
        rw [hold] at hs'
        cases hs'
        exact .declared (not_mem_ids_of_state?_eq_none hold) rfl nofun
    · exact settled_of_state? hs'

theorem settles_declarePseudo (d : Draft) (id : String) {kind : StateKind}
    (hkind : kind.isPseudo = true) : d.Settles (d.declarePseudo id kind) := by
  refine ⟨fun other hother => ?_, fun other s' hs' => ?_⟩
  · rw [ids_declarePseudo, mem_addNew]
    exact Or.inl hother
  · rw [state?_declarePseudo] at hs'
    split at hs'
    · cases hold : d.state? id with
      | some s =>
        rw [hold] at hs'
        exact settled_of_state? (hold.trans hs')
      | none =>
        rw [hold] at hs'
        cases hs'
        exact .pseudo hkind
    · exact settled_of_state? hs'

/-- A change that keeps a state in its region, and neither makes it a join nor an end. -/
theorem settles_modifyState {f : State → State} (hid : ∀ s : State, (f s).id = s.id)
    (hf : ∀ s, d.state? id = some s → (f s).region = s.region ∧
      ((f s).kind = .join ↔ s.kind = .join) ∧ (f s).kind.isPseudo = s.kind.isPseudo) :
    d.Settles (d.modifyState id f) := by
  refine ⟨fun other hother => (ids_modifyState hid).symm ▸ hother, fun other s' hs' => ?_⟩
  rw [state?_modifyState hid] at hs'
  split at hs'
  · obtain ⟨s, hold, rfl⟩ := Option.map_eq_some_iff.mp hs'
    obtain ⟨hregion, hjoin, hpseudo⟩ := hf s hold
    exact .kept ((hid s).symm ▸ (mem_of_state? hold).2.symm ▸ hold) hregion hjoin hpseudo
  · exact settled_of_state? hs'

theorem settles_describe (d : Draft) (id text : String) : d.Settles (d.describe id text) := by
  refine (settles_declare d id).trans (settles_modifyState (fun _ => rfl) ?_) openForks_declare
  exact fun s hs => ⟨rfl, Iff.rfl, rfl⟩

theorem settles_declareSource (d : Draft) (e : Endpoint) : d.Settles (d.declareSource e) := by
  cases e with
  | pseudo => exact settles_declarePseudo d startId rfl
  | state id => exact settles_declare d id

theorem settles_declareTarget (d : Draft) (e : Endpoint) : d.Settles (d.declareTarget e) := by
  cases e with
  | pseudo => exact settles_declarePseudo d endId rfl
  | state id => exact settles_declare d id

theorem settles_draw (d : Draft) (line : Nat) (source target : Endpoint)
    (guard label : Option String) : d.Settles (d.draw line source target guard label) := by
  have hbegun : (d.begun line source).states = d.states := by
    cases source <;> rfl
  have hopen : (d.begun line source).openForks = d.openForks := by
    cases source <;> rfl
  have hsource : d.Settles ((d.begun line source).declareSource source) :=
    (settles_of_states_eq hbegun).trans (settles_declareSource _ source) hopen
  have hlinking : d.Settles (d.linking line source target) := by
    refine hsource.trans (settles_declareTarget _ target) ?_
    obtain ⟨states, hstates⟩ := exists_states_declareSource (d.begun line source) source
    rw [hstates]
    exact hopen
  exact ⟨hlinking.kept, hlinking.settled⟩

/-- A marker that is not a join's. -/
theorem settles_marked {kind : StateKind} (hfree : d.MayBe id kind) (hjoin : kind ≠ .join)
    (hpseudo : kind.isPseudo = false) : d.Settles ((d.declare id).marked id kind) := by
  refine (settles_declare d id).trans (settles_modifyState (fun _ => rfl) ?_) openForks_declare
  intro s hs
  have hpresent : s.kind = .normal ∨ s.kind = kind := by
    rw [state?_declare, if_pos rfl, Option.some.injEq] at hs
    cases hold : d.state? id with
    | none =>
      rw [hold] at hs
      exact Or.inl (hs ▸ rfl)
    | some present =>
      rw [hold] at hs
      have hkind : d.kind? id = some s.kind := hs ▸ congrArg (Option.map State.kind) hold
      exact hfree s.kind hkind
  refine ⟨rfl, iff_of_false hjoin ?_, hpseudo.trans ?_⟩
  · rcases hpresent with h | h
    · exact h ▸ nofun
    · exact h ▸ hjoin
  · rcases hpresent with h | h
    · rw [h]
      rfl
    · rw [h, hpseudo]

/-- A draft knows of a diagram what the statements that have been read say. -/
structure Tells (said : Said) (d : Draft) : Prop where
  mentioned : ∀ id, id ∈ d.ids ↔ said.Mentions id
  opened : Bracket.Leaves said.brackets d.openForks
  closed : Bracket.Encloses said.brackets d.regions
  placed : ∀ id s, d.state? id = some s → s.kind.isPseudo = false → said.Lies s

theorem tells_empty : Tells [] empty where
  mentioned := fun _ => ⟨nofun, nofun⟩
  opened := .nothing .nil
  closed := Bracket.encloses_nil
  placed := nofun

section Step

variable {x : Nat × Statement} (h : Tells said d)
include h

theorem Tells.mentioned_snoc (hids : ∀ id, id ∈ d'.ids ↔ id ∈ d.ids ∨ id ∈ x.2.mentions) :
    ∀ id, id ∈ d'.ids ↔ (said ++ [x]).Mentions id := by
  intro id
  rw [hids, h.mentioned, Said.mentions_snoc]

theorem Tells.placed_snoc (hids : ∀ id, id ∈ d'.ids ↔ id ∈ d.ids ∨ id ∈ x.2.mentions)
    (hclosing : ∀ join line, x.2.bracket? x.1 ≠ some (.closing join line))
    (hsettles : d.Settles d') :
    ∀ id s, d'.state? id = some s → s.kind.isPseudo = false → (said ++ [x]).Lies s := by
  intro id s hs hauthor
  cases hsettles.settled id s hs with
  | @kept old hold hregion hjoin hpseudo =>
    have hlies := h.placed _ _ hold (hpseudo ▸ hauthor)
    refine hlies.append (fun line hmem => hclosing old.id line ?_) (mem_of_state? hold).2.symm
      hregion hjoin
    rwa [Said.brackets_singleton, Option.mem_toList] at hmem
  | declared hnew hregion hjoin =>
    have hmention : s.id ∈ x.2.mentions := by
      obtain ⟨-, rfl⟩ := mem_of_state? hs
      exact ((hids s.id).mp (mem_ids_of_state? hs)).resolve_left hnew
    exact .mentioned hjoin rfl hmention (mt (h.mentioned s.id).mpr hnew) h.opened hregion
  | pseudo hends => rw [hends] at hauthor; cases hauthor

/-- A statement that is no bracket. -/
theorem Tells.plain (hids : ∀ id, id ∈ d'.ids ↔ id ∈ d.ids ∨ id ∈ x.2.mentions)
    (hbracket : x.2.bracket? x.1 = none) (hopen : d'.openForks = d.openForks)
    (hregions : d'.regions = d.regions) (hsettles : d.Settles d') : Tells (said ++ [x]) d' := by
  have hbrackets : (said ++ [x]).brackets = said.brackets := by
    rw [Said.brackets_append, Said.brackets_singleton, hbracket, Option.toList_none,
      List.append_nil]
  refine ⟨h.mentioned_snoc hids, ?_, ?_, h.placed_snoc hids ?_ hsettles⟩
  · rw [hbrackets, hopen]
    exact h.opened
  · rw [hbrackets, hregions]
    exact h.closed
  · rw [hbracket]
    exact nofun

/-- The marker of a fork. -/
theorem Tells.forked
    (hids : ∀ other, other ∈ (d.forked line id).ids ↔ other ∈ d.ids ∨ other ∈ x.2.mentions)
    (hbracket : x.2.bracket? x.1 = some (.opening id line)) (hfree : d.MayBe id .fork) :
    Tells (said ++ [x]) (d.forked line id) := by
  have hbrackets : (said ++ [x]).brackets = said.brackets ++ [.opening id line] := by
    rw [Said.brackets_append, Said.brackets_singleton, hbracket, Option.toList_some]
  have hmarked := settles_marked hfree (by decide) (by decide)
  refine ⟨h.mentioned_snoc hids, ?_, ?_, h.placed_snoc hids ?_ ⟨hmarked.kept, hmarked.settled⟩⟩
  · rw [hbrackets]
    exact h.opened.open
  · have hregions : (d.forked line id).regions = d.regions := regions_declare
    rw [hbrackets, hregions]
    exact h.closed.open
  · rw [hbracket]
    exact fun _ _ => nofun

/-- The marker of a join, where a fork is open. -/
theorem Tells.joined {fork : String} {first : Nat} {outer : List (String × Nat)}
    (hids : ∀ other, other ∈ (d.joined id fork outer).ids ↔ other ∈ d.ids ∨ other ∈ x.2.mentions)
    (hbracket : x.2.bracket? x.1 = some (.closing id line))
    (hopen : d.openForks = (fork, first) :: outer) :
    Tells (said ++ [x]) (d.joined id fork outer) := by
  have hbrackets : (said ++ [x]).brackets = said.brackets ++ [.closing id line] := by
    rw [Said.brackets_append, Said.brackets_singleton, hbracket, Option.toList_some]
  have hleaves : Bracket.Leaves said.brackets ((fork, first) :: outer) := hopen ▸ h.opened
  refine ⟨h.mentioned_snoc hids, ?_, ?_, fun other s hs hauthor => ?_⟩
  · rw [hbrackets]
    exact hleaves.close
  · rw [hbrackets]
    exact h.closed.close hleaves
  · rw [state?_joined] at hs
    by_cases hother : other = id
    · rw [if_pos hother] at hs
      obtain ⟨marked, hmarked, rfl⟩ := Option.map_eq_some_iff.mp hs
      rw [state?_marked, if_pos rfl] at hmarked
      obtain ⟨declared, hdeclared, rfl⟩ := Option.map_eq_some_iff.mp hmarked
      obtain ⟨-, rfl⟩ := mem_of_state? hdeclared
      exact .closed rfl hbrackets (fun _ => List.not_mem_nil) hleaves.close rfl
    · rw [if_neg hother, state?_marked, if_neg hother, state?_declare, if_neg hother] at hs
      refine (h.placed other s hs hauthor).append (fun _ hmem => ?_) rfl rfl Iff.rfl
      rw [Said.brackets_singleton, hbracket, Option.mem_toList] at hmem
      cases hmem
      exact hother (mem_of_state? hs).2.symm

end Step

theorem Tells.of_eq (h : Tells said d) (hstates : d'.states = d.states)
    (hopen : d'.openForks = d.openForks) (hregions : d'.regions = d.regions) : Tells said d' := by
  obtain ⟨states, transitions, regions, notes, openForks, initialLine, openNote⟩ := d'
  cases hstates
  cases hopen
  cases hregions
  exact ⟨h.mentioned, h.opened, h.closed, h.placed⟩

theorem Tells.describe (h : Tells said d) {x : Nat × Statement} {text : String}
    (hmentions : x.2.mentions = [id]) (hbracket : x.2.bracket? x.1 = none) :
    Tells (said ++ [x]) (d.describe id text) := by
  obtain ⟨states, hstates⟩ := exists_states_describe d id text
  refine h.plain (fun other => ?_) hbracket ?_ ?_ (settles_describe d id text)
  · rw [ids_describe, mem_addNew, hmentions, List.mem_singleton]
  · rw [hstates]
  · rw [hstates]

/-- A statement that is added says what the draft then knows. -/
theorem Tells.addStatement (h : Tells said d) {fenced : Bool} {text : String}
    (hd : d.addStatement fenced line text = .ok d') :
    Tells (said ++ [(line, Statement.read text)]) d' := by
  unfold Draft.addStatement at hd
  generalize Statement.read text = s at hd
  have haside : s.mentions = [] → s.bracket? line = none → d'.states = d.states →
      d'.openForks = d.openForks → d'.regions = d.regions → Tells (said ++ [(line, s)]) d' := by
    intro hmentions hbracket hstates hopen hregions
    refine h.plain (fun other => ?_) hbracket hopen hregions (settles_of_states_eq hstates)
    unfold ids
    rw [hstates, hmentions]
    simp
  cases s with
  | silent =>
    cases hd
    exact haside rfl rfl rfl rfl rfl
  | arrow source target rest =>
    obtain ⟨guard, label, -, -, rfl⟩ := addArrow_eq_ok_iff.mp hd
    obtain ⟨states, hstates⟩ := exists_states_draw d line source target guard label
    refine h.plain (fun other => ?_) rfl ?_ ?_ (settles_draw d line source target guard label)
    · change other ∈ (d.linking line source target).ids ↔ _
      rw [ids_linking, mem_addNew, mem_addNew, or_assoc]
      simp [Statement.mentions]
    · rw [hstates]
      cases source <;> rfl
    · rw [hstates]
      cases source <;> rfl
  | marker id word =>
    obtain ⟨kind, hkind, hfree, hmarks⟩ := addMarker_eq_ok_iff.mp hd
    have hids : ∀ other, other ∈ d'.ids ↔
        other ∈ d.ids ∨ other ∈ (Statement.marker id word).mentions := by
      intro other
      rw [hmarks.ids, mem_addNew, Statement.mentions, List.mem_singleton]
    have hbracket : (Statement.marker id word).bracket? line = Bracket.ofKind? id line kind :=
      Statement.bracket?_marker hkind
    cases hmarks with
    | choice =>
      refine h.plain hids hbracket openForks_declare regions_declare ?_
      exact settles_marked hfree (by decide) (by decide)
    | fork => exact h.forked hids hbracket hfree
    | join hopen => exact h.joined hids hbracket hopen
  | «alias» id text =>
    cases hd
    exact h.describe rfl rfl
  | composite => cases hd
  | note position id text =>
    cases hd
    exact haside rfl rfl rfl rfl rfl
  | openNote position id =>
    cases hd
    exact haside rfl rfl rfl rfl rfl
  | description id text =>
    simp only at hd
    split at hd
    · cases hd
    · cases hd
      exact h.describe rfl rfl
  | unknown => cases hd

theorem Tells.addLine (h : Tells said d) {fenced : Bool} {line : NumberedLine}
    (hd : d.addLine fenced line = .ok d') :
    Tells (said ++ if d.openNote.isSome then []
      else [(line.1, Statement.read (Text.strip line.2))]) d' := by
  unfold Draft.addLine at hd
  simp only at hd
  split at hd
  · rename_i note hnote
    rw [hnote, Option.isSome_some, if_pos rfl, List.append_nil]
    split at hd
    · cases hd
      exact h.of_eq rfl rfl rfl
    · cases hd
      exact h.of_eq rfl rfl rfl
  · rename_i hnone
    rw [hnone, Option.isSome_none, if_neg Bool.false_ne_true]
    exact h.addStatement hd

/-- Lines that are added say what the draft then knows. -/
theorem Tells.addLines (h : Tells said d) {fenced : Bool} {lines : List NumberedLine}
    (hd : d.addLines fenced lines = .ok d') :
    Tells (said ++ Said.ofLines d.openNote.isSome lines) d' := by
  induction lines generalizing d said with
  | nil =>
    cases hd
    rw [Said.ofLines, List.append_nil]
    exact h
  | cons line rest ih =>
    unfold Draft.addLines at hd
    rw [List.foldlM_cons, bind_eq_ok_iff] at hd
    obtain ⟨next, hnext, hrest⟩ := hd
    have htold := ih (h.addLine hnext) hrest
    rw [(addLine_eq hnext).2, List.append_assoc] at htold
    exact htold

/-! What a diagram is refused for. -/

theorem cause_of_readExit {rest : String} {f : DocumentFault} (h : readExit line rest = .error f) :
    f.cause ≠ .joinWithoutFork := by
  have hlabel : ∀ (cs : List Char) cause, labelOf cs = .error cause →
      cause = .textAfterTransition := by
    intro cs cause h
    unfold labelOf at h
    split at h
    · cases h
    · cases h
    · split at h
      · cases h
      · cases h
        rfl
    · cases h
      rfl
  have hfinish : ∀ (guard : Option String) (left : List Char),
      readExit.finish line guard left = .error f → f.cause ≠ .joinWithoutFork := by
    intro guard left h
    unfold readExit.finish at h
    split at h
    · cases h
    · rename_i cause hcause
      obtain rfl := hlabel left cause hcause
      cases h
      exact nofun
  unfold readExit at h
  simp only at h
  split at h
  · cases h
    exact nofun
  · exact hfinish _ _ h
  · split at h
    · cases h
      exact nofun
    · exact hfinish _ _ h

theorem cause_of_addArrow {source target : Endpoint} {rest : String} {f : DocumentFault}
    (h : d.addArrow line source target rest = .error f) : f.cause ≠ .joinWithoutFork := by
  unfold addArrow at h
  simp only [bind_eq_error_iff] at h
  rcases h with h | ⟨exit, -, h | ⟨checked, -, h⟩⟩
  · exact cause_of_readExit h
  · unfold checkSource at h
    split at h
    · cases h
      exact nofun
    · cases h
    · cases h
  · cases h

/-- A line is refused for a join without a fork only where it is the marker of one and no fork is
open. -/
theorem exists_of_joinWithoutFork {fenced : Bool} {line : NumberedLine} {f : DocumentFault}
    (h : d.addLine fenced line = .error f) (hcause : f.cause = .joinWithoutFork) :
    d.openNote = none ∧ d.openForks = [] ∧ ∃ join,
      (Statement.read (Text.strip line.2)).bracket? line.1 = some (.closing join line.1) ∧
      f = .atLine line.1 .joinWithoutFork (some join) := by
  unfold addLine at h
  simp only at h
  split at h
  · split at h <;> cases h
  · rename_i hnone
    refine ⟨hnone, ?_⟩
    unfold Draft.addStatement at h
    generalize Statement.read (Text.strip line.2) = s at h
    cases s with
    | silent => cases h
    | arrow source target rest => exact absurd hcause (cause_of_addArrow h)
    | marker id word =>
      simp only at h
      unfold addMarker at h
      split at h
      · cases h
        cases hcause
      · rename_i kind hkind
        simp only at h
        split at h
        · cases h
          cases hcause
        · split at h
          · cases h
          · unfold closeRegion at h
            split at h
            · rename_i hopen
              cases h
              have hsame : (d.declare id).openForks = d.openForks := openForks_declare
              exact ⟨hsame.symm.trans hopen, id, Statement.bracket?_marker hkind, rfl⟩
            · cases h
          · cases h
    | «alias» id text => cases h
    | composite =>
      cases h
      cases hcause
    | note position id text => cases h
    | openNote position id => cases h
    | description id text =>
      simp only at h
      split at h
      · cases h
        cases hcause
      · cases h
    | unknown =>
      cases h
      cases hcause

end Draft

namespace Said

theorem ofLines_append {inside : Bool} (before after : List NumberedLine) :
    ofLines inside (before ++ after) =
      ofLines inside before ++ ofLines (Draft.insideNote inside before) after := by
  induction before generalizing inside with
  | nil => rfl
  | cons line rest ih =>
    rw [List.cons_append, ofLines, ofLines, ih, List.append_assoc]
    rfl

end Said

namespace Draft

variable {d d' : Draft} {fenced : Bool} {diagram actions : List NumberedLine}

theorem isSome_openNote_addLines (hd : d.addLines fenced diagram = .ok d') :
    d'.openNote.isSome = insideNote d.openNote.isSome diagram := by
  induction diagram generalizing d with
  | nil =>
    cases hd
    rfl
  | cons line rest ih =>
    unfold Draft.addLines at hd
    rw [List.foldlM_cons, bind_eq_ok_iff] at hd
    obtain ⟨next, hnext, hrest⟩ := hd
    rw [ih hrest, (addLine_eq hnext).2]
    rfl

/-- A diagram is refused for a join without a fork at the first join marker that closes nothing. -/
theorem exists_of_addLines_joinWithoutFork {f : DocumentFault}
    (h : empty.addLines fenced diagram = .error f) (hcause : f.cause = .joinWithoutFork) :
    ∃ before join line after,
      (Said.ofLines false diagram).brackets = before ++ .closing join line :: after ∧
      Bracket.Balanced before ∧ f = .atLine line .joinWithoutFork (some join) := by
  obtain ⟨earlier, line, later, d, rfl, hearlier, hline⟩ := exists_of_foldlM_eq_error h
  obtain ⟨hnote, hopen, join, hbracket, rfl⟩ := exists_of_joinWithoutFork hline hcause
  have htells : Tells (Said.ofLines false earlier) d := tells_empty.addLines hearlier
  have hbalanced := Bracket.leaves_nil_iff.mp (hopen ▸ htells.opened)
  have houtside : insideNote false earlier = false := by
    have hinside := isSome_openNote_addLines hearlier
    rw [hnote] at hinside
    exact hinside.symm
  have hsplit : (Said.ofLines false (earlier ++ line :: later)).brackets =
      (Said.ofLines false earlier).brackets ++ .closing join line.1 ::
        (Said.ofLines (insideAfter false line) later).brackets := by
    rw [Said.ofLines_append, houtside, Said.brackets_append, Said.ofLines,
      if_neg Bool.false_ne_true, Said.brackets_append, Said.brackets_singleton, hbracket]
    rfl
  exact ⟨_, join, line.1, _, hsplit, hbalanced, rfl⟩

/-- Action entries leave the states in their regions. -/
theorem tells_ofLines (hd : ofLines fenced diagram actions = .ok d) :
    Tells (Said.ofLines false diagram) d := by
  obtain ⟨drawn, hdrawn, -, -, hactions⟩ := ofLines_eq_ok_iff.mp hd
  refine foldlM_keeps ?_ (tells_empty.addLines hdrawn) hactions
  intro before line after h hstep
  rcases exists_of_addAction hstep with rfl | ⟨id, text, action, -, rfl⟩
  · exact h
  · refine ⟨fun other => ?_, h.opened, h.closed, fun other s hs hauthor => ?_⟩
    · rw [ids_withAction]
      exact h.mentioned other
    · rw [state?_withAction] at hs
      split at hs
      · obtain ⟨s, hold, rfl⟩ := Option.map_eq_some_iff.mp hs
        have hlies : (Said.ofLines false diagram ++ []).Lies
            { s with actions := s.actions ++ [action] } :=
          (h.placed id s hold hauthor).append (fun _ => List.not_mem_nil) rfl rfl Iff.rfl
        rwa [List.append_nil] at hlies
      · exact h.placed other s hs hauthor

end Draft

/-- The statements of a document's diagram. -/
def Document.Body.said (b : Body) : Said := Said.ofLines false b.diagram

namespace Definition

open Runbook.Workflow.Bracket (Balanced Leaves Encloses)

/-- The markers of forks and joins match like brackets. A document without another mistake in its
statements is refused at the first join marker that closes nothing, or else at the innermost fork
marker that is left open. Otherwise the regions of its definition are those that the brackets
enclose, in the order of the joins, and every state lies in the region that was open for it. -/
theorem brackets_of_parse {text : String} {name : Option String} {layout : Layout} {header : Header}
    {body : Document.Body} (hlayout : Document.layout (Document.numbered text) = .ok layout)
    (hheader : Document.readHeader layout.header layout.first = .ok header)
    (hbody : Document.splitBody layout.body = .ok body)
    (hjoins : ∀ f, Draft.empty.addLines body.fenced body.diagram = .error f →
      f.cause = .joinWithoutFork) :
    ((∃ before join line after, body.said.brackets = before ++ .closing join line :: after ∧
      Balanced before) ∨ ∃ forks, Leaves body.said.brackets forks) ∧
    (∀ before join line after, body.said.brackets = before ++ .closing join line :: after →
      Balanced before →
      parse text name = .error (.fault (.atLine line .joinWithoutFork (some join)))) ∧
    (∀ fork line outer, Leaves body.said.brackets ((fork, line) :: outer) →
      parse text name = .error (.fault (.atLine line .forkWithoutJoin (some fork)))) ∧
    ∀ d, parse text name = .ok d → Balanced body.said.brackets ∧
      Encloses body.said.brackets d.regions ∧
      ∀ s ∈ d.states, s.kind.isPseudo = false → body.said.Lies s := by
  have hparse : parse text name =
      ((Draft.ofLines body.fenced body.diagram body.actions).mapError .fault).map
        (ofDraft name header) := by
    simp only [parse, hlayout, hheader, hbody, Except.mapError, bind, Except.bind]
    cases Draft.ofLines body.fenced body.diagram body.actions <;> rfl
  refine ⟨Bracket.unmatched_or_leaves _, fun before join line after hbrackets hbalanced => ?_,
    fun fork line outer hleaves => ?_, fun d hd => ?_⟩
  · cases hlines : Draft.empty.addLines body.fenced body.diagram with
    | ok drawn =>
      have htells := Draft.tells_empty.addLines hlines
      exact absurd (hbrackets ▸ htells.opened) hbalanced.not_leaves_closing
    | error f =>
      obtain ⟨before', join', line', after', hbrackets', hbalanced', rfl⟩ :=
        Draft.exists_of_addLines_joinWithoutFork hlines (hjoins f hlines)
      obtain ⟨rfl, rfl⟩ := hbalanced.closing_unique hbalanced' (hbrackets.symm.trans hbrackets')
      rw [hparse, Draft.ofLines, hlines]
      rfl
  · cases hlines : Draft.empty.addLines body.fenced body.diagram with
    | ok drawn =>
      have htells := Draft.tells_empty.addLines hlines
      have hopen : drawn.openForks = (fork, line) :: outer := htells.opened.unique hleaves
      have hregions : drawn.checkRegions = .error (.atLine line .forkWithoutJoin (some fork)) := by
        unfold Draft.checkRegions
        rw [hopen]
      rw [hparse, Draft.ofLines, hlines]
      change ((drawn.checkRegions >>= _).mapError Refusal.fault).map _ = _
      rw [hregions]
      rfl
    | error f =>
      obtain ⟨before, join, last, after, hbrackets, hbalanced, -⟩ :=
        Draft.exists_of_addLines_joinWithoutFork hlines (hjoins f hlines)
      exact absurd (hbrackets ▸ hleaves) hbalanced.not_leaves_closing
  · rw [hparse, map_eq_ok_iff] at hd
    obtain ⟨draft, hdraft, rfl⟩ := hd
    rw [mapError_eq_ok_iff] at hdraft
    have htells := Draft.tells_ofLines hdraft
    have hnodup := Draft.nodup_ids_ofLines hdraft
    refine ⟨?_, htells.closed, fun s hs hauthor => ?_⟩
    · rw [ ← Bracket.leaves_nil_iff, ← Draft.openForks_ofLines hdraft]
      exact htells.opened
    · have hstate := (state?_ofDraft hnodup s.id).symm.trans (state?_of_mem hs)
      exact htells.placed s.id s hstate hauthor

/-- A fork between the branches of another one, and a state between the two joins. -/
def forkInFork : List String :=
  ["name: nested", "", "[*] --> F", "state F <<fork>>", "F --> A", "F --> G", "state G <<fork>>",
    "G --> B", "G --> C", "state I <<join>>", "B --> I", "C --> I", "I --> D", "state J <<join>>",
    "A --> J", "D --> J", "J --> [*]"]

theorem enclosed_in_forkInFork :
    ∃ (body : Document.Body) (d : Definition), parse (Text.unlines forkInFork) none = .ok d ∧
      body.said.brackets = [.opening "F" 4, .opening "G" 7, .closing "I" 10, .closing "J" 14] ∧
      d.regions = [⟨"G", "I"⟩, ⟨"F", "J"⟩] ∧
      (d.named.map fun s => (s.id, s.region)) = [("F", none), ("A", some "F"), ("G", some "F"),
        ("B", some "G"), ("C", some "G"), ("I", some "F"), ("D", some "F"), ("J", none)] ∧
      Balanced body.said.brackets ∧ Encloses body.said.brackets d.regions ∧
      ∀ s ∈ d.states, s.kind.isPseudo = false → body.said.Lies s := by
  have hunbroken : ∀ l ∈ forkInFork, Text.unbroken l = true := by decide
  obtain ⟨d, hparse, -, htest⟩ := exists_read forkInFork (fun d =>
    d.regions == [⟨"G", "I"⟩, ⟨"F", "J"⟩] &&
      (d.named.map fun s => (s.id, s.region)) == [("F", none), ("A", some "F"), ("G", some "F"),
        ("B", some "G"), ("C", some "G"), ("I", some "F"), ("D", some "F"), ("J", none)])
    hunbroken (by decide +kernel)
  rw [Bool.and_eq_true, beq_iff_eq, beq_iff_eq] at htest
  have hparts := hparse
  unfold parse at hparts
  simp only [bind_eq_ok_iff, mapError_eq_ok_iff] at hparts
  obtain ⟨layout, hlayout, header, hheader, body, hbody, draft, hdraft, -⟩ := hparts
  obtain ⟨drawn, hdrawn, -⟩ := Draft.ofLines_eq_ok_iff.mp hdraft
  have hjoins : ∀ f, Draft.empty.addLines body.fenced body.diagram = .error f →
      f.cause = .joinWithoutFork := by
    intro f hf
    rw [hdrawn] at hf
    cases hf
  obtain ⟨-, -, -, hread⟩ := brackets_of_parse hlayout hheader hbody hjoins
  have hdiagram := Document.diagram?_eq_some hlayout hbody
  rw [numbered_unlines hunbroken] at hdiagram
  have hbrackets : body.said.brackets =
      [.opening "F" 4, .opening "G" 7, .closing "I" 10, .closing "J" 14] := by
    have hsaid : ((Document.diagram? ((forkInFork.zipIdx 1).map fun l => (l.2, l.1))).map
        fun diagram => (Said.ofLines false diagram).brackets) =
          some [.opening "F" 4, .opening "G" 7, .closing "I" 10, .closing "J" 14] := by
      decide +kernel
    rw [hdiagram] at hsaid
    exact Option.some.inj hsaid
  exact ⟨body, d, hparse, hbrackets, htest.1, htest.2, hread d hparse⟩

/-- The innermost of two forks that are left open. -/
example : parseLines (["name: left", "", "state F <<fork>>", "state G <<fork>>"].zipIdx 1 |>.map
    fun l => (l.2, l.1)) none = .error (.fault (.atLine 4 .forkWithoutJoin (some "G"))) := by
  decide +kernel

end Definition

end Runbook.Workflow
