import Runbook.Proofs.Sketches

/-!
A draft shows the statements it was made of. One statement that may come next takes a draft that
shows what came before to one that shows it too: an arrow declares its ends, a marker gives its kind
and opens or closes a region, a description is put where the state is. Nothing is said of a state
but what the list of statements tells of it.
-/
namespace Runbook.Workflow

open Definition (addNew)
open Draft (sourceId targetId)

/-- No state is written with a reserved identifier. -/
def Element.Unreserved : Element → Prop
  | .transition source target _ _ => source.Unreserved ∧ target.Unreserved
  | .marker id _ | .description id _ => id ≠ startId ∧ id ≠ endId
  | .note .. | .block .. => True

theorem Element.Written.unreserved {e : Element} {cs : List Char} (h : e.Written cs) :
    e.Unreserved := by
  cases h with
  | transition hsource _ _ htarget => exact ⟨hsource.unreserved, htarget.unreserved⟩
  | marker _ hid => exact unreserved_of_isIdent hid
  | title _ _ _ _ hid => exact unreserved_of_isIdent hid
  | description hid => exact unreserved_of_isIdent hid
  | note => trivial

/-- A statement may come behind others: the pseudostate begins one transition only, a state has one
mark, and a join closes a region. -/
structure Sketch.Fits (sk : Sketch) (e : Element) : Prop where
  begins : e.begins = true → (sk.any fun x => x.2.begins) = false
  mark : ∀ id mark, e = .marker id mark → ∀ given, Sketch.mark? sk id = some given → given = mark
  paired : ∀ id, e = .marker id .join → Sketch.forks sk ≠ []

namespace Draft

open Sketch

variable {d : Draft} {sk : Sketch} {id : String}

section Told

variable {f f' : String → State}

/-- Every declared state is as it is told. -/
def Told (f : String → State) (d : Draft) : Prop := ∀ id s, d.state? id = some s → s = f id

theorem Told.congr (h : d.Told f) (hf : ∀ id ∈ d.ids, f' id = f id) : d.Told f' := by
  intro id s hs
  rw [hf id (mem_ids_of_state? hs)]
  exact h id s hs

theorem Told.declare (h : d.Told f) (hnew : d.state? id = none → d.newborn id = f id) :
    (d.declare id).Told f := by
  intro other s hs
  rw [state?_declare] at hs
  split at hs
  · rename_i hother
    cases hold : d.state? id with
    | some t =>
      rw [hold, Option.getD_some, Option.some.injEq] at hs
      rw [ ← hs, hother]
      exact h id t hold
    | none =>
      rw [hold, Option.getD_none, Option.some.injEq] at hs
      rw [ ← hs, hother]
      exact hnew hold
  · exact h other s hs

theorem Told.declarePseudo (h : d.Told f) {kind : StateKind}
    (hnew : f id = ⟨id, kind, [], "", none⟩) : (d.declarePseudo id kind).Told f := by
  intro other s hs
  rw [state?_declarePseudo] at hs
  split at hs
  · rename_i hother
    cases hold : d.state? id with
    | some t =>
      rw [hold, Option.getD_some, Option.some.injEq] at hs
      rw [ ← hs, hother]
      exact h id t hold
    | none =>
      rw [hold, Option.getD_none, Option.some.injEq] at hs
      rw [ ← hs, hother, hnew]
  · exact h other s hs

/-- A change of one state is told where it was made. -/
theorem Told.modifyState (h : d.Told f) {g : State → State} (hg : ∀ s : State, (g s).id = s.id)
    (hself : f' id = g (f id)) (hothers : ∀ other ∈ d.ids, other ≠ id → f' other = f other) :
    (d.modifyState id g).Told f' := by
  intro other s hs
  rw [state?_modifyState hg] at hs
  split at hs
  · rename_i hother
    obtain ⟨t, ht, rfl⟩ := Option.map_eq_some_iff.mp hs
    rw [hother, hself, h id t ht]
  · rename_i hother
    rw [hothers other (mem_ids_of_state? hs) hother]
    exact h other s hs

end Told

/-- A draft shows statements outside a note. -/
structure Shows (sk : Sketch) (d : Draft) : Prop where
  ids : d.ids = Sketch.ids sk
  states : d.Told (state sk)
  transitions : d.transitions = Sketch.transitions sk
  forks : d.openForks.map Prod.fst = Sketch.forks sk
  regions : d.regions = Sketch.regions sk
  notes : d.notes = Sketch.notes sk
  openNote : d.openNote = none
  begun : d.initialLine.isSome = sk.any fun x => x.2.begins

theorem shows_empty : Shows [] empty where
  ids := rfl
  states := nofun
  transitions := rfl
  forks := rfl
  regions := rfl
  notes := rfl
  openNote := rfl
  begun := rfl

/-- A state that is declared now is as it would be shown. -/
theorem told_declare (h : d.Told (state sk)) (hids : ∀ id ∈ Sketch.ids sk, id ∈ d.ids)
    (hforks : d.openForks.map Prod.fst = Sketch.forks sk) (hid : id ≠ startId ∧ id ≠ endId) :
    (d.declare id).Told (state sk) := by
  refine h.declare fun hnone => ?_
  have hnew : id ∉ Sketch.ids sk := fun hmem => not_mem_ids_of_state?_eq_none hnone (hids id hmem)
  rw [state_of_not_mem hid.1 hid.2 hnew, ← hforks, List.head?_map]
  rfl

theorem told_declareSource (h : d.Told (state sk)) (hids : ∀ id ∈ Sketch.ids sk, id ∈ d.ids)
    (hforks : d.openForks.map Prod.fst = Sketch.forks sk) {e : Endpoint} (he : e.Unreserved) :
    (d.declareSource e).Told (state sk) := by
  cases e with
  | pseudo => exact h.declarePseudo rfl
  | state id => exact told_declare h hids hforks (he id rfl)

theorem told_declareTarget (h : d.Told (state sk)) (hids : ∀ id ∈ Sketch.ids sk, id ∈ d.ids)
    (hforks : d.openForks.map Prod.fst = Sketch.forks sk) {e : Endpoint} (he : e.Unreserved) :
    (d.declareTarget e).Told (state sk) := by
  cases e with
  | pseudo => exact h.declarePseudo rfl
  | state id => exact told_declare h hids hforks (he id rfl)

namespace Shows

variable {line : Nat}

/-- The fork of the innermost region is the one that is shown. -/
theorem told_declare (h : Shows sk d) (hid : id ≠ startId ∧ id ≠ endId) :
    (d.declare id).Told (state sk) :=
  Draft.told_declare h.states (fun _ hmem => h.ids ▸ hmem) h.forks hid

theorem mem_ids_of_declare (h : Shows sk d) {e : Element} (hmentions : e.mentions = [id])
    {other : String} (hmem : other ∈ (d.declare id).ids) :
    other ∈ Sketch.ids (sk ++ [(line, e)]) := by
  rw [ids_declare, h.ids] at hmem
  rw [ids_snoc, hmentions]
  exact hmem

theorem draw (h : Shows sk d) {source target : Endpoint} {guard label : Option String}
    (hsource : source.Unreserved) (htarget : target.Unreserved) :
    Shows (sk ++ [(line, .transition source target guard label)])
      (d.draw line source target guard label) := by
  have hids : (d.linking line source target).ids =
      Sketch.ids (sk ++ [(line, .transition source target guard label)]) := by
    rw [ids_linking, ids_snoc, h.ids]
    rfl
  have hbegun : Shows sk { d.begun line source with initialLine := d.initialLine } := by
    cases source <;> exact ⟨h.ids, h.states, h.transitions, h.forks, h.regions, h.notes, h.openNote,
      h.begun⟩
  have hfirst := told_declareSource (d := d.begun line source) hbegun.states
    (fun _ hmem => hbegun.ids ▸ hmem) hbegun.forks hsource
  have hlinked : (d.linking line source target).Told (state sk) := by
    obtain ⟨states, hstates⟩ := exists_states_declareSource (d.begun line source) source
    refine told_declareTarget hfirst (fun id hmem => ?_) ?_ htarget
    · rw [ids_declareSource, mem_addNew]
      exact Or.inl (hbegun.ids ▸ hmem)
    · rw [hstates]
      exact hbegun.forks
  obtain ⟨states, hstates⟩ := exists_states_draw d line source target guard label
  constructor
  case ids => exact hids
  case states =>
    refine Told.congr (f := state sk) hlinked fun id hmem => state_snoc rfl rfl ?_
    rw [ ← hids]
    exact hmem
  case transitions =>
    rw [hstates, transitions_snoc, ← h.transitions]
    rfl
  case forks =>
    rw [hstates, forks_snoc]
    exact hbegun.forks
  case regions =>
    rw [hstates, regions_snoc]
    exact hbegun.regions.trans (List.append_nil _).symm
  case notes =>
    rw [hstates, notes_snoc]
    exact hbegun.notes.trans (List.append_nil _).symm
  case openNote =>
    rw [hstates]
    exact hbegun.openNote
  case begun =>
    rw [hstates, List.any_append, ← h.begun]
    cases source with
    | pseudo => exact (Bool.or_true _).symm
    | state id => exact (Bool.or_false _).symm

/-- A statement about one state that neither draws an arrow nor a note shows in that state, and in
the regions if it closes one. -/
theorem of_state (h : Shows sk d) {d' : Draft} {e : Element} (hmentions : e.mentions = [id])
    (hids : d'.ids = addNew (Sketch.ids sk) id) (hstates : d'.Told (state (sk ++ [(line, e)])))
    (htransition : e.transition? line = none) (hnote : e.note? = none)
    (hbegins : e.begins = false) (htransitions : d'.transitions = d.transitions)
    (hforks : d'.openForks.map Prod.fst = e.forksAfter (Sketch.forks sk))
    (hregions : d'.regions = Sketch.regions sk ++ (e.region? (Sketch.forks sk)).toList)
    (hnotes : d'.notes = d.notes) (hopen : d'.openNote = d.openNote)
    (hline : d'.initialLine = d.initialLine) : Shows (sk ++ [(line, e)]) d' where
  ids := by
    rw [ids_snoc, hids, hmentions]
    rfl
  states := hstates
  transitions := by rw [transitions_snoc, htransition, htransitions, h.transitions]; simp
  forks := by rw [forks_snoc, hforks]
  regions := by rw [regions_snoc, hregions]
  notes := by rw [notes_snoc, hnote, hnotes, h.notes]; simp
  openNote := hopen.trans h.openNote
  begun := by rw [hline, h.begun]; simp [hbegins]

theorem describe (h : Shows sk d) (hid : id ≠ startId ∧ id ≠ endId) (text : String) :
    Shows (sk ++ [(line, .description id text)]) (d.describe id text) := by
  obtain ⟨states, hdeclare⟩ := exists_states_declare d id
  have hids : (d.describe id text).ids = addNew (Sketch.ids sk) id := by rw [ids_describe, h.ids]
  have hstates : (d.describe id text).Told (state (sk ++ [(line, .description id text)])) :=
    (h.told_declare hid).modifyState (fun _ => rfl)
      (state_described hid.1 hid.2 rfl (if_pos rfl)) fun _ hmem hne =>
        state_snoc rfl (if_neg (Ne.symm hne)) (h.mem_ids_of_declare rfl hmem)
  refine h.of_state rfl hids hstates rfl rfl rfl ?_ ?_ ?_ ?_ ?_ ?_
  case refine_2 => exact (congrArg (List.map Prod.fst) openForks_declare).trans h.forks
  case refine_3 => exact regions_declare.trans (h.regions.trans (List.append_nil _).symm)
  all_goals
    unfold Draft.describe
    rw [hdeclare]
    rfl

/-- A marked state is as it is shown, where its marker is neither the first of another kind nor that
of a join. -/
theorem told_marked (h : Shows sk d) (hid : id ≠ startId ∧ id ≠ endId) {mark : Mark}
    (hsame : ∀ given, mark? sk id = some given → given = mark) (hjoin : mark ≠ .join) :
    ((d.declare id).marked id mark.kind).Told (state (sk ++ [(line, .marker id mark)])) :=
  (h.told_declare hid).modifyState (fun _ => rfl)
    (state_marked hid.1 hid.2 (if_pos rfl) rfl hsame hjoin) fun _ hmem hne =>
      state_snoc (if_neg (Ne.symm hne)) rfl (h.mem_ids_of_declare rfl hmem)

/-- A join lies in the region around the one it closes. -/
theorem told_joined (h : Shows sk d) (hid : id ≠ startId ∧ id ≠ endId)
    (hsame : ∀ given, mark? sk id = some given → given = .join) {fork : String} {first : Nat}
    {outer : List (String × Nat)} (hopen : d.openForks = (fork, first) :: outer) :
    (d.joined id fork outer).Told (state (sk ++ [(line, .marker id .join)])) := by
  have hforks : Sketch.forks (sk ++ [(line, .marker id .join)]) = outer.map Prod.fst := by
    rw [forks_snoc, ← h.forks, hopen]
    rfl
  have hregion := state_joined (x := (line, .marker id .join)) hid.1 hid.2 (if_pos rfl) rfl hsame
  rw [hforks, List.head?_map] at hregion
  intro other s hs
  rw [state?_joined] at hs
  split at hs
  · rename_i hother
    rw [state?_marked, if_pos rfl, Option.map_map] at hs
    obtain ⟨t, ht, rfl⟩ := Option.map_eq_some_iff.mp hs
    rw [hother, hregion, ← h.told_declare hid id t ht]
    rfl
  · rename_i hother
    rw [state?_marked, if_neg hother] at hs
    have hkept : state (sk ++ [(line, .marker id .join)]) other = state sk other :=
      state_snoc (if_neg (Ne.symm hother)) rfl (h.mem_ids_of_declare rfl (mem_ids_of_state? hs))
    rw [hkept]
    exact h.told_declare hid other s hs

theorem mark (h : Shows sk d) (line : Nat) (hid : id ≠ startId ∧ id ≠ endId) {mark : Mark}
    (hsame : ∀ given, mark? sk id = some given → given = mark)
    (hpaired : mark = .join → Sketch.forks sk ≠ []) :
    ∃ d', Marks line id d mark.kind d' ∧ Shows (sk ++ [(line, .marker id mark)]) d' := by
  obtain ⟨states, hdeclare⟩ := exists_states_declare d id
  have hregions : d.regions = Sketch.regions sk ++ [] := h.regions.trans (List.append_nil _).symm
  cases mark with
  | choice =>
    have hmarks : Marks line id d .choice ((d.declare id).marked id .choice) := .choice
    refine ⟨_, hmarks, h.of_state rfl ?_ (h.told_marked hid hsame nofun) rfl rfl rfl ?_ ?_ ?_ ?_ ?_
      ?_⟩
    case refine_1 => exact hmarks.ids.trans (by rw [h.ids])
    all_goals rw [hdeclare]
    case refine_3 => exact h.forks
    case refine_4 => exact hregions
    all_goals rfl
  | fork =>
    have hmarks : Marks line id d .fork (d.forked line id) := .fork
    refine ⟨_, hmarks, h.of_state rfl ?_ (h.told_marked hid hsame nofun) rfl rfl rfl ?_ ?_ ?_ ?_ ?_
      ?_⟩
    case refine_1 => exact hmarks.ids.trans (by rw [h.ids])
    all_goals unfold forked
    all_goals rw [hdeclare]
    case refine_3 => exact congrArg (id :: ·) h.forks
    case refine_4 => exact hregions
    all_goals rfl
  | join =>
    obtain ⟨⟨fork, first⟩, outer, hopen⟩ : ∃ region outer, d.openForks = region :: outer := by
      refine List.exists_cons_of_ne_nil fun hnil => hpaired rfl ?_
      rw [ ← h.forks, hnil]
      rfl
    have hforks : Sketch.forks sk = fork :: outer.map Prod.fst := by rw [ ← h.forks, hopen]; rfl
    have hmarks : Marks line id d .join (d.joined id fork outer) := .join hopen
    refine ⟨_, hmarks, h.of_state rfl ?_ (h.told_joined hid hsame hopen) rfl rfl rfl ?_ ?_ ?_ ?_
      ?_ ?_⟩
    case refine_1 => exact hmarks.ids.trans (by rw [h.ids])
    case refine_3 =>
      rw [hforks]
      rfl
    case refine_4 =>
      rw [hforks, ← h.regions]
      rfl
    all_goals
      unfold joined
      rw [hdeclare]
      rfl

/-- A note on a state declares nothing. -/
theorem of_note (h : Shows sk d) {e : Element} {n : Note} (hmentions : e.mentions = [])
    (hmark : ∀ id, e.markOf? id = none) (htext : ∀ id, e.textOf? id = none)
    (htransition : e.transition? line = none) (hnote : e.note? = some n)
    (hbegins : e.begins = false) (hforks : e.forksAfter (Sketch.forks sk) = Sketch.forks sk)
    (hregion : e.region? (Sketch.forks sk) = none) :
    Shows (sk ++ [(line, e)]) { d with notes := d.notes ++ [n], openNote := none } := by
  have hids : Sketch.ids (sk ++ [(line, e)]) = Sketch.ids sk := by
    rw [ids_snoc, hmentions]
    rfl
  constructor
  case ids => exact h.ids.trans hids.symm
  case states =>
    refine Told.congr (f := state sk) h.states fun id hmem => state_snoc (hmark id) (htext id) ?_
    rw [hids, ← h.ids]
    exact hmem
  case transitions =>
    rw [transitions_snoc, htransition]
    exact h.transitions.trans (List.append_nil _).symm
  case forks =>
    rw [forks_snoc, hforks]
    exact h.forks
  case regions =>
    rw [regions_snoc, hregion]
    exact h.regions.trans (List.append_nil _).symm
  case notes =>
    rw [notes_snoc, hnote, ← h.notes]
    rfl
  case openNote => rfl
  case begun =>
    rw [List.any_append, List.any_cons, hbegins]
    exact h.begun.trans (Bool.or_false _).symm

/-- A statement on one line that may come next goes well, and the draft shows it. -/
theorem addStatement (h : Shows sk d) (line : Nat) {e : Element} {text : String}
    (hreads : e.Reads (Statement.read text)) (hfree : e.Unreserved) (hfits : sk.Fits e) :
    ∃ d', d.addStatement true line text = .ok d' ∧ Shows (sk ++ [(line, e)]) d' := by
  unfold Draft.addStatement
  generalize Statement.read text = s at hreads
  cases hreads with
  | transition hexit =>
    rename_i source target guard label rest
    have hfirst : source = .pseudo → d.initialLine = none := by
      rintro rfl
      rw [ ← Option.not_isSome_iff_eq_none, h.begun, hfits.begins rfl]
      exact Bool.false_ne_true
    exact ⟨_, addArrow_eq_ok_iff.mpr ⟨guard, label, hexit line, hfirst, rfl⟩,
      h.draw hfree.1 hfree.2⟩
  | marker hkind =>
    rename_i id word given
    have hsame := hfits.mark id given rfl
    obtain ⟨d', hmarks, hshows⟩ := h.mark line hfree hsame
      fun hjoin => hfits.paired id (hjoin ▸ rfl)
    have hfreeKind : d.MayBe id given.kind := by
      intro present hpresent
      obtain ⟨s, hs, rfl⟩ := exists_state_of_kind? hpresent
      rw [h.states id s hs]
      unfold state
      rw [if_neg hfree.1, if_neg hfree.2]
      cases hmark : Sketch.mark? sk id with
      | none => exact Or.inl rfl
      | some other =>
        rw [hsame other hmark]
        exact Or.inr rfl
    exact ⟨d', addMarker_eq_ok_iff.mpr ⟨given.kind, hkind, hfreeKind, hmarks⟩, hshows⟩
  | title id text => exact ⟨_, rfl, h.describe hfree text⟩
  | description id text => exact ⟨_, rfl, h.describe hfree text⟩
  | note side id text =>
    refine ⟨_, rfl, ?_⟩
    have hshows : Shows (sk ++ [(line, .note side id text)])
        { d with notes := d.notes ++ [⟨text, id, side.name⟩], openNote := none } :=
      h.of_note rfl (fun _ => rfl) (fun _ => rfl) rfl rfl rfl rfl rfl
    rw [ ← h.openNote] at hshows
    exact hshows

end Shows

section Blocks

variable {n : Note} {texts : List String}

/-- A note behind all its lines. -/
def takeLines (n : Note) (texts : List String) : Note := texts.foldl Note.addLine n

theorem takeLines_of_text (h : n.text ≠ "") :
    takeLines n texts = { n with text := "\n".intercalate (n.text :: texts) } := by
  unfold takeLines
  induction texts generalizing n with
  | nil => rfl
  | cons text rest ih =>
    have hadd : n.addLine text = { n with text := n.text ++ "\n" ++ text } := by
      unfold Note.addLine
      rw [if_neg (by simpa using h)]
    have hmore : (n.addLine text).text ≠ "" := by
      rw [hadd]
      simp [h]
    rw [List.foldl_cons, ih hmore, hadd]
    rfl

/-- What a note takes in are its lines, with breaks between them. -/
theorem takeLines_eq {id position : String} (hne : ∀ text ∈ texts, text ≠ "") :
    takeLines ⟨"", id, position⟩ texts = ⟨"\n".intercalate texts, id, position⟩ := by
  cases texts with
  | nil => rfl
  | cons text rest =>
    have hfirst : (⟨text, id, position⟩ : Note).text ≠ "" := hne text (List.mem_cons_self ..)
    exact takeLines_of_text hfirst

/-- All lines up to the end of a note are taken in. -/
theorem addLines_inside {lines : List NumberedLine} (hopen : d.openNote = some n)
    (hlines : ∀ line ∈ lines, Text.lowered (Text.strip line.2) ≠ "end note") :
    d.addLines true lines =
      .ok { d with openNote := some (takeLines n (lines.map fun l => Text.strip l.2)) } := by
  induction lines generalizing d n with
  | nil =>
    have hsame : { d with openNote := some n } = d := by rw [ ← hopen]
    exact congrArg Except.ok hsame.symm
  | cons line rest ih =>
    have hstep : d.addLine true line =
        .ok { d with openNote := some (n.addLine (Text.strip line.2)) } := by
      unfold addLine
      simp only [hopen]
      rw [if_neg (hlines line (List.mem_cons_self ..))]
    exact foldlM_cons_of_ok hstep
      (ih (d := { d with openNote := some (n.addLine (Text.strip line.2)) }) rfl
        fun l hl => hlines l (List.mem_cons_of_mem _ hl))

theorem addLines_append {lines more : List NumberedLine} {d' d'' : Draft}
    (h : d.addLines true lines = .ok d') (hmore : d'.addLines true more = .ok d'') :
    d.addLines true (lines ++ more) = .ok d'' := by
  unfold addLines at h hmore ⊢
  rw [List.foldlM_append, h]
  exact hmore

/-- A note on lines of its own is taken in with all of them. -/
theorem Shows.addBlock (h : Shows sk d) {opening closing : NumberedLine}
    {lines : List NumberedLine} {side : Side}
    (hopening : NoteWords side id (Text.trim opening.2.toList))
    (hlines : ∀ line ∈ lines, Text.strip line.2 ≠ "" ∧
      Text.lowered (Text.strip line.2) ≠ "end note")
    (hclosing : Text.lowered (Text.strip closing.2) = "end note") :
    ∃ d', d.addLines true (opening :: (lines ++ [closing])) = .ok d' ∧
      Shows (sk ++ [(opening.1, .block side id (lines.map fun l => Text.strip l.2))]) d' := by
  have hread : Statement.read (Text.strip opening.2) = .openNote side.name id := by
    refine Statement.read_of_noteWords ?_
    rwa [Text.toList_strip]
  have hfirst : d.addLine true opening =
      .ok { d with openNote := some ⟨"", id, side.name⟩ } := by
    unfold addLine Draft.addStatement
    simp only [h.openNote, hread]
  have htexts : ∀ text ∈ lines.map fun l => Text.strip l.2, text ≠ "" := by
    intro text htext
    obtain ⟨line, hline, rfl⟩ := List.mem_map.mp htext
    exact (hlines line hline).1
  have hinside := addLines_inside (d := { d with openNote := some ⟨"", id, side.name⟩ }) rfl
    fun line hline => (hlines line hline).2
  rw [takeLines_eq htexts] at hinside
  have hlast : ∀ n : Note, addLines true { d with openNote := some n } [closing] =
      .ok { d with notes := d.notes ++ [n], openNote := none } := by
    intro n
    refine foldlM_cons_of_ok ?_ rfl
    unfold addLine
    simp only [hclosing, if_true]
  refine ⟨_, ?_, h.of_note rfl (fun _ => rfl) (fun _ => rfl) rfl rfl rfl rfl rfl⟩
  exact foldlM_cons_of_ok hfirst (addLines_append hinside (hlast _))

end Blocks

end Draft

/-- The lines of a diagram are written for some statements. Lines that say nothing may stand
anywhere but in a note. -/
inductive Renders : List NumberedLine → Sketch → Prop
  | nil : Renders [] []
  | silent {line : NumberedLine} {rest : List NumberedLine} {sk : Sketch}
      (hline : SilentText (Text.trim line.2.toList)) (hrest : Renders rest sk) :
      Renders (line :: rest) sk
  | statement {line : NumberedLine} {rest : List NumberedLine} {e : Element} {sk : Sketch}
      (hline : e.Written (Text.trim line.2.toList))
      (hplain : ¬ Statement.SetsUp (Text.trim line.2.toList)) (hrest : Renders rest sk) :
      Renders (line :: rest) ((line.1, e) :: sk)
  | block {opening closing : NumberedLine} {lines rest : List NumberedLine} {side : Side}
      {id : String} {sk : Sketch} (hopening : NoteWords side id (Text.trim opening.2.toList))
      (hlines : ∀ line ∈ lines, Text.strip line.2 ≠ "" ∧
        Text.lowered (Text.strip line.2) ≠ "end note" ∧ Text.strip line.2 ≠ "\x60\x60\x60")
      (hclosing : Text.lowered (Text.strip closing.2) = "end note") (hrest : Renders rest sk) :
      Renders (opening :: (lines ++ closing :: rest))
        ((opening.1, .block side id (lines.map fun l => Text.strip l.2)) :: sk)

namespace Sketch

variable {sk before after : Sketch} {line : Nat} {e : Element}

theorem Coherent.fits (h : Coherent sk) (hsplit : sk = before ++ (line, e) :: after) :
    Fits before e where
  begins := by
    intro hbegins
    have hcount := h.begins
    have hself : ((line, e) :: after).filter (fun x => x.2.begins) =
        (line, e) :: after.filter fun x => x.2.begins := List.filter_cons_of_pos hbegins
    rw [hsplit, List.filter_append, hself, List.length_append, List.length_cons] at hcount
    have hnone : before.filter (fun x => x.2.begins) = [] := by
      rw [ ← List.length_eq_zero_iff]
      omega
    rw [List.any_eq_false]
    exact List.filter_eq_nil_iff.mp hnone
  mark := by
    rintro id mark rfl given hgiven
    obtain ⟨x, hx, hmark⟩ := List.exists_of_findSome?_eq_some hgiven
    have hmem : x ∈ sk := hsplit ▸ List.mem_append_left _ hx
    have hself : (line, Element.marker id mark) ∈ sk :=
      hsplit ▸ List.mem_append_right _ (List.mem_cons_self ..)
    exact h.marks x hmem _ hself id given mark (Element.markOf?_eq_some_iff.mp hmark) rfl
  paired := by
    rintro id rfl
    exact h.paired before line id after hsplit

end Sketch

namespace Draft

open Sketch

variable {d : Draft} {sk more : Sketch} {lines : List NumberedLine}

theorem read_strip_of_silentText {line : String} (h : SilentText (Text.trim line.toList)) :
    Statement.read (Text.strip line) = .silent := by
  refine Statement.read_of_silentText ?_
  rwa [Text.toList_strip]

/-- The lines of a diagram are taken in one statement after the other. -/
theorem Shows.addLines (h : Shows sk d) (hlines : Renders lines more)
    (hcoherent : Coherent (sk ++ more)) :
    ∃ d', d.addLines true lines = .ok d' ∧ Shows (sk ++ more) d' := by
  induction hlines generalizing sk d with
  | nil =>
    rw [List.append_nil]
    exact ⟨d, rfl, h⟩
  | silent hline hrest ih =>
    rename_i line rest _
    have hstep : d.addLine true line = .ok d := by
      unfold addLine Draft.addStatement
      simp only [h.openNote, read_strip_of_silentText hline]
    obtain ⟨d', hadd, hshows⟩ := ih h hcoherent
    exact ⟨d', foldlM_cons_of_ok hstep hadd, hshows⟩
  | statement hline hplain hrest ih =>
    rename_i line rest e _
    have hreads : e.Reads (Statement.read (Text.strip line.2)) := by
      rw [ ← Text.toList_strip] at hline hplain
      exact Statement.reads_of_written hline hplain
    obtain ⟨next, hnext, hshows⟩ :=
      h.addStatement line.1 hreads hline.unreserved (hcoherent.fits rfl)
    have hstep : d.addLine true line = .ok next := by
      unfold addLine
      simp only [h.openNote]
      exact hnext
    rw [List.append_cons] at hcoherent ⊢
    obtain ⟨d', hadd, hshows⟩ := ih hshows hcoherent
    exact ⟨d', foldlM_cons_of_ok hstep hadd, hshows⟩
  | block hopening hlines hclosing hrest ih =>
    rename_i opening closing inner rest side id _
    obtain ⟨next, hnext, hshows⟩ := h.addBlock hopening
      (fun line hline => ⟨(hlines line hline).1, (hlines line hline).2.1⟩) hclosing
    rw [List.append_cons] at hcoherent
    rw [List.append_cons sk]
    obtain ⟨d', hadd, hshows⟩ := ih hshows hcoherent
    refine ⟨d', ?_, hshows⟩
    have hall := addLines_append hnext hadd
    rwa [List.cons_append, List.append_assoc, List.singleton_append] at hall

end Draft

end Runbook.Workflow
