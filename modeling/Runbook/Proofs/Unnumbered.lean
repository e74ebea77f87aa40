import Runbook.Proofs.Declarations
import Runbook.Workflow.Document

/-!
Documents apart from the numbers of their lines. A draft keeps numbers for its transitions, its open
forks and its first arrow, and a refusal names one; nothing else depends on them. So lines that are
numbered in two ways come to drafts, definitions and refusals that are equal without their numbers.
-/
namespace Runbook

open Workflow

namespace Workflow.Document

variable {lines : List String}

/-- Lines under numbers that count up from a first one. -/
def numberedFrom (first : Nat) (lines : List String) : List NumberedLine :=
  (lines.zipIdx first).map fun l => (l.2, l.1)

theorem numberedFrom_cons (n : Nat) (line : String) (lines : List String) :
    numberedFrom n (line :: lines) = (n, line) :: numberedFrom (n + 1) lines := by
  unfold numberedFrom
  rw [List.zipIdx_cons, List.map_cons]

theorem numberedFrom_append (n : Nat) (lines more : List String) :
    numberedFrom n (lines ++ more) =
      numberedFrom n lines ++ numberedFrom (n + lines.length) more := by
  unfold numberedFrom
  rw [List.zipIdx_append, List.map_append, Nat.add_comm]

theorem map_snd_numberedFrom (n : Nat) (lines : List String) :
    (numberedFrom n lines).map Prod.snd = lines := by
  unfold numberedFrom
  rw [List.map_map]
  exact List.zipIdx_map_fst n lines

theorem forall_numberedFrom {p : String → Prop} (h : ∀ line ∈ lines, p line) (n : Nat) :
    ∀ l ∈ numberedFrom n lines, p l.2 := by
  intro l hl
  apply h
  rw [ ← map_snd_numberedFrom n lines]
  exact List.mem_map_of_mem hl

end Workflow.Document

/-- A cause that mentions a line, without the number of it. -/
def Problem.unnumbered : Problem → Problem
  | .secondInitial _ => .secondInitial 0
  | p => p

def Fault.unnumbered (f : DocumentFault) : DocumentFault :=
  { f with cause := f.cause.unnumbered, line := none }

def Refusal.unnumbered : Refusal → Refusal
  | .fault f => .fault f.unnumbered
  | r => r

section Alike

variable {ε ε' δ δ' α β γ γ' : Type}

/-- Two computations end alike: both go well, with values that are related, or both fail, with
errors that are. -/
inductive Alike (same : ε → ε' → Prop) (r : α → β → Prop) : Except ε α → Except ε' β → Prop
  | ok {a : α} {b : β} (h : r a b) : Alike same r (.ok a) (.ok b)
  | error {e : ε} {e' : ε'} (h : same e e') : Alike same r (.error e) (.error e')

variable {same : ε → ε' → Prop} {r : α → β → Prop} {x : Except ε α} {y : Except ε' β}

theorem Alike.bind_of_ok (h : Alike same r x y) {r' : γ → γ' → Prop} {f : α → Except ε γ}
    {g : β → Except ε' γ'} (hf : ∀ a b, x = .ok a → r a b → Alike same r' (f a) (g b)) :
    Alike same r' (x >>= f) (y >>= g) := by
  cases h with
  | ok h => exact hf _ _ rfl h
  | error h => exact .error h

theorem Alike.bind (h : Alike same r x y) {r' : γ → γ' → Prop} {f : α → Except ε γ}
    {g : β → Except ε' γ'} (hf : ∀ a b, r a b → Alike same r' (f a) (g b)) :
    Alike same r' (x >>= f) (y >>= g) := h.bind_of_ok fun a b _ => hf a b

theorem Alike.mapError (h : Alike same r x y) {same' : δ → δ' → Prop} {f : ε → δ} {g : ε' → δ'}
    (hf : ∀ e e', same e e' → same' (f e) (g e')) :
    Alike same' r (x.mapError f) (y.mapError g) := by
  cases h with
  | ok h => exact .ok h
  | error h => exact .error (hf _ _ h)

theorem Alike.ok_or_error (h : Alike same r x y) :
    (∃ a b, x = .ok a ∧ y = .ok b ∧ r a b) ∨
      ∃ e e', x = .error e ∧ y = .error e' ∧ same e e' := by
  cases h with
  | ok h => exact Or.inl ⟨_, _, rfl, rfl, h⟩
  | error h => exact Or.inr ⟨_, _, rfl, rfl, h⟩

theorem Alike.refl (x : Except ε α) : Alike Eq Eq x x := by
  cases x with
  | ok a => exact .ok rfl
  | error e => exact .error rfl

open Document (numberedFrom)

variable {σ σ' : Type} {s : σ → σ' → Prop}

/-- Two folds over the same lines end alike if their steps do, whatever the numbers are. -/
theorem Alike.foldlM {step : σ → NumberedLine → Except ε σ}
    {step' : σ' → NumberedLine → Except ε' σ'}
    (hstep : ∀ a b n n' line, s a b → Alike same s (step a (n, line)) (step' b (n', line)))
    (lines : List String) {a : σ} {b : σ'} (h : s a b) (n n' : Nat) :
    Alike same s ((numberedFrom n lines).foldlM step a)
      ((numberedFrom n' lines).foldlM step' b) := by
  induction lines generalizing a b n n' with
  | nil => exact .ok h
  | cons line lines ih =>
    rw [Document.numberedFrom_cons, Document.numberedFrom_cons, List.foldlM_cons, List.foldlM_cons]
    exact (hstep a b n n' line h).bind fun _ _ h => ih h (n + 1) (n' + 1)

end Alike

/-- Faults that are equal but for the numbers of lines. -/
def SameFault (f g : DocumentFault) : Prop := f.unnumbered = g.unnumbered

def SameRefusal (r r' : Refusal) : Prop := r.unnumbered = r'.unnumbered

theorem SameFault.refusal {f g : DocumentFault} (h : SameFault f g) :
    SameRefusal (.fault f) (.fault g) := congrArg Refusal.fault h

theorem sameFault_atLine (line line' : Nat) (cause : Problem) (token : Option String) :
    SameFault (.atLine line cause token) (.atLine line' cause token) := rfl

namespace Workflow

open Text

def Transition.unnumbered (t : Transition) : Transition := { t with line := none }

def Definition.unnumbered (d : Definition) : Definition :=
  { d with transitions := d.transitions.map Transition.unnumbered }

section Texts

variable {line line' : Nat}

theorem alike_finish (guard : Option String) (left : List Char) :
    Alike SameFault Eq (readExit.finish line guard left) (readExit.finish line' guard left) := by
  unfold readExit.finish
  split
  · exact .ok rfl
  · exact .error (sameFault_atLine ..)

theorem alike_readExit (rest : String) :
    Alike SameFault Eq (readExit line rest) (readExit line' rest) := by
  unfold readExit
  simp only
  split
  · exact .error (sameFault_atLine ..)
  · exact alike_finish ..
  · split
    · exact .error (sameFault_atLine ..)
    · exact alike_finish ..

theorem alike_promptAction (line line' : Option Int) (name : String) (arguments : List Char)
    (result : Option (List Char)) : Alike SameFault Eq (promptAction line name arguments result)
      (promptAction line' name arguments result) := by
  unfold promptAction
  simp only
  split
  · exact .ok rfl
  · exact .error rfl

theorem Action.alike_read (line line' : Option Int) (s : String) :
    Alike SameFault Eq (Action.read line s) (Action.read line' s) := by
  unfold Action.read
  simp only
  split
  · exact .ok rfl
  · split
    · exact alike_promptAction ..
    · exact .error rfl

end Texts

namespace Draft

/-- Drafts that are equal but for the numbers of lines. -/
structure Same (d d' : Draft) : Prop where
  states : d.states = d'.states
  transitions : d.transitions.map Transition.unnumbered = d'.transitions.map Transition.unnumbered
  regions : d.regions = d'.regions
  notes : d.notes = d'.notes
  openForks : d.openForks.map Prod.fst = d'.openForks.map Prod.fst
  initialLine : d.initialLine.isSome = d'.initialLine.isSome
  openNote : d.openNote = d'.openNote

theorem Same.refl (d : Draft) : Same d d := ⟨rfl, rfl, rfl, rfl, rfl, rfl, rfl⟩

variable {d d' : Draft}

section Operations

variable (h : Same d d')
include h

theorem Same.state? (id : String) : d.state? id = d'.state? id := by
  unfold Draft.state?
  rw [h.states]

theorem Same.region : d.region = d'.region := by
  have hhead := congrArg List.head? h.openForks
  rwa [List.head?_map, List.head?_map] at hhead

theorem Same.declare (id : String) : Same (d.declare id) (d'.declare id) := by
  unfold Draft.declare
  rw [h.state?]
  split
  · exact h
  · exact { h with states := by rw [h.states, h.region] }

theorem Same.declarePseudo (id : String) (kind : StateKind) :
    Same (d.declarePseudo id kind) (d'.declarePseudo id kind) := by
  unfold Draft.declarePseudo
  rw [h.state?]
  split
  · exact h
  · exact { h with states := by rw [h.states] }

theorem Same.modifyState (id : String) (f : State → State) :
    Same (d.modifyState id f) (d'.modifyState id f) :=
  { h with states := congrArg (List.map _) h.states }

theorem Same.describe (id text : String) : Same (d.describe id text) (d'.describe id text) :=
  (h.declare id).modifyState id _

theorem Same.declareSource (e : Endpoint) : Same (d.declareSource e) (d'.declareSource e) := by
  cases e with
  | pseudo => exact h.declarePseudo startId .initial
  | state id => exact h.declare id

theorem Same.declareTarget (e : Endpoint) : Same (d.declareTarget e) (d'.declareTarget e) := by
  cases e with
  | pseudo => exact h.declarePseudo endId .terminal
  | state id => exact h.declare id

end Operations

section Statements

variable {line line' : Nat}

theorem Same.checkSource (h : Same d d') (source : Endpoint) :
    Alike SameFault Same (d.checkSource line source) (d'.checkSource line' source) := by
  have hinitial := h.initialLine
  unfold Draft.checkSource
  cases source with
  | state id => exact .ok h
  | pseudo =>
    cases hfirst : d.initialLine with
    | none =>
      rw [hfirst] at hinitial
      have hnone : d'.initialLine = none := Option.not_isSome_iff_eq_none.mp (hinitial ▸ nofun)
      rw [hnone]
      exact .ok { h with initialLine := rfl }
    | some first =>
      rw [hfirst] at hinitial
      obtain ⟨first', hfirst'⟩ := Option.isSome_iff_exists.mp hinitial.symm
      rw [hfirst']
      exact .error rfl

theorem Same.addArrow (h : Same d d') (source target : Endpoint) (rest : String) :
    Alike SameFault Same (d.addArrow line source target rest)
      (d'.addArrow line' source target rest) := by
  unfold Draft.addArrow
  refine (alike_readExit rest).bind ?_
  rintro ⟨guard, label⟩ _ rfl
  refine (h.checkSource source).bind fun c c' hc => .ok ?_
  have hlinked := (hc.declareSource source).declareTarget target
  refine { hlinked with transitions := ?_ }
  simp only [List.map_append, hlinked.transitions]
  rfl

theorem Same.closeRegion (h : Same d d') (id : String) :
    Alike SameFault Same (d.closeRegion line id) (d'.closeRegion line' id) := by
  have hopen := h.openForks
  unfold Draft.closeRegion
  cases hforks : d.openForks with
  | nil =>
    rw [hforks] at hopen
    rw [List.map_eq_nil_iff.mp hopen.symm]
    exact .error (sameFault_atLine ..)
  | cons fork outer =>
    rw [hforks, List.map_cons] at hopen
    obtain ⟨fork', outer', hforks', hfork, houter⟩ := List.map_eq_cons_iff.mp hopen.symm
    rw [hforks']
    have hclosed : Same
        { d with openForks := outer, regions := d.regions ++ [Region.mk fork.1 id] }
        { d' with openForks := outer', regions := d'.regions ++ [Region.mk fork'.1 id] } :=
      { h with openForks := houter.symm, regions := by rw [h.regions, hfork] }
    apply Alike.ok
    simp only [hclosed.region]
    exact hclosed.modifyState id _

theorem Same.addMarker (h : Same d d') (id word : String) :
    Alike SameFault Same (d.addMarker line id word) (d'.addMarker line' id word) := by
  have hdeclared := h.declare id
  unfold Draft.addMarker
  cases markerKind? word with
  | none => exact .error (sameFault_atLine ..)
  | some kind =>
    simp only [hdeclared.state?]
    split
    · exact .error (sameFault_atLine ..)
    · have hmarked := hdeclared.modifyState id fun s => { s with kind := kind }
      cases kind with
      | fork =>
        refine .ok { hmarked with openForks := ?_ }
        exact congrArg (id :: ·) hmarked.openForks
      | join => exact hmarked.closeRegion id
      | normal | choice | initial | terminal => exact .ok hmarked

/-- A statement says the same of drafts that are the same. If it describes a state, that state is
declared, so that it does not matter whether a fence is open. -/
theorem Same.addStatement (h : Same d d') {fenced fenced' : Bool} {text : String}
    (hdescribed : ∀ id body, Statement.read text = .description id body → id ∈ d.ids) :
    Alike SameFault Same (d.addStatement fenced line text)
      (d'.addStatement fenced' line' text) := by
  unfold Draft.addStatement
  generalize Statement.read text = s at hdescribed
  cases s with
  | silent => exact .ok h
  | arrow source target rest => exact h.addArrow source target rest
  | marker id word => exact h.addMarker id word
  | «alias» id description => exact .ok (h.describe id description)
  | composite => exact .error (sameFault_atLine ..)
  | note position id body => exact .ok { h with notes := by rw [h.notes] }
  | openNote position id => exact .ok { h with openNote := rfl }
  | description id body =>
    obtain ⟨s, hs⟩ := exists_of_mem_ids (hdescribed id body rfl)
    have hs' := (h.state? id).symm.trans hs
    simp only [hs, hs', Option.isNone_some, Bool.and_false, Bool.false_eq_true, if_false]
    exact .ok (h.describe id body)
  | unknown => exact .error (sameFault_atLine ..)

theorem Same.addLine (h : Same d d') {fenced fenced' : Bool} {line : String} {n n' : Nat}
    (hdescribed : d.openNote = none → ∀ id body,
      Statement.read (strip line) = .description id body → id ∈ d.ids) :
    Alike SameFault Same (d.addLine fenced (n, line)) (d'.addLine fenced' (n', line)) := by
  unfold Draft.addLine
  simp only [ ← h.openNote]
  split
  · split
    · exact .ok { h with openNote := rfl, notes := by rw [h.notes] }
    · exact .ok { h with openNote := rfl }
  · rename_i hnone
    exact h.addStatement (hdescribed hnone)

end Statements

section Checks

theorem Same.checkRegions (h : Same d d') :
    Alike SameFault Eq d.checkRegions d'.checkRegions := by
  have hopen := h.openForks
  unfold Draft.checkRegions
  cases hforks : d.openForks with
  | nil =>
    rw [hforks] at hopen
    rw [List.map_eq_nil_iff.mp hopen.symm]
    exact .ok rfl
  | cons fork outer =>
    rw [hforks, List.map_cons] at hopen
    obtain ⟨fork', outer', hforks', hfork, -⟩ := List.map_eq_cons_iff.mp hopen.symm
    rw [hforks']
    apply Alike.error
    simp only [hfork]
    exact sameFault_atLine ..

theorem Same.unguardedExits (h : Same d d') (id : String) :
    (d.unguardedExits id).map Transition.unnumbered =
      (d'.unguardedExits id).map Transition.unnumbered := by
  have hfilter : ∀ d : Draft, (d.unguardedExits id).map Transition.unnumbered =
      (d.transitions.map Transition.unnumbered).filter fun t => t.source == id && t.guard.isNone :=
    fun d => by rw [List.filter_map]; rfl
  rw [hfilter, hfilter, h.transitions]

theorem Same.unguardedSources (h : Same d d') : d.unguardedSources = d'.unguardedSources := by
  have hfilter : ∀ d : Draft, d.unguardedSources =
      (((d.transitions.map Transition.unnumbered).filter fun t => t.guard.isNone).map
        Transition.source).foldl Definition.addNew [] := by
    intro d
    rw [List.filter_map, List.map_map]
    rfl
  rw [hfilter, hfilter, h.transitions]

theorem Same.exitFault? (h : Same d d') (id : String) :
    (d.exitFault? id).map Fault.unnumbered = (d'.exitFault? id).map Fault.unnumbered := by
  have hexits := h.unguardedExits id
  have hfork : d.isFork id = d'.isFork id := by
    unfold isFork
    rw [h.state?]
  unfold Draft.exitFault?
  rw [hfork]
  cases hleft : d.unguardedExits id with
  | nil =>
    rw [hleft] at hexits
    rw [List.map_eq_nil_iff.mp hexits.symm]
  | cons first rest =>
    rw [hleft, List.map_cons] at hexits
    obtain ⟨first', rest', hright, -, hrest⟩ := List.map_eq_cons_iff.mp hexits.symm
    rw [hright]
    cases rest with
    | nil => rw [List.map_eq_nil_iff.mp hrest]
    | cons second more =>
      obtain ⟨second', more', rfl, -, hmore⟩ := List.map_eq_cons_iff.mp hrest
      have hlength := congrArg List.length hmore
      rw [List.length_map, List.length_map] at hlength
      simp only [List.length_cons, hlength]
      split <;> rfl

theorem Same.checkExits (h : Same d d') : Alike SameFault Eq d.checkExits d'.checkExits := by
  have hfaults : (d.unguardedSources.findSome? d.exitFault?).map Fault.unnumbered =
      (d'.unguardedSources.findSome? d'.exitFault?).map Fault.unnumbered := by
    rw [List.map_findSome?, List.map_findSome?, h.unguardedSources]
    exact congrArg (List.findSome? · _) (funext h.exitFault?)
  rw [checkExits_eq, checkExits_eq]
  cases hleft : d.unguardedSources.findSome? d.exitFault? with
  | none =>
    rw [hleft] at hfaults
    rw [Option.map_eq_none_iff.mp hfaults.symm]
    exact .ok rfl
  | some f =>
    rw [hleft] at hfaults
    obtain ⟨f', hright, hf⟩ := Option.map_eq_some_iff.mp hfaults.symm
    rw [hright]
    exact .error hf.symm

end Checks

section Actions

variable {n n' : Nat} {line : String}

theorem Same.addAction (h : Same d d') :
    Alike SameFault Same (d.addAction (n, line)) (d'.addAction (n', line)) := by
  unfold Draft.addAction
  simp only [h.state?]
  split
  · exact .ok h
  · split
    · exact .error (sameFault_atLine ..)
    · split
      · exact .error (sameFault_atLine ..)
      · refine (Action.alike_read ..).bind ?_
        rintro action _ rfl
        exact .ok (h.modifyState _ _)

theorem Same.addActions (h : Same d d') (lines : List String) (n n' : Nat) :
    Alike SameFault Same (d.addActions (Document.numberedFrom n lines))
      (d'.addActions (Document.numberedFrom n' lines)) :=
  Alike.foldlM (fun _ _ _ _ _ h => h.addAction) lines h n n'

end Actions

end Draft

namespace Definition

variable {d d' : Draft}

/-- Drafts that are the same come to definitions that are equal without the numbers of lines. -/
theorem unnumbered_ofDraft (h : Draft.Same d d') (name : Option String) (header : Header) :
    (ofDraft name header d).unnumbered = (ofDraft name header d').unnumbered := by
  have hinitial : ∀ d : Draft,
      (d.transitions.find? fun t => t.source == startId).map Transition.target =
        ((d.transitions.map Transition.unnumbered).find? fun t => t.source == startId).map
          Transition.target := by
    intro d
    rw [List.find?_map, Option.map_map]
    rfl
  have hnotes : d.allNotes = d'.allNotes := by
    unfold Draft.allNotes
    rw [h.notes, h.openNote]
  unfold ofDraft unnumbered
  simp only [h.states, h.transitions, h.regions, hnotes, hinitial]

end Definition

namespace Document

/-- Why a header has no value does not depend on where it begins. -/
theorem alike_headerRefusal (first first' : Nat) :
    ∀ f f', f = f' → SameRefusal (headerRefusal first f) (headerRefusal first' f') := by
  rintro f _ rfl
  cases f with
  | malformed problem line => exact SameFault.refusal (sameFault_atLine ..)
  | scalar f => rfl
  | tooDeep => rfl

theorem alike_headerEntries (lines : List String) (first first' : Nat) :
    Alike SameRefusal Eq (headerEntries lines first) (headerEntries lines first') := by
  unfold headerEntries
  refine ((Alike.refl _).mapError (alike_headerRefusal first first')).bind ?_
  rintro content _ rfl
  split
  · exact .ok rfl
  · exact .error rfl

theorem alike_textAt? (key : String) (entries : Yaml.Entries) (first first' : Nat) :
    Alike SameRefusal Eq (textAt? key entries first) (textAt? key entries first') := by
  unfold textAt?
  split
  · exact .ok rfl
  · exact .ok rfl
  · exact (Alike.refl _).mapError (alike_headerRefusal first first')

theorem alike_readHeader (lines : List String) (first first' : Nat) :
    Alike SameRefusal Eq (readHeader lines first) (readHeader lines first') := by
  unfold readHeader
  refine (alike_headerEntries lines first first').bind ?_
  rintro entries _ rfl
  refine (alike_textAt? "name" entries first first').bind ?_
  rintro name _ rfl
  simp only
  split
  · exact .error rfl
  · refine (alike_textAt? "description" entries first first').bind ?_
    rintro description _ rfl
    refine (alike_textAt? "version" entries first first').bind ?_
    rintro version _ rfl
    exact .ok rfl

end Document

end Workflow

end Runbook
