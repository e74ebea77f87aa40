import Runbook.Proofs.Arrows
import Runbook.Proofs.Declarations
import Runbook.Workflow.Document

/-!
What the lines of a document make of a draft. It is told once, by the five things a line of a diagram
can do and by the one that an action entry does; what every one of them keeps, the whole draft has.
-/
namespace Runbook.Workflow

namespace Draft

/-- What a line of a diagram makes of a draft. -/
inductive Gains (line : Nat) (d : Draft) : Draft → Prop
  | aside (notes : List Note) (openNote : Option Note) :
      Gains line d { d with notes := notes, openNote := openNote }
  | description {id : String} (hid : id ≠ startId) (text : String) :
      Gains line d (d.describe id text)
  | arrow {source target : Endpoint} {guard label : Option String}
      (hsource : source.Unreserved) (htarget : target.Unreserved)
      (hfirst : source = .pseudo → d.initialLine = none) :
      Gains line d (d.draw line source target guard label)
  | marker {id : String} {kind : StateKind} {d' : Draft} (hid : id ≠ startId)
      (hfree : d.MayBe id kind) (hmarks : Marks line id d kind d') : Gains line d d'

variable {d d' : Draft}

theorem gains_of_addStatement {fenced : Bool} {line : Nat} {text : String}
    (hd : d.addStatement fenced line text = .ok d') : Gains line d d' := by
  unfold addStatement at hd
  have hfrom := Statement.readFrom text
  generalize Statement.read text = s at hd hfrom
  cases hfrom with
  | silent =>
    cases hd
    exact .aside d.notes d.openNote
  | composite => cases hd
  | unknown => cases hd
  | arrow hdraws =>
    obtain ⟨hsource, htarget⟩ := hdraws.unreserved
    obtain ⟨guard, label, -, hfirst, rfl⟩ := addArrow_eq_ok_iff.mp hd
    exact .arrow hsource htarget hfirst
  | marker hid =>
    obtain ⟨kind, -, hfree, hmarks⟩ := addMarker_eq_ok_iff.mp hd
    exact .marker (unreserved_of_isIdent hid).1 hfree hmarks
  | title hid text =>
    cases hd
    exact .description (unreserved_of_isIdent hid).1 text
  | description hid text =>
    simp only at hd
    split at hd
    · cases hd
    · cases hd
      exact .description (unreserved_of_isIdent hid).1 text
  | note =>
    cases hd
    exact .aside _ d.openNote
  | openNote =>
    cases hd
    exact .aside d.notes _

theorem gains_of_addLine {fenced : Bool} {line : NumberedLine}
    (hd : d.addLine fenced line = .ok d') : Gains line.1 d d' := by
  unfold addLine at hd
  simp only at hd
  split at hd
  · split at hd
    · cases hd
      exact .aside _ none
    · cases hd
      exact .aside d.notes _
  · exact gains_of_addStatement hd

section Actions

variable {id other : String} {action : Action}

/-- A draft in which a state has one action more. -/
def withAction (d : Draft) (id : String) (action : Action) : Draft :=
  d.modifyState id fun s => { s with actions := s.actions ++ [action] }

theorem state?_withAction :
    (d.withAction id action).state? other =
      if other = id then (d.state? id).map fun s => { s with actions := s.actions ++ [action] }
      else d.state? other :=
  state?_modifyState fun _ => rfl

theorem ids_withAction : (d.withAction id action).ids = d.ids := ids_modifyState fun _ => rfl

/-- An action entry adds an action to one state. -/
theorem exists_of_addAction {line : NumberedLine} (hd : d.addAction line = .ok d') :
    d' = d ∨ ∃ id text action, Action.read (some line.1) text = .ok action ∧
      d' = d.withAction id action := by
  unfold addAction at hd
  simp only at hd
  split at hd
  · cases hd
    exact Or.inl rfl
  · split at hd
    · cases hd
    · rename_i id text _
      split at hd
      · cases hd
      · obtain ⟨action, hread, hd⟩ := bind_eq_ok_iff.mp hd
        cases hd
        exact Or.inr ⟨id, _, action, hread, rfl⟩

theorem transitions_of_addAction {line : NumberedLine} (hd : d.addAction line = .ok d') :
    d'.transitions = d.transitions := by
  rcases exists_of_addAction hd with rfl | ⟨id, text, action, -, rfl⟩ <;> rfl

end Actions

/-- What every line keeps, a whole diagram keeps, if the action list keeps it too. -/
theorem ofLines_keeps {P : Draft → Prop} (hempty : P empty)
    (hline : ∀ d line d', P d → Gains line d d' → P d')
    (haction : ∀ d id action, (∃ line text, Action.read line text = .ok action) → P d →
      P (d.withAction id action))
    {fenced : Bool} {diagram actions : List NumberedLine}
    (hd : ofLines fenced diagram actions = .ok d) : P d := by
  obtain ⟨drawn, hdrawn, -, -, hactions⟩ := ofLines_eq_ok_iff.mp hd
  have hlines : P drawn :=
    foldlM_keeps (fun before line _ hb hstep =>
      hline before line.1 _ hb (gains_of_addLine hstep)) hempty hdrawn
  refine foldlM_keeps (fun before line after hb hstep => ?_) hlines hactions
  rcases exists_of_addAction hstep with rfl | ⟨id, text, action, hread, rfl⟩
  · exact hb
  · exact haction before id action ⟨_, text, hread⟩ hb

end Draft

end Runbook.Workflow
