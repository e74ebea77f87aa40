import Runbook.Proofs.Success
import Runbook.Workflow.Document

/-!
What each part of a document is refused for, and on which line. A statement that cannot be added is
refused on its own line; the header on the line it begins at, or where its YAML text is malformed;
and what lacks its closing fence on the line of the opening one. The values of a header give no such
fault: those that cannot be written as text are well formed.
-/
namespace Runbook

/-- Where in a document a cause lies. -/
inductive Problem.Origin where
  /-- The header, the fence around the diagram, or the front matter of a prompt. -/
  | frame
  /-- A statement of the diagram or an entry of the actions. -/
  | statement
  /-- The diagram as a whole, whose regions or exits are at odds. -/
  | whole
  deriving DecidableEq, Repr

def Problem.origin : Problem → Origin
  | .compositeState | .undeclaredDescription | .unrecognisedStatement | .severalGuards
  | .emptyGuard | .textAfterTransition | .secondInitial .. | .unknownMarker | .declaredOtherwise ..
  | .joinWithoutFork | .malformedActionEntry | .actionOfUnknownState | .malformedArguments
  | .unknownAction => .statement
  | .forkWithoutJoin | .ambiguousExits .. => .whole
  | .emptyDocument | .unclosedHeader | .malformedHeader .. | .headerNotPairs | .headerWithoutName
  | .unclosedDiagram | .unclosedFrontMatter | .malformedFrontMatter .. | .frontMatterNotPairs
  | .invalidMetadata .. => .frame

theorem Problem.origin_of_isAmbiguity {p : Problem} (h : p.isAmbiguity = true) :
    p.origin = .whole := by
  cases p <;> first | rfl | cases h

/-- A fault of a certain origin on a certain line. -/
structure FaultOn (line : Nat) (origin : Problem.Origin) (f : DocumentFault) : Prop where
  line : f.line = some (line : Int)
  origin : f.cause.origin = origin

/-- A fault on one of the first lines of a text. -/
def Fault.LiesWithin (count : Nat) (f : DocumentFault) : Prop :=
  ∃ n : Nat, f.line = some (n : Int) ∧ 1 ≤ n ∧ n ≤ count

theorem FaultOn.liesWithin {line count : Nat} {origin : Problem.Origin} {f : DocumentFault}
    (h : FaultOn line origin f) (hpos : 1 ≤ line) (hle : line ≤ count) : f.LiesWithin count :=
  ⟨line, h.line, hpos, hle⟩

namespace Yaml.Datum

/-! What cannot be shown is well formed. -/

mutual

theorem unshowable?_ne_malformed {problem : String} {mark : Option Nat} :
    ∀ d : Datum, d.unshowable? ≠ some (.malformed problem mark)
  | .scalar s => by
    unfold unshowable?
    split <;> exact nofun
  | .list items => unshowableItems?_ne_malformed items
  | .pairs items => unshowablePairs?_ne_malformed items
  | .set items => by
    unfold unshowable?
    split <;> exact nofun
  | .mapping entries => unshowableEntries?_ne_malformed entries
  | .again _ => nofun
  | .tooDeep => nofun

theorem unshowableItems?_ne_malformed {problem : String} {mark : Option Nat} :
    ∀ items : List Datum, unshowableItems? items ≠ some (.malformed problem mark)
  | [] => nofun
  | d :: rest => by
    intro h
    rcases Option.or_eq_some_iff.mp h with h | ⟨-, h⟩
    · exact unshowable?_ne_malformed d h
    · exact unshowableItems?_ne_malformed rest h

theorem unshowablePairs?_ne_malformed {problem : String} {mark : Option Nat} :
    ∀ items : List (Datum × Datum), unshowablePairs? items ≠ some (.malformed problem mark)
  | [] => nofun
  | (k, v) :: rest => by
    intro h
    rcases Option.or_eq_some_iff.mp h with h | ⟨-, h⟩
    · exact unshowable?_ne_malformed k h
    · rcases Option.or_eq_some_iff.mp h with h | ⟨-, h⟩
      · exact unshowable?_ne_malformed v h
      · exact unshowablePairs?_ne_malformed rest h

theorem unshowableEntries?_ne_malformed {problem : String} {mark : Option Nat} :
    ∀ entries : List (Scalar × Datum), unshowableEntries? entries ≠ some (.malformed problem mark)
  | [] => nofun
  | (k, v) :: rest => by
    intro h
    unfold unshowableEntries? at h
    split at h
    · cases h
    · rcases Option.or_eq_some_iff.mp h with h | ⟨-, h⟩
      · exact unshowable?_ne_malformed v h
      · exact unshowableEntries?_ne_malformed rest h

end

theorem plain_ne_malformed {d : Datum} {problem : String} {mark : Option Nat} :
    d.plain ≠ .error (.malformed problem mark) := by
  intro h
  unfold plain at h
  split at h
  · rename_i hf
    cases h
    exact unshowable?_ne_malformed _ hf
  · cases h
  · cases h

end Yaml.Datum

end Runbook

namespace Runbook.Workflow

section Statements

variable {line : Nat} {f : DocumentFault}

theorem origin_of_labelOf {cs : List Char} {cause : Problem} (h : labelOf cs = .error cause) :
    cause.origin = .statement := by
  unfold labelOf at h
  split at h
  · cases h
  · cases h
  · split at h
    · cases h
    · cases h
      rfl
  · cases h
    rfl

theorem faultOn_of_finish {guard : Option String} {left : List Char}
    (h : readExit.finish line guard left = .error f) : FaultOn line .statement f := by
  unfold readExit.finish at h
  split at h
  · cases h
  · rename_i cause hcause
    cases h
    exact ⟨rfl, origin_of_labelOf hcause⟩

theorem faultOn_of_readExit {rest : String} (h : readExit line rest = .error f) :
    FaultOn line .statement f := by
  unfold readExit at h
  simp only at h
  split at h
  · cases h
    exact ⟨rfl, rfl⟩
  · exact faultOn_of_finish h
  · split at h
    · cases h
      exact ⟨rfl, rfl⟩
    · exact faultOn_of_finish h

theorem Action.faultOn_of_read {s : String} (h : Action.read (some (line : Int)) s = .error f) :
    FaultOn line .statement f := by
  unfold Action.read at h
  simp only at h
  split at h
  · cases h
  · split at h
    · unfold promptAction at h
      simp only at h
      split at h
      · cases h
      · cases h
        exact ⟨rfl, rfl⟩
    · cases h
      exact ⟨rfl, rfl⟩

namespace Draft

variable {d : Draft}

theorem faultOn_of_checkSource {source : Endpoint} (h : d.checkSource line source = .error f) :
    FaultOn line .statement f := by
  unfold checkSource at h
  split at h
  · cases h
    exact ⟨rfl, rfl⟩
  · cases h
  · cases h

theorem faultOn_of_addArrow {source target : Endpoint} {rest : String}
    (h : d.addArrow line source target rest = .error f) : FaultOn line .statement f := by
  unfold addArrow at h
  simp only [bind_eq_error_iff] at h
  rcases h with h | ⟨exit, -, h | ⟨checked, -, h⟩⟩
  · exact faultOn_of_readExit h
  · exact faultOn_of_checkSource h
  · cases h

theorem faultOn_of_closeRegion {id : String} (h : d.closeRegion line id = .error f) :
    FaultOn line .statement f := by
  unfold closeRegion at h
  split at h
  · cases h
    exact ⟨rfl, rfl⟩
  · cases h

theorem faultOn_of_addMarker {id word : String} (h : d.addMarker line id word = .error f) :
    FaultOn line .statement f := by
  unfold addMarker at h
  split at h
  · cases h
    exact ⟨rfl, rfl⟩
  · simp only at h
    split at h
    · cases h
      exact ⟨rfl, rfl⟩
    · split at h
      · cases h
      · exact faultOn_of_closeRegion h
      · cases h

theorem faultOn_of_addStatement {fenced : Bool} {text : String}
    (h : d.addStatement fenced line text = .error f) : FaultOn line .statement f := by
  unfold addStatement at h
  generalize Statement.read text = s at h
  cases s with
  | arrow source target rest => exact faultOn_of_addArrow h
  | marker id word => exact faultOn_of_addMarker h
  | description id body =>
    simp only at h
    split at h
    · cases h
      exact ⟨rfl, rfl⟩
    · cases h
  | composite =>
    cases h
    exact ⟨rfl, rfl⟩
  | unknown =>
    cases h
    exact ⟨rfl, rfl⟩
  | silent | «alias» | note | openNote => cases h

theorem faultOn_of_addLine {fenced : Bool} {line : NumberedLine}
    (h : d.addLine fenced line = .error f) : FaultOn line.1 .statement f := by
  unfold addLine at h
  simp only at h
  split at h
  · split at h <;> cases h
  · exact faultOn_of_addStatement h

theorem faultOn_of_addAction {line : NumberedLine} (h : d.addAction line = .error f) :
    FaultOn line.1 .statement f := by
  unfold addAction at h
  simp only at h
  split at h
  · cases h
  · split at h
    · cases h
      exact ⟨rfl, rfl⟩
    · split at h
      · cases h
        exact ⟨rfl, rfl⟩
      · rcases bind_eq_error_iff.mp h with h | ⟨action, -, h⟩
        · exact Action.faultOn_of_read h
        · cases h

end Draft

end Statements

namespace Document

variable {lines : List String} {first : Nat} {f : DocumentFault}

theorem exists_of_headerRefusal {failure : Yaml.Failure}
    (h : headerRefusal first failure = .fault f) :
    ∃ problem mark, failure = .malformed problem mark ∧
      FaultOn (first + mark.getD 0) .frame f := by
  cases failure with
  | malformed problem mark =>
    cases h
    exact ⟨problem, mark, rfl, rfl, rfl⟩
  | scalar | tooDeep => cases h

theorem textAt?_ne_fault (key : String) (entries : Yaml.Entries) :
    textAt? key entries first ≠ .error (.fault f) := by
  intro h
  unfold textAt? at h
  split at h
  · cases h
  · cases h
  · obtain ⟨failure, hfailure, hrefusal⟩ := exists_of_mapError_eq_error h
    obtain ⟨problem, mark, rfl, -⟩ := exists_of_headerRefusal hrefusal
    exact Yaml.Datum.plain_ne_malformed (map_eq_error_iff.mp hfailure)

/-- A header is refused on the line it begins at, or where its text is malformed. -/
theorem faultOn_of_readHeader (h : readHeader lines first = .error (.fault f)) :
    FaultOn first .frame f ∨ ∃ problem mark,
      Yaml.Content.read (String.intercalate "\n" lines) = .error (.malformed problem (some mark)) ∧
      FaultOn (first + mark) .frame f := by
  unfold readHeader at h
  rcases bind_eq_error_iff.mp h with h | ⟨entries, -, h⟩
  · unfold headerEntries at h
    rcases bind_eq_error_iff.mp h with h | ⟨content, -, h⟩
    · obtain ⟨failure, hread, hrefusal⟩ := exists_of_mapError_eq_error h
      obtain ⟨problem, mark, rfl, hon⟩ := exists_of_headerRefusal hrefusal
      cases mark with
      | none => exact Or.inl hon
      | some mark => exact Or.inr ⟨problem, mark, hread, hon⟩
    · split at h
      · cases h
      · cases h
        exact Or.inl ⟨rfl, rfl⟩
  · left
    rcases bind_eq_error_iff.mp h with h | ⟨name, -, h⟩
    · exact absurd h (textAt?_ne_fault "name" entries)
    · simp only at h
      split at h
      · cases h
        exact ⟨rfl, rfl⟩
      · rcases bind_eq_error_iff.mp h with h | ⟨description, -, h⟩
        · exact absurd h (textAt?_ne_fault "description" entries)
        · rcases bind_eq_error_iff.mp h with h | ⟨version, -, h⟩
          · exact absurd h (textAt?_ne_fault "version" entries)
          · cases h

theorem faultOn_of_layout {document : List NumberedLine} (h : layout document = .error f) :
    FaultOn 1 .frame f ∨ ∃ line ∈ document, FaultOn line.1 .frame f := by
  unfold layout at h
  split at h
  · cases h
    exact Or.inl ⟨rfl, rfl⟩
  · rename_i number line rest hdrop
    have hmem : (number, line) ∈ document :=
      (List.dropWhile_sublist _).mem (hdrop ▸ List.mem_cons_self ..)
    split at h
    · split at h
      · cases h
        exact Or.inr ⟨(number, line), hmem, rfl, rfl⟩
      · cases h
    · cases h

theorem faultOn_of_splitBody {body : List NumberedLine} (h : splitBody body = .error f) :
    ∃ line ∈ body, FaultOn line.1 .frame f := by
  unfold splitBody at h
  split at h
  · cases h
  · rename_i number line rest hdrop
    have hmem : (number, line) ∈ body :=
      (List.dropWhile_sublist _).mem (hdrop ▸ List.mem_cons_self ..)
    split at h
    · cases h
      exact ⟨(number, line), hmem, rfl, rfl⟩
    · cases h

end Document

end Runbook.Workflow
