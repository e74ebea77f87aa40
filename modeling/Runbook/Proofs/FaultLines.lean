import Runbook.Proofs.Documents
import Runbook.Proofs.Drawing
import Runbook.Proofs.Endpoints
import Runbook.Proofs.Faults

/-!
The lines that the faults of a document show on. The lines of a document are numbered without a gap,
so the header and the statements stand on lines it has, and a draft remembers no others. What a
diagram and a list of actions make together is read one statement after another, so there is one
statement at which the reading first fails.
-/
namespace Runbook.Workflow

namespace Document

theorem mem_numbered {s : String} {line : NumberedLine} (h : line ∈ numbered s) :
    1 ≤ line.1 ∧ line.1 ≤ (Text.lines s).length := by
  have hnumber : line.1 ∈ (numbered s).map Prod.fst := List.mem_map_of_mem h
  rw [numbers_numbered, List.mem_range'_1] at hnumber
  omega

/-- A fault on a line of a document shows within the document. -/
theorem liesWithin_of_mem {s : String} {line : NumberedLine} {origin : Problem.Origin}
    {f : DocumentFault} (h : line ∈ numbered s) (hon : FaultOn line.1 origin f) :
    f.LiesWithin (max 1 (Text.lines s).length) := by
  obtain ⟨hpos, hle⟩ := mem_numbered h
  exact hon.liesWithin hpos (Nat.le_trans hle (Nat.le_max_right ..))

/-- As many lines come after a line as its number leaves. -/
theorem number_add_length {s : String} {line : NumberedLine} {rest : List NumberedLine}
    (h : line :: rest <:+ numbered s) : line.1 + rest.length = (Text.lines s).length := by
  obtain ⟨before, hbefore⟩ := h
  have hnumbers := congrArg (List.map Prod.fst) hbefore
  rw [numbers_numbered, List.map_append, eq_comm, List.range'_eq_append_iff] at hnumbers
  obtain ⟨skipped, hskipped, -, hline⟩ := hnumbers
  rw [List.map_cons, eq_comm, List.range'_eq_cons_iff] at hline
  obtain ⟨hfirst, hleft, hrest⟩ := hline
  have hlength := congrArg List.length hrest
  rw [List.length_map, List.length_range'] at hlength
  omega

/-- The lines of a header lie in the document, and so does the first one where there are none. -/
theorem first_add_length {s : String} {l : Layout} (h : layout (numbered s) = .ok l) :
    1 ≤ l.first ∧ l.first + (l.header.length - 1) ≤ (Text.lines s).length := by
  unfold layout at h
  split at h
  · cases h
  · rename_i number line rest hdrop
    have hsuffix : (number, line) :: rest <:+ numbered s := hdrop ▸ List.dropWhile_suffix _
    have hlength := number_add_length hsuffix
    have hnumber := (mem_numbered (hsuffix.mem (List.mem_cons_self ..))).1
    simp only at hlength hnumber
    split at h
    · split at h
      · cases h
      · rename_i fence body hbody
        cases h
        have hheader := congrArg List.length (List.takeWhile_append_dropWhile (l := rest)
          (p := fun l => !isFence l.2))
        rw [hbody, List.length_append, List.length_cons] at hheader
        simp only [List.length_map]
        omega
    · cases h
      have hheader : (rest.takeWhile fun l => !isBlankLine l.2).length ≤ rest.length :=
        (List.takeWhile_sublist _).length_le
      simp only [List.length_cons, List.length_map]
      omega

end Document

namespace Draft

variable {d d' : Draft} {numbers : List Nat} {line : Nat}

/-- The transitions and the open forks of a draft stand on lines with certain numbers. -/
structure StandsOn (numbers : List Nat) (d : Draft) : Prop where
  transitions : ∀ t ∈ d.transitions, ∃ n ∈ numbers, t.line = some n
  openForks : ∀ fork ∈ d.openForks, fork.2 ∈ numbers

theorem StandsOn.gains (h : StandsOn numbers d) (hline : line ∈ numbers)
    (hd : Gains line d d') : StandsOn numbers d' := by
  cases hd with
  | aside notes openNote => exact ⟨h.transitions, h.openForks⟩
  | description _ text =>
    rename_i id _
    obtain ⟨states, hstates⟩ := exists_states_describe d id text
    rw [hstates]
    exact ⟨h.transitions, h.openForks⟩
  | arrow =>
    rename_i source target guard label _ _ _
    obtain ⟨states, hstates⟩ := exists_states_draw d line source target guard label
    rw [hstates]
    refine ⟨fun t ht => ?_, ?_⟩
    · rcases List.mem_append.mp ht with ht | ht
      · exact h.transitions t ht
      · rw [List.mem_singleton.mp ht]
        exact ⟨line, hline, rfl⟩
    · cases source <;> exact h.openForks
  | marker _ _ hmarks =>
    rename_i id kind _ _
    obtain ⟨states, hstates⟩ := exists_states_declare d id
    cases hmarks with
    | choice =>
      rw [hstates]
      exact ⟨h.transitions, h.openForks⟩
    | fork =>
      unfold forked
      rw [hstates]
      refine ⟨h.transitions, fun fork hfork => ?_⟩
      rcases List.mem_cons.mp hfork with rfl | hfork
      · exact hline
      · exact h.openForks fork hfork
    | join hopen =>
      unfold joined
      rw [hstates]
      refine ⟨h.transitions, fun fork hfork => h.openForks fork ?_⟩
      rw [hopen]
      exact List.mem_cons_of_mem _ hfork

theorem standsOn_of_addLines {fenced : Bool} {lines : List NumberedLine}
    (hd : empty.addLines fenced lines = .ok d) : StandsOn (lines.map Prod.fst) d := by
  have hempty : StandsOn (lines.map Prod.fst) empty :=
    ⟨fun _ ht => absurd ht List.not_mem_nil, fun _ hfork => absurd hfork List.not_mem_nil⟩
  refine foldlM_keeps_of_mem (fun before line hline after h hstep => ?_) hempty hd
  exact h.gains (List.mem_map_of_mem hline) (gains_of_addLine hstep)

theorem linked_of_addLines {fenced : Bool} {lines : List NumberedLine}
    (hd : empty.addLines fenced lines = .ok d) : d.Linked :=
  foldlM_keeps (fun _ _ _ h hstep => h.gains (gains_of_addLine hstep))
    (fun _ ht => absurd ht List.not_mem_nil) hd

/-- The faults of a diagram as a whole: a fork that is left open, shown where its marker stands, or
a state that is no fork and has several unguarded exits, shown where the second of them stands. -/
inductive AtOdds (d : Draft) : DocumentFault → Prop
  | unclosed {fork : String} {line : Nat} (hopen : (fork, line) ∈ d.openForks) :
      AtOdds d (.atLine line .forkWithoutJoin (some fork))
  | severalExits {id : String} {state : State} {first second : Transition} {rest : List Transition}
      (hstate : d.state? id = some state) (hfork : state.kind ≠ .fork)
      (hexits : d.unguardedExits id = first :: second :: rest) :
      AtOdds d
        ⟨.ambiguousExits id (rest.length + 2), second.line.map Int.ofNat, some id, none, none⟩

theorem atOdds_of_checkRegions {f : DocumentFault} (h : d.checkRegions = .error f) :
    d.AtOdds f := by
  unfold checkRegions at h
  split at h
  · cases h
  · rename_i fork line outer hopen
    cases h
    exact .unclosed (hopen ▸ List.mem_cons_self ..)

theorem atOdds_of_checkExits {f : DocumentFault} (hlinked : d.Linked)
    (h : d.checkExits = .error f) : d.AtOdds f := by
  rw [checkExits_eq] at h
  split at h
  · cases h
  · rename_i f' hfind
    cases h
    obtain ⟨id, -, hfault⟩ := List.exists_of_findSome?_eq_some hfind
    unfold exitFault? at hfault
    split at hfault
    · rename_i first second rest hexits
      split at hfault
      · cases hfault
      · rename_i hfork
        cases hfault
        have hfirst : first ∈ d.unguardedExits id := hexits ▸ List.mem_cons_self ..
        obtain ⟨hmem, hsource⟩ := List.mem_filter.mp hfirst
        rw [Bool.and_eq_true, beq_iff_eq] at hsource
        obtain ⟨state, hstate⟩ := exists_of_mem_ids (hsource.1 ▸ (hlinked first hmem).1)
        refine .severalExits hstate (fun hkind => hfork ?_) hexits
        unfold isFork
        rw [hstate, Option.map_some, hkind]
        rfl
    · cases hfault

/-- A whole diagram that is at odds is refused on one of its lines. -/
theorem AtOdds.exists_number {f : DocumentFault} (h : d.AtOdds f) (hd : StandsOn numbers d) :
    ∃ n ∈ numbers, FaultOn n .whole f := by
  cases h with
  | unclosed hopen => exact ⟨_, hd.openForks _ hopen, rfl, rfl⟩
  | @severalExits id _ first second rest _ _ hexits =>
    have hsecond : second ∈ d.unguardedExits id := by
      rw [hexits]
      exact List.mem_cons_of_mem _ (List.mem_cons_self ..)
    obtain ⟨n, hn, hline⟩ := hd.transitions second (List.mem_filter.mp hsecond).1
    refine ⟨n, hn, ?_, rfl⟩
    rw [hline]
    rfl

end Draft

namespace Document

/-- The statements of a body: the lines of its diagram, and then those of its actions. -/
def Body.statements (b : Body) : List NumberedLine := b.diagram ++ b.actions

/-- What the first so many statements of a body make of a draft. -/
def Body.readUpTo (b : Body) (count : Nat) : Except DocumentFault Draft :=
  Draft.empty.addLines b.fenced (b.diagram.take count) >>= fun d =>
    d.addActions (b.actions.take (count - b.diagram.length))

/-- The reading of a body first fails at a line: all beginnings of the statements before it can be
read, and where the line is added the reading fails with the fault. -/
def Body.FirstFailsAt (b : Body) (line : NumberedLine) (f : DocumentFault) : Prop :=
  ∃ before after, b.statements = before ++ line :: after ∧
    (∀ count ≤ before.length, ∃ d, b.readUpTo count = .ok d) ∧
    b.readUpTo (before.length + 1) = .error f

variable {b : Body} {before after : List NumberedLine} {line : NumberedLine} {f : DocumentFault}

/-- What can be read up to some statement can be read up to every statement before it. -/
theorem Body.exists_readUpTo {d : Draft} {count fewer : Nat} (h : b.readUpTo count = .ok d)
    (hle : fewer ≤ count) : ∃ d', b.readUpTo fewer = .ok d' := by
  obtain ⟨drawn, hdrawn, hactions⟩ := bind_eq_ok_iff.mp h
  rcases Nat.le_total fewer b.diagram.length with hshort | hlong
  · obtain ⟨next, hnext⟩ := exists_foldlM_take hdrawn fewer
    rw [List.take_take, Nat.min_eq_left hle] at hnext
    refine ⟨next, bind_eq_ok_iff.mpr ⟨next, hnext, ?_⟩⟩
    rw [Nat.sub_eq_zero_of_le hshort]
    rfl
  · obtain ⟨next, hnext⟩ := exists_foldlM_take hactions (fewer - b.diagram.length)
    rw [List.take_take, Nat.min_eq_left (Nat.sub_le_sub_right hle _)] at hnext
    refine ⟨next, bind_eq_ok_iff.mpr ⟨drawn, ?_, hnext⟩⟩
    rw [List.take_of_length_le hlong]
    rwa [List.take_of_length_le (Nat.le_trans hlong hle)] at hdrawn

/-- The reading fails at a statement of the diagram that cannot be added to what comes before it. -/
theorem Body.firstFailsAt_of_addLine {d : Draft} (hdiagram : b.diagram = before ++ line :: after)
    (hbefore : Draft.empty.addLines b.fenced before = .ok d)
    (hline : d.addLine b.fenced line = .error f) : b.FirstFailsAt line f := by
  refine ⟨before, after ++ b.actions, ?_, fun count => Body.exists_readUpTo (d := d) ?_, ?_⟩
  · rw [statements, hdiagram, List.append_assoc, List.cons_append]
  · unfold readUpTo
    rw [hdiagram, List.take_left, hbefore, List.length_append,
      Nat.sub_eq_zero_of_le (Nat.le_add_right ..)]
    rfl
  · have hread : Draft.empty.addLines b.fenced (b.diagram.take (before.length + 1)) = .error f := by
      rw [hdiagram, List.take_length_add_append, List.take_succ_cons, List.take_zero]
      exact foldlM_concat_of_error hbefore hline
    exact bind_eq_error_iff.mpr (Or.inl hread)

/-- The reading fails at an entry that cannot be added to the diagram and the entries before it. -/
theorem Body.firstFailsAt_of_addAction {drawn d : Draft}
    (hactions : b.actions = before ++ line :: after)
    (hdrawn : Draft.empty.addLines b.fenced b.diagram = .ok drawn)
    (hbefore : drawn.addActions before = .ok d) (hline : d.addAction line = .error f) :
    b.FirstFailsAt line f := by
  have hwhole : ∀ more, b.diagram.take (b.diagram.length + more) = b.diagram :=
    fun more => List.take_of_length_le (Nat.le_add_right ..)
  refine ⟨b.diagram ++ before, after, ?_, fun count => Body.exists_readUpTo (d := d) ?_, ?_⟩
  · rw [statements, hactions, List.append_assoc]
  · refine bind_eq_ok_iff.mpr ⟨drawn, ?_, ?_⟩
    · rw [List.length_append, hwhole]
      exact hdrawn
    · rw [List.length_append, Nat.add_sub_cancel_left, hactions, List.take_left]
      exact hbefore
  · refine bind_eq_error_iff.mpr (Or.inr ⟨drawn, ?_, ?_⟩)
    · rw [List.length_append, Nat.add_assoc, hwhole]
      exact hdrawn
    · rw [List.length_append, Nat.add_assoc, Nat.add_sub_cancel_left, hactions,
        List.take_length_add_append, List.take_succ_cons, List.take_zero]
      exact foldlM_concat_of_error hbefore hline

/-- The body of a document. -/
def body? (document : List NumberedLine) : Option Body := do
  let layout ← (layout document).toOption
  (splitBody layout.body).toOption

theorem body?_eq_some {document : List NumberedLine} {l : Layout}
    (hlayout : layout document = .ok l) (hbody : splitBody l.body = .ok b) :
    body? document = some b := by
  simp [body?, hlayout, hbody, Except.toOption]

/-- The statements of a document stand on its lines. -/
theorem statements_subset {lines : List NumberedLine} (h : splitBody lines = .ok b) :
    b.statements ⊆ lines := by
  have hactions : ∀ more, more <:+ lines → afterHeading more ⊆ lines := by
    intro more hmore
    exact ((List.tail_suffix _).trans ((List.dropWhile_suffix _).trans hmore)).subset
  refine List.append_subset.mpr ⟨(isInfix_splitBody h).subset, ?_⟩
  unfold splitBody at h
  split at h
  · cases h
    exact hactions lines List.suffix_rfl
  · rename_i number line rest hdrop
    have hrest : rest <:+ lines :=
      (List.suffix_cons ..).trans (hdrop ▸ List.dropWhile_suffix _)
    split at h
    · cases h
    · rename_i fence after hafter
      cases h
      have hbehind : fence :: after <:+ rest := hafter ▸ List.dropWhile_suffix _
      exact hactions after (((List.suffix_cons ..).trans hbehind).trans hrest)

/-- What the statements of a body make is refused at the first that cannot be added, or else for the
diagram as a whole. -/
theorem Body.firstFailsAt_or_atOdds
    (h : Draft.ofLines b.fenced b.diagram b.actions = .error f) :
    (∃ line ∈ b.statements, FaultOn line.1 .statement f ∧ b.FirstFailsAt line f) ∨
      ∃ drawn, Draft.empty.addLines b.fenced b.diagram = .ok drawn ∧ drawn.AtOdds f := by
  unfold Draft.ofLines at h
  rcases bind_eq_error_iff.mp h with h | ⟨drawn, hdrawn, h⟩
  · obtain ⟨before, line, after, d, hdiagram, hbefore, hline⟩ := exists_of_foldlM_eq_error h
    have hmem : line ∈ b.statements := by
      unfold statements
      simp [hdiagram]
    exact Or.inl ⟨line, hmem, Draft.faultOn_of_addLine hline,
      firstFailsAt_of_addLine hdiagram hbefore hline⟩
  rcases bind_eq_error_iff.mp h with h | ⟨_, -, h⟩
  · exact Or.inr ⟨drawn, hdrawn, Draft.atOdds_of_checkRegions h⟩
  rcases bind_eq_error_iff.mp h with h | ⟨_, -, h⟩
  · exact Or.inr ⟨drawn, hdrawn, Draft.atOdds_of_checkExits (Draft.linked_of_addLines hdrawn) h⟩
  · obtain ⟨before, line, after, d, hactions, hbefore, hline⟩ := exists_of_foldlM_eq_error h
    have hmem : line ∈ b.statements := by
      unfold statements
      simp [hactions]
    exact Or.inl ⟨line, hmem, Draft.faultOn_of_addAction hline,
      firstFailsAt_of_addAction hactions hdrawn hbefore hline⟩

end Document

/-- Where the text of a header is malformed, this shows on one of the header's lines. -/
def Layout.MarkedWithin (l : Layout) : Prop := ∀ problem mark,
  Yaml.Content.read (String.intercalate "\n" l.header) = .error (.malformed problem (some mark)) →
    mark < l.header.length

instance (l : Layout) : Decidable l.MarkedWithin :=
  decidable_of_iff ((match Yaml.Content.read (String.intercalate "\n" l.header) with
    | .error (.malformed _ (some mark)) => decide (mark < l.header.length)
    | _ => true) = true) (by
    unfold Layout.MarkedWithin
    split
    · rename_i problem mark hread
      simp [hread]
    · rename_i hother
      exact iff_of_true rfl fun problem mark hread => absurd hread (hother problem mark))

namespace Definition

open Document

variable {s : String} {name : Option String} {f : DocumentFault}

/-- A document is refused for its header or its fences, or for what its statements make. -/
theorem frame_or_ofLines_of_parse (h : parse s name = .error (.fault f))
    (hmark : ∀ l ∈ (layout (numbered s)).toOption, l.MarkedWithin) :
    (f.cause.origin = .frame ∧ f.LiesWithin (max 1 (Text.lines s).length)) ∨
      ∃ b, body? (numbered s) = some b ∧ b.statements ⊆ numbered s ∧
        Draft.ofLines b.fenced b.diagram b.actions = .error f := by
  unfold parse at h
  rcases bind_eq_error_iff.mp h with h | ⟨l, hl, h⟩
  · obtain ⟨_, hlayout, ⟨⟩⟩ := exists_of_mapError_eq_error h
    left
    rcases faultOn_of_layout hlayout with hon | ⟨line, hline, hon⟩
    · exact ⟨hon.origin, hon.liesWithin (Nat.le_refl 1) (Nat.le_max_left ..)⟩
    · exact ⟨hon.origin, liesWithin_of_mem hline hon⟩
  have hlayout := mapError_eq_ok_iff.mp hl
  rcases bind_eq_error_iff.mp h with h | ⟨header, -, h⟩
  · obtain ⟨hpos, hle⟩ := first_add_length hlayout
    left
    rcases faultOn_of_readHeader h with hon | ⟨problem, mark, hread, hon⟩
    · exact ⟨hon.origin, hon.liesWithin hpos (by omega)⟩
    · have hmem : l ∈ (layout (numbered s)).toOption := by
        rw [hlayout]
        rfl
      have hwithin := hmark l hmem problem mark hread
      exact ⟨hon.origin, hon.liesWithin (by omega) (by omega)⟩
  rcases bind_eq_error_iff.mp h with h | ⟨b, hb, h⟩
  · obtain ⟨_, hbody, ⟨⟩⟩ := exists_of_mapError_eq_error h
    obtain ⟨line, hline, hon⟩ := faultOn_of_splitBody hbody
    exact Or.inl ⟨hon.origin, liesWithin_of_mem ((isSuffix_layout hlayout).mem hline) hon⟩
  have hbody := mapError_eq_ok_iff.mp hb
  rcases bind_eq_error_iff.mp h with h | ⟨draft, -, h⟩
  · obtain ⟨_, hdraft, ⟨⟩⟩ := exists_of_mapError_eq_error h
    exact Or.inr ⟨b, body?_eq_some hlayout hbody, fun line hline =>
      (isSuffix_layout hlayout).subset (statements_subset hbody hline), hdraft⟩
  · cases h

/-- Every fault of a document shows on one of its lines, or on the first where it has none, as long
as malformed text in its header shows on a line of the header. A fault of a statement shows where
the reading of the statements, one after another, first fails, and is the one it fails with. An
ambiguity names a state that is no fork and shows on the line of its second unguarded exit. -/
theorem line_of_fault (h : parse s name = .error (.fault f))
    (hmark : ∀ l ∈ (layout (numbered s)).toOption, l.MarkedWithin) :
    (∃ n : Nat, f.line = some (n : Int) ∧ 1 ≤ n ∧ n ≤ max 1 (Text.lines s).length) ∧
    (f.cause.origin = .statement → ∃ b line, body? (numbered s) = some b ∧
      b.FirstFailsAt line f ∧ f.line = some (line.1 : Int)) ∧
    (f.cause.isAmbiguity = true → ∃ b drawn id state first second rest,
      body? (numbered s) = some b ∧ Draft.empty.addLines b.fenced b.diagram = .ok drawn ∧
      f.token = some id ∧ drawn.state? id = some state ∧ state.kind ≠ .fork ∧
      drawn.unguardedExits id = first :: second :: rest ∧
      f.line = second.line.map Int.ofNat) := by
  rcases frame_or_ofLines_of_parse h hmark with ⟨horigin, hwithin⟩ | ⟨b, hbody, hsubset, hdraft⟩
  · refine ⟨hwithin, fun hstatement => ?_, fun hambiguous => ?_⟩
    · rw [horigin] at hstatement
      cases hstatement
    · rw [Problem.origin_of_isAmbiguity hambiguous] at horigin
      cases horigin
  rcases Body.firstFailsAt_or_atOdds hdraft with ⟨line, hline, hon, hfirst⟩ | ⟨drawn, hdrawn, hodds⟩
  · refine ⟨liesWithin_of_mem (hsubset hline) hon,
      fun _ => ⟨b, line, hbody, hfirst, hon.line⟩, fun hambiguous => ?_⟩
    have horigin := hon.origin
    rw [Problem.origin_of_isAmbiguity hambiguous] at horigin
    cases horigin
  · obtain ⟨n, hn, hon⟩ := hodds.exists_number (Draft.standsOn_of_addLines hdrawn)
    obtain ⟨line, hline, rfl⟩ := List.mem_map.mp hn
    refine ⟨liesWithin_of_mem (hsubset (List.mem_append_left _ hline)) hon, fun hstatement => ?_,
      fun hambiguous => ?_⟩
    · rw [hon.origin] at hstatement
      cases hstatement
    · cases hodds with
      | unclosed => cases hambiguous
      | @severalExits id state first second rest hstate hfork hexits =>
        exact ⟨b, drawn, id, state, first, second, rest, hbody, hdrawn, rfl, hstate, hfork, hexits,
          rfl⟩

/-- A header that is malformed on its second line. -/
def malformedHeader : List String := ["", "---", "name: torn", "a: b: c", "---", "[*] --> A"]

/-- An entry for a state that the diagram does not have. -/
def unknownEntry : List String :=
  ["name: entries", "", "[*] --> A", "A --> [*]", "", "## Actions", "- A: log in", "",
    "- B: log out"]

/-- Two ways out of a state that is no fork. -/
def ambiguousExits : List String :=
  ["name: amb", "", "[*] --> A", "A --> B", "A --> C", "B --> [*]", "C --> [*]"]

/-- A malformed header, an entry and an ambiguity, each refused on its line. -/
theorem lines_of_faults :
    (∃ f : DocumentFault, parse (Text.unlines malformedHeader) none = .error (.fault f) ∧
      ∃ n : Nat, f.line = some (n : Int) ∧ n = 4 ∧ 1 ≤ n ∧
        n ≤ max 1 (Text.lines (Text.unlines malformedHeader)).length) ∧
    (∃ (f : DocumentFault) (b : Body) (line : NumberedLine),
      parse (Text.unlines unknownEntry) none = .error (.fault f) ∧
      b.FirstFailsAt line f ∧ line.1 = 9) ∧
    ∃ (drawn : Draft) (state : State) (first second : Transition) (rest : List Transition),
      drawn.state? "A" = some state ∧ state.kind ≠ .fork ∧
      drawn.unguardedExits "A" = first :: second :: rest ∧
      second.line.map Int.ofNat = some 5 := by
  have hunbroken : (∀ l ∈ malformedHeader, Text.unbroken l = true) ∧
      (∀ l ∈ unknownEntry, Text.unbroken l = true) ∧
      ∀ l ∈ ambiguousExits, Text.unbroken l = true := by decide +kernel
  obtain ⟨hheader, hentry, hexits⟩ := hunbroken
  have hmarks : ∀ ls ∈ [malformedHeader, unknownEntry, ambiguousExits],
      ∀ l ∈ (layout ((ls.zipIdx 1).map fun l => (l.2, l.1))).toOption, l.MarkedWithin := by
    decide +kernel
  refine ⟨?_, ?_, ?_⟩
  · have hparse : parse (Text.unlines malformedHeader) none = .error (.fault
        (.atLine 4 (.malformedHeader "mapping values are not allowed here") none)) := by
      rw [parse_unlines hheader]
      decide +kernel
    obtain ⟨⟨n, hn, hpos, hle⟩, -⟩ := line_of_fault hparse (by
      rw [numbered_unlines hheader]
      exact hmarks _ (by simp))
    exact ⟨_, hparse, n, hn, by cases hn; rfl, hpos, hle⟩
  · have hparse : parse (Text.unlines unknownEntry) none =
        .error (.fault (.atLine 9 .actionOfUnknownState (some "B"))) := by
      rw [parse_unlines hentry]
      decide +kernel
    obtain ⟨-, hstatement, -⟩ := line_of_fault hparse (by
      rw [numbered_unlines hentry]
      exact hmarks _ (by simp))
    obtain ⟨b, line, -, hfirst, hline⟩ := hstatement rfl
    refine ⟨_, b, line, hparse, hfirst, ?_⟩
    exact Int.ofNat.inj (Option.some.inj hline).symm
  · have hparse : parse (Text.unlines ambiguousExits) none = .error (.fault
        ⟨.ambiguousExits "A" 2, some 5, some "A", none, none⟩) := by
      rw [parse_unlines hexits]
      decide +kernel
    obtain ⟨-, -, hambiguous⟩ := line_of_fault hparse (by
      rw [numbered_unlines hexits]
      exact hmarks _ (by simp))
    obtain ⟨b, drawn, id, state, first, second, rest, -, -, hid, hstate, hfork, hsecond, hline⟩ :=
      hambiguous rfl
    cases hid
    exact ⟨drawn, state, first, second, rest, hstate, hfork, hsecond, hline.symm⟩

end Definition

end Runbook.Workflow
