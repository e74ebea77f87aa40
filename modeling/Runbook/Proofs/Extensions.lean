import Runbook.Resource

/-!
The extension of a file name: of the listed extensions that end the name and leave something of it,
the longest one. Two of the same length are the same text, so that it matters neither in which
order extensions are listed nor how often.
-/
namespace Runbook.Resource

/-- Characters that end others and are not all of them. -/
def Fits (cs e : List Char) : Prop := e <:+ cs ∧ e.length < cs.length

instance (cs e : List Char) : Decidable (Fits cs e) := inferInstanceAs (Decidable (_ ∧ _))

theorem fits_iff_exists {cs e : List Char} : Fits cs e ↔ ∃ stem, stem ≠ [] ∧ cs = stem ++ e := by
  constructor
  · rintro ⟨⟨stem, rfl⟩, hlength⟩
    refine ⟨stem, ?_, rfl⟩
    rintro rfl
    exact Nat.lt_irrefl _ hlength
  · rintro ⟨stem, hstem, rfl⟩
    refine ⟨List.suffix_append stem e, ?_⟩
    rw [List.length_append]
    exact Nat.lt_add_of_pos_left (List.length_pos_iff.mpr hstem)

/-- The longest of some extensions that fit a file name. -/
structure LongestFit (cs : List Char) (extensions : List (List Char)) (e : List Char) : Prop where
  mem : e ∈ extensions
  fits : Fits cs e
  longest : ∀ o ∈ extensions, Fits cs o → o.length ≤ e.length

theorem LongestFit.unique {cs e other : List Char} {extensions : List (List Char)}
    (h : LongestFit cs extensions e) (hother : LongestFit cs extensions other) : other = e := by
  have hle := h.longest other hother.mem hother.fits
  have hge := hother.longest e h.mem h.fits
  have hsuffix : other <:+ e := List.suffix_of_suffix_length_le hother.fits.1 h.fits.1 hle
  exact hsuffix.eq_of_length (Nat.le_antisymm hle hge)

theorem LongestFit.congr {cs e : List Char} {extensions others : List (List Char)}
    (hsame : ∀ o, o ∈ others ↔ o ∈ extensions) (h : LongestFit cs extensions e) :
    LongestFit cs others e :=
  ⟨(hsame e).mpr h.mem, h.fits, fun o ho => h.longest o ((hsame o).mp ho)⟩

/-- What an extension listed first does to the choice among the rest. -/
theorem extension?_cons (cs e : List Char) (rest : List (List Char)) :
    extension? cs (e :: rest) =
      if Fits cs e then
        match extension? cs rest with
        | some o => if o.length < e.length then some e else some o
        | none => some e
      else extension? cs rest := by
  rw [extension?]
  by_cases hfits : Fits cs e
  · exact (if_pos (by simpa [Fits] using hfits)).trans (if_pos hfits).symm
  · exact (if_neg (by simpa [Fits] using hfits)).trans (if_neg hfits).symm

/-- Either the longest fitting extension is found, or none fits. -/
theorem extension?_cases (cs : List Char) (extensions : List (List Char)) :
    (∃ e, extension? cs extensions = some e ∧ LongestFit cs extensions e) ∨
      extension? cs extensions = none ∧ ∀ e ∈ extensions, ¬ Fits cs e := by
  induction extensions with
  | nil => exact Or.inr ⟨rfl, nofun⟩
  | cons e rest ih =>
    rw [extension?_cons]
    by_cases hfits : Fits cs e
    · left
      rw [if_pos hfits]
      rcases ih with ⟨o, ho, hlongest⟩ | ⟨hnone, hrest⟩
      · rw [ho]
        dsimp only
        split
        · rename_i hlonger
          refine ⟨e, rfl, List.mem_cons_self .., hfits, fun other hother hfit => ?_⟩
          rcases List.mem_cons.mp hother with rfl | hother
          · exact Nat.le_refl _
          · exact Nat.le_trans (hlongest.longest other hother hfit) (Nat.le_of_lt hlonger)
        · rename_i hshorter
          refine ⟨o, rfl, List.mem_cons_of_mem _ hlongest.mem, hlongest.fits,
            fun other hother hfit => ?_⟩
          rcases List.mem_cons.mp hother with rfl | hother
          · exact Nat.not_lt.mp hshorter
          · exact hlongest.longest other hother hfit
      · rw [hnone]
        refine ⟨e, rfl, List.mem_cons_self .., hfits, fun other hother hfit => ?_⟩
        rcases List.mem_cons.mp hother with rfl | hother
        · exact Nat.le_refl _
        · exact absurd hfit (hrest other hother)
    · rw [if_neg hfits]
      rcases ih with ⟨o, ho, hlongest⟩ | ⟨hnone, hrest⟩
      · refine Or.inl ⟨o, ho, List.mem_cons_of_mem _ hlongest.mem, hlongest.fits,
          fun other hother hfit => ?_⟩
        rcases List.mem_cons.mp hother with rfl | hother
        · exact absurd hfit hfits
        · exact hlongest.longest other hother hfit
      · exact Or.inr ⟨hnone, List.forall_mem_cons.mpr ⟨hfits, hrest⟩⟩

theorem extension?_eq_some_iff {cs e : List Char} {extensions : List (List Char)} :
    extension? cs extensions = some e ↔ LongestFit cs extensions e := by
  rcases extension?_cases cs extensions with ⟨o, ho, hlongest⟩ | ⟨hnone, hrest⟩
  · rw [ho]
    constructor
    · intro heq
      exact Option.some.inj heq ▸ hlongest
    · intro h
      rw [h.unique hlongest]
  · rw [hnone]
    exact ⟨nofun, fun h => absurd h.fits (hrest e h.mem)⟩

theorem extension?_eq_none_iff {cs : List Char} {extensions : List (List Char)} :
    extension? cs extensions = none ↔ ∀ e ∈ extensions, ¬ Fits cs e := by
  rcases extension?_cases cs extensions with ⟨e, he, hlongest⟩ | ⟨hnone, hrest⟩
  · rw [he]
    exact ⟨nofun, fun h => absurd hlongest.fits (h e hlongest.mem)⟩
  · exact ⟨fun _ => hrest, fun _ => hnone⟩

/-- Of extensions in decreasing length the first one that fits is the longest. -/
theorem find?_fits {cs : List Char} {extensions : List (List Char)}
    (hordered : extensions.Pairwise fun a b => b.length ≤ a.length) :
    extensions.find? (fun e => decide (Fits cs e)) = extension? cs extensions := by
  cases hfound : extensions.find? fun e => decide (Fits cs e) with
  | none =>
    have hnone := List.find?_eq_none.mp hfound
    exact (extension?_eq_none_iff.mpr fun e he => by simpa using hnone e he).symm
  | some e =>
    obtain ⟨hfits, before, after, rfl, hbefore⟩ := List.find?_eq_some_iff_append.mp hfound
    refine (extension?_eq_some_iff.mpr ⟨by simp, of_decide_eq_true hfits, ?_⟩).symm
    intro o ho hfit
    rcases List.mem_append.mp ho with ho | ho
    · exact absurd hfit (by simpa using hbefore o ho)
    · rcases List.mem_cons.mp ho with rfl | ho
      · exact Nat.le_refl _
      · exact (List.pairwise_cons.mp (List.pairwise_append.mp hordered).2.1).1 o ho

/-! File names. -/

/-- An extension ends a file name and leaves something of it. -/
def IsExtension (filename e : String) : Prop := ∃ stem, stem ≠ "" ∧ filename = stem ++ e

/-- The longest of some extensions that a file name has. -/
structure Longest (filename : String) (extensions : List String) (e : String) : Prop where
  mem : e ∈ extensions
  isExtension : IsExtension filename e
  longest : ∀ o ∈ extensions, IsExtension filename o → o.length ≤ e.length

/-- What is left of a file name without an extension. -/
def stem (filename e : String) : String :=
  String.ofList (filename.toList.take (filename.length - e.length))

theorem stem_append (s e : String) : stem (s ++ e) e = s := by
  unfold stem
  rw [String.toList_append, String.length_append, Nat.add_sub_cancel, ← String.length_toList,
    List.take_left, String.ofList_toList]

theorem toList_ne_nil {s : String} : s.toList ≠ [] ↔ s ≠ "" := by
  rw [Ne, String.toList_eq_nil_iff]

theorem isExtension_iff {filename e : String} :
    IsExtension filename e ↔ Fits filename.toList e.toList := by
  rw [fits_iff_exists]
  constructor
  · rintro ⟨s, hs, rfl⟩
    exact ⟨s.toList, toList_ne_nil.mpr hs, String.toList_append⟩
  · rintro ⟨s, hs, heq⟩
    refine ⟨String.ofList s, ?_, ?_⟩
    · rw [← toList_ne_nil, String.toList_ofList]
      exact hs
    · rw [← String.toList_inj, String.toList_append, String.toList_ofList, heq]

theorem longest_iff {filename e : String} {extensions : List String} :
    Longest filename extensions e ↔
      LongestFit filename.toList (extensions.map String.toList) e.toList := by
  constructor
  · intro h
    refine ⟨List.mem_map_of_mem h.mem, isExtension_iff.mp h.isExtension, fun o ho hfit => ?_⟩
    obtain ⟨other, hother, rfl⟩ := List.mem_map.mp ho
    rw [String.length_toList, String.length_toList]
    exact h.longest other hother (isExtension_iff.mpr hfit)
  · intro h
    obtain ⟨other, hother, heq⟩ := List.mem_map.mp h.mem
    refine ⟨String.toList_inj.mp heq ▸ hother, isExtension_iff.mpr h.fits, fun o ho hfit => ?_⟩
    rw [← String.length_toList, ← String.length_toList]
    exact h.longest _ (List.mem_map_of_mem ho) (isExtension_iff.mp hfit)

/-- A file name is stripped by what is found for its characters. -/
theorem stripExtension_eq {extensions : List String} (hnonempty : ∀ e ∈ extensions, e ≠ "")
    (filename : String) : stripExtension filename extensions =
      (extension? filename.toList (extensions.map String.toList)).map fun e =>
        stem filename (String.ofList e) := by
  unfold stripExtension
  dsimp only
  cases hfound : extension? filename.toList (extensions.map String.toList) with
  | none => rfl
  | some e =>
    obtain ⟨other, hother, rfl⟩ := List.mem_map.mp (extension?_eq_some_iff.mp hfound).mem
    have hsome : other.toList.isEmpty = false := by
      rw [List.isEmpty_eq_false_iff]
      exact toList_ne_nil.mpr (hnonempty other hother)
    simp only [Option.map_some, hsome, Bool.false_eq_true, if_false, String.ofList_toList, stem,
      String.length_toList]

theorem stripExtension_eq_some_iff {extensions : List String}
    (hnonempty : ∀ e ∈ extensions, e ≠ "") {filename s : String} :
    stripExtension filename extensions = some s ↔
      s ≠ "" ∧ ∃ e, Longest filename extensions e ∧ filename = s ++ e := by
  rw [stripExtension_eq hnonempty, Option.map_eq_some_iff]
  constructor
  · rintro ⟨cs, hfound, rfl⟩
    have hlongest := extension?_eq_some_iff.mp hfound
    rw [← String.toList_ofList (l := cs), ← longest_iff] at hlongest
    obtain ⟨s, hs, heq⟩ := hlongest.isExtension
    rw [heq, stem_append]
    exact ⟨hs, _, heq ▸ hlongest, rfl⟩
  · rintro ⟨-, e, hlongest, rfl⟩
    refine ⟨e.toList, extension?_eq_some_iff.mpr (longest_iff.mp hlongest), ?_⟩
    rw [String.ofList_toList, stem_append]

theorem stripExtension_eq_none_iff {extensions : List String}
    (hnonempty : ∀ e ∈ extensions, e ≠ "") {filename : String} :
    stripExtension filename extensions = none ↔ ∀ e ∈ extensions, ¬ IsExtension filename e := by
  rw [stripExtension_eq hnonempty, Option.map_eq_none_iff, extension?_eq_none_iff,
    List.forall_mem_map]
  simp only [isExtension_iff]

/-- Only which extensions are listed matters. -/
theorem stripExtension_congr {extensions others : List String}
    (hnonempty : ∀ e ∈ extensions, e ≠ "") (hsame : ∀ e, e ∈ others ↔ e ∈ extensions)
    (filename : String) : stripExtension filename others = stripExtension filename extensions := by
  have hothers : ∀ e ∈ others, e ≠ "" := fun e he => hnonempty e ((hsame e).mp he)
  have hmapped : ∀ o, o ∈ others.map String.toList ↔ o ∈ extensions.map String.toList := by
    simp only [List.mem_map, hsame, implies_true]
  rw [stripExtension_eq hnonempty, stripExtension_eq hothers]
  congr 1
  apply Option.ext
  intro e
  rw [extension?_eq_some_iff, extension?_eq_some_iff]
  exact ⟨LongestFit.congr fun o => (hmapped o).symm, LongestFit.congr hmapped⟩

/-- A file name is stripped of the first extension it has, once extensions stand in an order of
decreasing length. -/
theorem stripExtension_eq_find? {extensions arranged : List String}
    (hnonempty : ∀ e ∈ extensions, e ≠ "") (hsame : arranged.Perm extensions)
    (hordered : arranged.Pairwise fun a b => b.length ≤ a.length) (filename : String) :
    stripExtension filename extensions =
      (arranged.find? fun e => decide (Fits filename.toList e.toList)).map (stem filename) := by
  have hnone : ∀ e ∈ arranged, e ≠ "" := fun e he => hnonempty e (hsame.mem_iff.mp he)
  have hchars : (arranged.map String.toList).Pairwise fun a b => b.length ≤ a.length := by
    rw [List.pairwise_map]
    simpa only [String.length_toList] using hordered
  have hstem : (fun e => stem filename (String.ofList e)) ∘ String.toList = stem filename :=
    funext fun e => congrArg (stem filename) String.ofList_toList
  rw [← stripExtension_congr hnonempty fun e => hsame.mem_iff, stripExtension_eq hnone,
    ← find?_fits hchars, List.find?_map, Option.map_map, hstem]
  rfl

/-- Whatever non-empty extensions are listed, in any order and however often: a file name is
stripped to what stands before the longest one that properly ends it, and to nothing only if none
does; only which extensions are listed matters; and it is the first fit among them in any order of
decreasing length. -/
theorem stripExtension_longest {extensions : List String} (hnonempty : ∀ e ∈ extensions, e ≠ "")
    (filename : String) :
    (∀ s, stripExtension filename extensions = some s ↔
      s ≠ "" ∧ ∃ e, Longest filename extensions e ∧ filename = s ++ e) ∧
    (stripExtension filename extensions = none ↔
      ∀ e ∈ extensions, ¬ IsExtension filename e) ∧
    (∀ others, (∀ e, e ∈ others ↔ e ∈ extensions) →
      stripExtension filename others = stripExtension filename extensions) ∧
    ∀ arranged : List String, arranged.Perm extensions →
      (arranged.Pairwise fun a b => b.length ≤ a.length) →
      stripExtension filename extensions =
        (arranged.find? fun e => decide (Fits filename.toList e.toList)).map (stem filename) :=
  ⟨fun _ => stripExtension_eq_some_iff hnonempty, stripExtension_eq_none_iff hnonempty,
    fun _ hsame => stripExtension_congr hnonempty hsame filename,
    fun _ hsame hordered => stripExtension_eq_find? hnonempty hsame hordered filename⟩

/-- The whole name is no extension of itself, so that a shorter one is stripped, wherever it is
listed. -/
theorem stripExtension_longest_hidden :
    stripExtension ".md.liquid" [".liquid", ".md.liquid", ".md", ".liquid"] = some ".md" ∧
      (".md" ≠ "" ∧ ∃ e, Longest ".md.liquid" [".liquid", ".md.liquid", ".md", ".liquid"] e ∧
        ".md.liquid" = ".md" ++ e) ∧
      stripExtension ".md.liquid" [".md", ".md.liquid", ".liquid"] = some ".md" := by
  have hnonempty : ∀ e ∈ [".liquid", ".md.liquid", ".md", ".liquid"], e ≠ "" := by decide
  have hspec := stripExtension_longest hnonempty ".md.liquid"
  have hstripped : stripExtension ".md.liquid" [".liquid", ".md.liquid", ".md", ".liquid"] =
      some ".md" := by decide
  refine ⟨hstripped, (hspec.1 ".md").mp hstripped, ?_⟩
  rw [hspec.2.2.1 _ fun e => ?_, hstripped]
  simp only [List.mem_cons, List.not_mem_nil, or_false]
  constructor
  · rintro (rfl | rfl | rfl) <;> simp
  · rintro (rfl | rfl | rfl | rfl) <;> simp

end Runbook.Resource
