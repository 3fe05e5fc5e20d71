import LensPath.Proofs.Inspection.Canonical
import LensPath.Proofs.Inspection.Offence

/-!
Blank texts and what is kept of texts. Nothing is kept of a blank text, so it has no highlights
with or without the test for it, and a lens is reported for a blank path exactly if its text is
blank, wherever it stands.
-/

namespace LensPath

namespace TypeModel

variable {model : TypeModel τ} {root : τ} {lens : Lens} {found : List Diagnostic}

theorem blank_of_blankPath_mem (checked : model.check root lens = .ok found)
    (reported : .blankPath ∈ found) : Blank lens.path := by
  rcases exists_of_mem_check checked reported with
    ⟨blank, _⟩ | ⟨segment, unmoved, offends, moved⟩
  · exact blank
  · have spanless := congrArg Diagnostic.span? moved
    rw [Diagnostic.translate_span?, offends.span] at spanless
    cases spanless

theorem check_eq_blankPath_iff :
    model.check root lens = .ok [.blankPath] ↔ Blank lens.path := by
  constructor
  · intro checked
    exact blank_of_blankPath_mem checked (List.mem_singleton_self _)
  · intro blank
    exact check_of_blank model root blank

end TypeModel

structure BlankAgrees (source : String) : Prop where
  nothingKept : Blank source → (Path.ofString source).segments = []
  highlights : ∀ offset, highlights source offset = (Path.ofString source).highlights offset
  reported : ∀ {τ : Type} (model : TypeModel τ) (root : τ) (mode : Lens.Mode) (offset : Nat),
    model.check root ⟨source, mode, offset⟩ = .ok [.blankPath] ↔ Blank source
  kept : (Path.ofString source).segments ≠ [] → ¬ Blank source ∧
    ∀ {τ : Type} (model : TypeModel τ) (root : τ) (mode : Lens.Mode) (offset : Nat)
      (found : List Diagnostic), model.check root ⟨source, mode, offset⟩ = .ok found →
        .blankPath ∉ found

/-- The test for blank texts is a shortcut for highlights, and for lenses it comes before a path of
which nothing is kept only. -/
theorem blank_agrees (source : String) : BlankAgrees source := by
  have nothingKept : Blank source → (Path.ofString source).segments = [] := by
    intro blank
    rw [Path.ofString_of_blank blank]
    rfl
  constructor
  · exact nothingKept
  · intro offset
    exact highlights_eq source offset
  · intro τ model root mode offset
    exact TypeModel.check_eq_blankPath_iff
  · intro kept
    have notBlank := mt nothingKept kept
    refine ⟨notBlank, ?_⟩
    intro τ model root mode offset found checked reported
    exact notBlank (TypeModel.blank_of_blankPath_mem checked reported)

/-- U+3000 is blank, also behind the last byte that has an offset, and U+200B only looks so. -/
theorem blank_agrees_ideographic :
    (Blank "\u3000" ∧ (Path.ofString "\u3000").segments = [] ∧
      TypeModel.personTable.model.check "Person" ⟨"\u3000", .write, offsetBound - 1⟩ =
        .ok [.blankPath]) ∧
    ((Path.ofString "name\u3000").segments ≠ [] ∧ ¬ Blank "name\u3000") ∧
    TypeModel.personTable.model.check "Person" ⟨"\u200B", .read, 0⟩ ≠ .ok [.blankPath] := by
  have blank : Blank "\u3000" := by decide +kernel
  have kept : (Path.ofString "name\u3000").segments ≠ [] := by decide +kernel
  have notBlank : ¬ Blank "\u200B" := by decide +kernel
  have space := blank_agrees "\u3000"
  refine ⟨⟨blank, space.nothingKept blank, ?_⟩, ⟨kept, ?_⟩, ?_⟩
  · exact (space.reported _ "Person" .write (offsetBound - 1)).mpr blank
  · exact ((blank_agrees "name\u3000").kept kept).1
  · exact mt ((blank_agrees "\u200B").reported _ "Person" .read 0).mp notBlank

end LensPath
