import LensPath.Proofs.Inspection.Shifted

/-!
The segments that diagnostics are about. A check reports nothing, a blank path, or the one segment
that the lens is at fault for, moved to where its text stands.
-/

namespace LensPath

namespace TypeModel

/-- A segment that a lens is at fault for, with the diagnostic for it in the text of the path. -/
inductive Offends (model : TypeModel τ) (root : τ) (segments : List Segment) (mode : Lens.Mode) :
    Segment → Diagnostic → Prop
  | property {failure : MissingMember τ} (fails : model.FailsAt root segments failure)
      (kind : failure.segment.kind = .property) :
      Offends model root segments mode failure.segment
        (.propertyNotFound failure.segment.name failure.segment.span
          (model.presentableName failure.lookedUpOn))
  | method {failure : MissingMember τ} (fails : model.FailsAt root segments failure)
      (kind : failure.segment.kind = .method) :
      Offends model root segments mode failure.segment
        (.methodNotFound failure.segment.name failure.segment.span
          (model.presentableName failure.lookedUpOn))
  | written {segment : Segment} (whole : ∀ failure, ¬ model.FailsAt root segments failure)
      (writes : model.WritesCall root segments mode segment) :
      Offends model root segments mode segment (.methodWritten segment.name segment.span)

variable {model : TypeModel τ} {root : τ} {lens : Lens} {path : Path} {segments : List Segment}
variable {mode : Lens.Mode} {segment : Segment} {diagnostic : Diagnostic}

theorem offends_missing {failure : MissingMember τ}
    (fails : model.FailsAt root segments failure) :
    model.Offends root segments mode failure.segment (model.missingDiagnostic failure) := by
  cases kind : failure.segment.kind with
  | property =>
      simp only [missingDiagnostic, kind]
      exact .property fails kind
  | method =>
      simp only [missingDiagnostic, kind]
      exact .method fails kind

theorem exists_offends_of_diagnosePath
    (found : model.diagnosePath root mode path = some diagnostic) :
    ∃ segment, model.Offends root path.segments mode segment diagnostic := by
  by_cases fails : ∃ failure, model.FailsAt root path.segments failure
  · obtain ⟨failure, fails⟩ := fails
    cases (diagnosePath_of_failsAt fails).symm.trans found
    exact ⟨failure.segment, offends_missing fails⟩
  · have whole := not_exists.mp fails
    by_cases writes : ∃ segment, model.WritesCall root path.segments mode segment
    · obtain ⟨segment, writes⟩ := writes
      cases (diagnosePath_of_writesCall whole writes).symm.trans found
      exact ⟨segment, .written whole writes⟩
    · cases (diagnosePath_eq_none whole (not_exists.mp writes)).symm.trans found

theorem Offends.mem (offends : model.Offends root segments mode segment diagnostic) :
    segment ∈ segments := by
  cases offends with
  | property fails kind | method fails kind => exact List.mem_of_getElem? fails.segment
  | written whole writes => exact List.mem_of_getLast? writes.last

theorem Offends.span (offends : model.Offends root segments mode segment diagnostic) :
    diagnostic.span? = some segment.span := by
  cases offends <;> rfl

theorem exists_of_mem_check {found : List Diagnostic} (checked : model.check root lens = .ok found)
    (reported : diagnostic ∈ found) :
    (Blank lens.path ∧ diagnostic = .blankPath) ∨
      ∃ segment unmoved, model.Offends root (Path.ofString lens.path).segments lens.mode segment
        unmoved ∧ diagnostic = unmoved.translate lens.offset := by
  by_cases blank : Blank lens.path
  · rw [check_of_blank model root blank] at checked
    cases checked
    exact .inl ⟨blank, List.mem_singleton.mp reported⟩
  · right
    cases diagnosed : model.diagnosePath root lens.mode (Path.ofString lens.path) with
    | none =>
        rw [check_of_diagnosePath_none blank diagnosed] at checked
        cases checked
        cases reported
    | some unmoved =>
        obtain ⟨segment, offends⟩ := exists_offends_of_diagnosePath diagnosed
        obtain ⟨_, _, _, outcome⟩ := check_of_diagnosePath_some blank diagnosed
        rw [checked] at outcome
        split at outcome
        · cases outcome
          exact ⟨segment, unmoved, offends, List.mem_singleton.mp reported⟩
        · cases outcome

end TypeModel

end LensPath
