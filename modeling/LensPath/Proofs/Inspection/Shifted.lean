import LensPath.Proofs.Inspection

/-!
Checks at offsets of every size. What is wrong with a path is reported where its text stands, or
the check faults, because the span of the report ends behind the last offset.
-/

namespace LensPath

namespace Diagnostic

theorem shift_of_ge {diagnostic : Diagnostic} {span : Span} {offset : Nat}
    (spanned : diagnostic.span? = some span) (exceeds : offsetBound ≤ span.stop + offset) :
    diagnostic.shift offset = .error .sumOverflow := by
  cases diagnostic with
  | blankPath => cases spanned
  | propertyNotFound name other type | methodNotFound name other type
  | methodWritten name other =>
      cases spanned
      rw [shift, Span.shift_of_ge exceeds]
      rfl

@[simp] theorem translate_key (diagnostic : Diagnostic) (offset : Nat) :
    (diagnostic.translate offset).key = diagnostic.key := by
  cases diagnostic <;> rfl

def Fits (offset : Nat) (diagnostic : Diagnostic) : Prop :=
  ∀ span ∈ diagnostic.span?, span.stop + offset < offsetBound

instance (offset : Nat) : DecidablePred (Fits offset) := fun diagnostic =>
  inferInstanceAs (Decidable (∀ span ∈ diagnostic.span?, _))

variable {diagnostic : Diagnostic} {segment : Segment} {offset : Nat}

theorem not_fits_iff :
    ¬ diagnostic.Fits offset ↔
      ∃ span ∈ diagnostic.span?, offsetBound ≤ span.stop + offset := by
  simp only [Fits, Classical.not_forall, Nat.not_lt, exists_prop]

theorem shift_eq_ite (ordered : ∀ span ∈ diagnostic.span?, span.Ordered) (offset : Nat) :
    diagnostic.shift offset =
      if diagnostic.Fits offset then .ok (diagnostic.translate offset)
      else .error .sumOverflow := by
  split
  · next fits =>
      apply shift_eq_translate
      exact fun span located => ⟨ordered span located, fits span located⟩
  · next exceeds =>
      obtain ⟨span, located, exceeds⟩ := not_fits_iff.mp exceeds
      exact shift_of_ge located exceeds

theorem IsAbout.fits_iff (isAbout : diagnostic.IsAbout segment) :
    diagnostic.Fits offset ↔ segment.span.stop + offset < offsetBound := by
  simp [Fits, isAbout.span]

theorem IsAbout.shift (isAbout : diagnostic.IsAbout segment) (ordered : segment.span.Ordered)
    (offset : Nat) :
    diagnostic.shift offset =
      if segment.span.stop + offset < offsetBound then .ok (diagnostic.translate offset)
      else .error .sumOverflow := by
  have spanOrdered : ∀ span ∈ diagnostic.span?, span.Ordered := by
    intro span located
    cases isAbout.span.symm.trans located
    exact ordered
  simp only [shift_eq_ite spanOrdered, isAbout.fits_iff]

end Diagnostic

namespace TypeModel

variable {model : TypeModel τ} {root : τ} {lens : Lens}

theorem check_of_diagnosePath_none (notBlank : ¬ Blank lens.path)
    (clean : model.diagnosePath root lens.mode (Path.ofString lens.path) = none) :
    model.check root lens = .ok [] := by
  rw [check_eq, diagnose_of_not_blank model root notBlank, clean]
  rfl

theorem check_of_diagnosePath_some {diagnostic : Diagnostic} (notBlank : ¬ Blank lens.path)
    (found : model.diagnosePath root lens.mode (Path.ofString lens.path) = some diagnostic) :
    ∃ segment ∈ (Path.ofString lens.path).segments, diagnostic.IsAbout segment ∧
      model.check root lens =
        if segment.span.stop + lens.offset < offsetBound then
          .ok [diagnostic.translate lens.offset]
        else .error .sumOverflow := by
  obtain ⟨segment, kept, isAbout⟩ := exists_segment_of_diagnosePath found
  have ordered := (kept_ofString lens.path).ordered segment kept
  refine ⟨segment, kept, isAbout, ?_⟩
  rw [check_eq, diagnose_of_not_blank model root notBlank, found]
  simp only [isAbout.shift ordered lens.offset]
  split <;> rfl

theorem eq_sumOverflow_of_check {fault : Fault} (faulted : model.check root lens = .error fault) :
    fault = .sumOverflow := by
  by_cases blank : Blank lens.path
  · rw [check_of_blank model root blank] at faulted
    cases faulted
  · cases found : model.diagnosePath root lens.mode (Path.ofString lens.path) with
    | none =>
        rw [check_of_diagnosePath_none blank found] at faulted
        cases faulted
    | some diagnostic =>
        obtain ⟨segment, _, _, checked⟩ := check_of_diagnosePath_some blank found
        rw [checked] at faulted
        split at faulted <;> cases faulted
        rfl

end TypeModel

end LensPath
