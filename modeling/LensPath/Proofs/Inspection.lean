import LensPath.Inspection
import LensPath.Proofs.Reading.Longest
import LensPath.Proofs.Resolution
import LensPath.TypeModel.Table

/-!
Verdicts on lenses. A blank path comes before a missing member, and a missing member before a
method call in the place that a lens writes to; nothing else is ever reported.
-/

namespace LensPath

theorem eq_ok_of_toOption {outcome : Except ε α} {value : α}
    (found : outcome.toOption = some value) : outcome = .ok value := by
  cases outcome with
  | error => cases found
  | ok other =>
      cases found
      rfl

/-- The code points with the property White_Space. -/
def whiteSpace : List Nat := [
  0x9, 0xA, 0xB, 0xC, 0xD, 0x20, 0x85, 0xA0, 0x1680, 0x2000, 0x2001, 0x2002, 0x2003, 0x2004,
  0x2005, 0x2006, 0x2007, 0x2008, 0x2009, 0x200A, 0x2028, 0x2029, 0x202F, 0x205F, 0x3000]

def Blank (text : String) : Prop := ∀ c ∈ text.toList, c.toNat ∈ whiteSpace

theorem isBlankChar_iff {c : Char} : Text.isBlankChar c = true ↔ c.toNat ∈ whiteSpace := by
  simp only [Text.isBlankChar, Text.Ranges.contain, Text.blankRanges, List.any_cons,
    List.any_nil, Bool.or_eq_true, Bool.and_eq_true, decide_eq_true_eq, whiteSpace,
    List.mem_cons, List.not_mem_nil, Bool.false_eq_true, or_false]
  omega

theorem isBlank_eq_true_iff {text : String} : Text.isBlank text = true ↔ Blank text := by
  simp only [Text.isBlank_iff, isBlankChar_iff, Blank]

instance (text : String) : Decidable (Blank text) :=
  decidable_of_iff (Text.isBlank text = true) isBlank_eq_true_iff

namespace Diagnostic

def translate (offset : Nat) : Diagnostic → Diagnostic
  | blankPath => blankPath
  | propertyNotFound name span type => propertyNotFound name (span.translate offset) type
  | methodNotFound name span type => methodNotFound name (span.translate offset) type
  | methodWritten name span => methodWritten name (span.translate offset)

theorem shift_eq_translate {diagnostic : Diagnostic} {offset : Nat}
    (fits : ∀ span ∈ diagnostic.span?, span.Ordered ∧ span.stop + offset < offsetBound) :
    diagnostic.shift offset = .ok (diagnostic.translate offset) := by
  cases diagnostic with
  | blankPath => rfl
  | propertyNotFound name span type | methodNotFound name span type | methodWritten name span =>
      obtain ⟨ordered, bound⟩ := fits span rfl
      rw [shift, Span.shift_eq_translate ordered bound]
      rfl

@[simp] theorem translate_span? (diagnostic : Diagnostic) (offset : Nat) :
    (diagnostic.translate offset).span? = diagnostic.span?.map (·.translate offset) := by
  cases diagnostic <;> rfl

def written : Diagnostic → String
  | blankPath => ""
  | propertyNotFound name _ _ => name
  | methodNotFound name _ _ | methodWritten name _ => name ++ "()"

@[simp] theorem translate_written (diagnostic : Diagnostic) (offset : Nat) :
    (diagnostic.translate offset).written = diagnostic.written := by
  cases diagnostic <;> rfl

structure IsAbout (diagnostic : Diagnostic) (segment : Segment) : Prop where
  span : diagnostic.span? = some segment.span
  written : diagnostic.written = segment.display

end Diagnostic

/-- The spans of the segments of a lens can be moved to where its text stands. -/
def Lens.Fits (lens : Lens) : Prop :=
  ∀ segment ∈ (Path.ofString lens.path).segments, segment.span.stop + lens.offset < offsetBound

instance (lens : Lens) : Decidable lens.Fits :=
  inferInstanceAs (Decidable (∀ segment ∈ (Path.ofString lens.path).segments, _))

theorem Sink.run_report_ofExcept (sink : Sink σ) (found : Except Fault Diagnostic) (state : σ) :
    (MonadExcept.ofExcept found >>= sink.report).run state =
      match found with
      | .ok diagnostic => .ok () (sink diagnostic state)
      | .error fault => .error fault state := by
  cases found <;> rfl

-- The other way round the sink would have the report: a fault takes nothing back.
example (sink : Sink σ) (diagnostic : Diagnostic) (fault : Fault) (state : σ) :
    (sink.report diagnostic >>= fun _ => (throw fault : EStateM Fault σ Unit)).run state =
      .error fault (sink diagnostic state) := rfl

namespace TypeModel

def diagnose (model : TypeModel τ) (root : τ) (lens : Lens) : Except Fault (Option Diagnostic) :=
  if Text.isBlank lens.path then .ok (some .blankPath)
  else
    let path := Path.ofString lens.path
    if path.isEmpty then .ok none
    else
      match model.diagnosePath root lens.mode path with
      | some diagnostic => some <$> diagnostic.shift lens.offset
      | none => .ok none

/-- A diagnostic is reported once all of it is known, so that a fault finds the sink as it was. -/
theorem run_checkInto (model : TypeModel τ) (root : τ) (sink : Sink σ) (lens : Lens) (state : σ) :
    (model.checkInto root sink lens).run state =
      match model.diagnose root lens with
      | .ok found => .ok () (found.elim state (sink · state))
      | .error fault => .error fault state := by
  rw [checkInto, diagnose]
  by_cases blank : Text.isBlank lens.path = true
  · rw [if_pos blank, if_pos blank]
    rfl
  · rw [if_neg blank, if_neg blank]
    by_cases isEmpty : (Path.ofString lens.path).isEmpty = true
    · rw [if_pos isEmpty, if_pos isEmpty]
      rfl
    · rw [if_neg isEmpty, if_neg isEmpty]
      cases model.diagnosePath root lens.mode (Path.ofString lens.path) with
      | none => rfl
      | some diagnostic =>
          change (MonadExcept.ofExcept (diagnostic.shift lens.offset) >>= sink.report).run state = _
          rw [Sink.run_report_ofExcept]
          dsimp only
          cases diagnostic.shift lens.offset <;> rfl

theorem check_eq (model : TypeModel τ) (root : τ) (lens : Lens) :
    model.check root lens = Option.toList <$> model.diagnose root lens := by
  rw [check, run_checkInto]
  cases model.diagnose root lens with
  | error fault => rfl
  | ok found => cases found <;> rfl

theorem check_of_blank (model : TypeModel τ) (root : τ) {lens : Lens} (blank : Blank lens.path) :
    model.check root lens = .ok [.blankPath] := by
  rw [check_eq, diagnose, if_pos (isBlank_eq_true_iff.mpr blank)]
  rfl

theorem missingDiagnostic_isAbout (model : TypeModel τ) (failure : MissingMember τ) :
    (model.missingDiagnostic failure).IsAbout failure.segment := by
  cases kind : failure.segment.kind with
  | property | method =>
      constructor <;> simp only [missingDiagnostic, kind, Diagnostic.span?, Diagnostic.written,
        Segment.display]

variable {model : TypeModel τ} {root : τ} {path : Path} {mode : Lens.Mode}

theorem diagnosePath_of_failsAt {failure : MissingMember τ}
    (fails : model.FailsAt root path.segments failure) :
    model.diagnosePath root mode path = some (model.missingDiagnostic failure) := by
  have resolved : model.resolve root path = .missing failure :=
    (resolve_answers path).unique fails
  simp only [diagnosePath, resolved]

theorem resolve_of_not_failsAt (whole : ∀ failure, ¬ model.FailsAt root path.segments failure) :
    ∃ result, model.resolve root path = .resolved result ∧
      model.ResolvesTo root path.segments result := by
  have answers := @resolve_answers _ model root path
  cases resolved : model.resolve root path with
  | missing failure =>
      rw [resolved] at answers
      exact absurd answers (whole failure)
  | resolved result =>
      rw [resolved] at answers
      exact ⟨result, rfl, answers⟩

theorem diagnosePath_of_writesCall {segment : Segment}
    (whole : ∀ failure, ¬ model.FailsAt root path.segments failure)
    (writes : model.WritesCall root path.segments mode segment) :
    model.diagnosePath root mode path = some (.methodWritten segment.name segment.span) := by
  obtain ⟨result, resolved, resolves⟩ := resolve_of_not_failsAt whole
  simp only [diagnosePath, resolved, resolves.writeViolation_of_writesCall writes,
    Option.map_some]

theorem diagnosePath_eq_none (whole : ∀ failure, ¬ model.FailsAt root path.segments failure)
    (clean : ∀ segment, ¬ model.WritesCall root path.segments mode segment) :
    model.diagnosePath root mode path = none := by
  obtain ⟨result, resolved, resolves⟩ := resolve_of_not_failsAt whole
  simp only [diagnosePath, resolved, Option.map_eq_none_iff]
  refine Option.eq_none_iff_forall_not_mem.mpr fun violation violates => ?_
  obtain ⟨segment, writes⟩ := resolves.writesCall_of_writeViolation violates
  exact clean segment writes

theorem diagnosePath_cases (model : TypeModel τ) (root : τ) (mode : Lens.Mode) (path : Path) :
    (∃ failure, model.FailsAt root path.segments failure ∧
      model.diagnosePath root mode path = some (model.missingDiagnostic failure)) ∨
    (∃ segment, model.WritesCall root path.segments mode segment ∧
      model.diagnosePath root mode path = some (.methodWritten segment.name segment.span)) ∨
    model.diagnosePath root mode path = none := by
  by_cases fails : ∃ failure, model.FailsAt root path.segments failure
  · obtain ⟨failure, fails⟩ := fails
    exact .inl ⟨failure, fails, diagnosePath_of_failsAt fails⟩
  · have whole := not_exists.mp fails
    by_cases writes : ∃ segment, model.WritesCall root path.segments mode segment
    · obtain ⟨segment, writes⟩ := writes
      exact .inr (.inl ⟨segment, writes, diagnosePath_of_writesCall whole writes⟩)
    · exact .inr (.inr (diagnosePath_eq_none whole (not_exists.mp writes)))

theorem exists_segment_of_diagnosePath {diagnostic : Diagnostic}
    (found : model.diagnosePath root mode path = some diagnostic) :
    ∃ segment ∈ path.segments, diagnostic.IsAbout segment := by
  rcases model.diagnosePath_cases root mode path with
    ⟨failure, fails, missing⟩ | ⟨segment, writes, written⟩ | none
  · cases missing.symm.trans found
    exact ⟨failure.segment, List.mem_of_getElem? fails.segment,
      model.missingDiagnostic_isAbout failure⟩
  · cases written.symm.trans found
    refine ⟨segment, List.mem_of_getLast? writes.last, rfl, ?_⟩
    simp only [Diagnostic.written, Segment.display, writes.call]
  · cases none.symm.trans found

theorem diagnosePath_empty (model : TypeModel τ) (root : τ) (mode : Lens.Mode) :
    model.diagnosePath root mode .empty = none := by
  apply diagnosePath_eq_none
  · rintro failure ⟨found, _, _, _⟩
    cases found
  · rintro segment ⟨_, last, _, _⟩
    cases last

/-- Nothing is wrong with an empty path, so it needs no case of its own. -/
theorem diagnose_of_not_blank (model : TypeModel τ) (root : τ) {lens : Lens}
    (notBlank : ¬ Blank lens.path) :
    model.diagnose root lens =
      match model.diagnosePath root lens.mode (Path.ofString lens.path) with
      | some diagnostic => some <$> diagnostic.shift lens.offset
      | none => .ok none := by
  rw [diagnose, if_neg (mt isBlank_eq_true_iff.mp notBlank)]
  by_cases isEmpty : (Path.ofString lens.path).isEmpty = true
  · rw [Path.eq_empty (List.isEmpty_iff.mp isEmpty), diagnosePath_empty]
    rfl
  · exact if_neg isEmpty

theorem check_of_not_blank (model : TypeModel τ) (root : τ) {lens : Lens}
    (notBlank : ¬ Blank lens.path) (fits : lens.Fits) :
    model.check root lens =
      .ok ((model.diagnosePath root lens.mode (Path.ofString lens.path)).map
        (Diagnostic.translate lens.offset)).toList := by
  rw [check_eq, diagnose_of_not_blank model root notBlank]
  cases found : model.diagnosePath root lens.mode (Path.ofString lens.path) with
  | none => rfl
  | some diagnostic =>
      have moved : diagnostic.shift lens.offset = .ok (diagnostic.translate lens.offset) := by
        apply Diagnostic.shift_eq_translate
        obtain ⟨segment, kept, isAbout⟩ := exists_segment_of_diagnosePath found
        rw [isAbout.span]
        rintro span ⟨⟩
        exact ⟨(kept_ofString lens.path).ordered segment kept, fits segment kept⟩
      simp only [moved]
      rfl

/-- What the text, the segments and the mode of a lens say about its diagnostics. The cases
exclude each other, and together they are all that there are. -/
structure Verdict (model : TypeModel τ) (root : τ) (lens : Lens) (segments : List Segment)
    (diagnostics : List Diagnostic) : Prop where
  atMostOne : diagnostics.length ≤ 1
  blank : diagnostics = [.blankPath] ↔ Blank lens.path
  missingProperty : ¬ Blank lens.path → ∀ failure, model.FailsAt root segments failure →
    failure.segment.kind = .property → diagnostics =
      [.propertyNotFound failure.segment.name (failure.segment.span.translate lens.offset)
        (model.presentableName failure.lookedUpOn)]
  missingMethod : ¬ Blank lens.path → ∀ failure, model.FailsAt root segments failure →
    failure.segment.kind = .method → diagnostics =
      [.methodNotFound failure.segment.name (failure.segment.span.translate lens.offset)
        (model.presentableName failure.lookedUpOn)]
  written : ¬ Blank lens.path → (∀ failure, ¬ model.FailsAt root segments failure) →
    ∀ segment, model.WritesCall root segments lens.mode segment → diagnostics =
      [.methodWritten segment.name (segment.span.translate lens.offset)]
  clean : ¬ Blank lens.path → (∀ failure, ¬ model.FailsAt root segments failure) →
    (∀ segment, ¬ model.WritesCall root segments lens.mode segment) → diagnostics = []

theorem diagnosePath_ne_blankPath (model : TypeModel τ) (root : τ) (mode : Lens.Mode)
    (path : Path) (offset : Nat) :
    (model.diagnosePath root mode path).map (Diagnostic.translate offset) ≠ some .blankPath := by
  intro reported
  obtain ⟨diagnostic, found, moved⟩ := Option.map_eq_some_iff.mp reported
  obtain ⟨segment, _, isAbout⟩ := exists_segment_of_diagnosePath found
  have spans := congrArg Diagnostic.span? moved
  rw [Diagnostic.translate_span?, isAbout.span] at spans
  cases spans

theorem verdict_of_not_blank {lens : Lens} (notBlank : ¬ Blank lens.path) :
    model.Verdict root lens path.segments
      ((model.diagnosePath root lens.mode path).map
        (Diagnostic.translate lens.offset)).toList := by
  refine ⟨Option.length_toList_le, ?_, ?_, ?_, ?_, ?_⟩
  · refine iff_of_false ?_ notBlank
    intro reported
    exact diagnosePath_ne_blankPath _ _ _ _ _ (Option.toList_eq_singleton_iff.mp reported)
  · intro _ failure fails kind
    rw [diagnosePath_of_failsAt fails, missingDiagnostic]
    simp only [kind]
    rfl
  · intro _ failure fails kind
    rw [diagnosePath_of_failsAt fails, missingDiagnostic]
    simp only [kind]
    rfl
  · intro _ whole segment writes
    rw [diagnosePath_of_writesCall whole writes]
    rfl
  · intro _ whole clean
    rw [diagnosePath_eq_none whole clean]
    rfl

theorem verdict_of_blank {lens : Lens} {segments : List Segment} (blank : Blank lens.path) :
    model.Verdict root lens segments [.blankPath] := by
  refine ⟨Nat.le_refl 1, iff_of_true rfl blank, ?_, ?_, ?_, ?_⟩ <;>
    exact fun notBlank => absurd blank notBlank

/-- A check yields the verdict on the segments that are kept of the text. -/
theorem check_verdict (model : TypeModel τ) (root : τ) (lens : Lens) (fits : lens.Fits) :
    Kept lens.path.toList (Path.ofString lens.path).segments ∧
      ∃ diagnostics, model.check root lens = .ok diagnostics ∧
        model.Verdict root lens (Path.ofString lens.path).segments diagnostics := by
  refine ⟨kept_ofString lens.path, ?_⟩
  by_cases blank : Blank lens.path
  · exact ⟨_, check_of_blank model root blank, verdict_of_blank blank⟩
  · exact ⟨_, check_of_not_blank model root blank fits, verdict_of_not_blank blank⟩

def personTable : TypeTable :=
  .ofList [("Person", { methods := [{ name := "name", returns := "String" }] })]

theorem check_verdict_written :
    (personTable.model.check "Person" ⟨"name().", .write, 3⟩).toOption =
        some [.methodWritten "name" ⟨3, 9⟩] ∧
      personTable.model.Verdict "Person" ⟨"name().", .write, 3⟩
        (Path.ofString "name().").segments [.methodWritten "name" ⟨3, 9⟩] := by
  have checked : (personTable.model.check "Person" ⟨"name().", .write, 3⟩).toOption =
      some [.methodWritten "name" ⟨3, 9⟩] := by decide +kernel
  obtain ⟨_, diagnostics, reported, verdict⟩ :=
    check_verdict personTable.model "Person" ⟨"name().", .write, 3⟩ (by decide +kernel)
  rw [reported] at checked
  cases checked
  exact ⟨by rw [reported]; rfl, verdict⟩

end TypeModel

end LensPath
