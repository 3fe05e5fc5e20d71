import LensPath.Proofs.Inspection.Canonical
import LensPath.Proofs.Inspection.Shifted

/-!
Lenses that write. To write through a path is no different from reading through it, unless the path
was looked up to its last segment and that segment is a call.
-/

namespace LensPath

/-- A walk along a path came to no opaque type, or to none before the last segment. -/
def Resolved.ReachesEnd (result : Resolved τ) (path : Path) : Prop :=
  result.opaqueAt = none ∨ ∃ last, result.opaqueAt = some last ∧ last + 1 = path.length

theorem Path.writeViolation_eq_some_iff {path : Path} {resolution : Resolution τ}
    {mode : Lens.Mode} {violation : WriteViolation} :
    path.writeViolation resolution mode = some violation ↔
      mode = .write ∧ ∃ result segment, resolution = .resolved result ∧
        result.covers path = true ∧ path.last? = some segment ∧ segment.kind = .method ∧
        violation = ⟨path.length - 1, segment.name, segment.span⟩ := by
  constructor
  · intro violates
    cases mode with
    | read => cases violates
    | write =>
        cases resolution with
        | missing failure => cases violates
        | resolved result =>
            simp only [writeViolation] at violates
            split at violates
            · next covers =>
                split at violates
                · next segment last =>
                    split at violates <;> cases violates
                    next call => exact ⟨rfl, result, segment, rfl, covers, last, call, rfl⟩
                · cases violates
            · cases violates
  · rintro ⟨rfl, result, segment, rfl, covers, last, call, rfl⟩
    simp only [writeViolation, covers, if_true, last, call]

namespace TypeModel

variable {model : TypeModel τ} {root : τ} {path : Path} {segment : Segment}

theorem ResolvesTo.covers_iff_reachesEnd {result : Resolved τ}
    (resolves : model.ResolvesTo root path.segments result) :
    result.covers path = true ↔ result.ReachesEnd path := by
  rw [Resolved.covers, beq_iff_eq, Resolved.ReachesEnd]
  rcases resolves.ending with ⟨whole, clear, _⟩ | ⟨last, length, isOpaque, _, _⟩
  · exact iff_of_true whole (.inl clear)
  · -- There is a step for each segment up to the one at which the walk stopped.
    rw [length, isOpaque]
    simp

structure EndsInCall (model : TypeModel τ) (root : τ) (path : Path) (segment : Segment) :
    Prop where
  reached : ∃ result, model.resolve root path = .resolved result ∧ result.ReachesEnd path
  last : path.last? = some segment
  call : segment.kind = .method

theorem covers_iff_of_resolve {result : Resolved τ}
    (resolved : model.resolve root path = .resolved result) :
    result.covers path = true ↔ result.ReachesEnd path := by
  have answers := @resolve_answers _ model root path
  rw [resolved] at answers
  exact ResolvesTo.covers_iff_reachesEnd answers

theorem writeViolation_resolve_iff {mode : Lens.Mode} {violation : WriteViolation} :
    path.writeViolation (model.resolve root path) mode = some violation ↔
      mode = .write ∧ ∃ segment, model.EndsInCall root path segment ∧
        violation = ⟨path.length - 1, segment.name, segment.span⟩ := by
  rw [Path.writeViolation_eq_some_iff]
  refine and_congr_right fun _ => ?_
  constructor
  · rintro ⟨result, segment, resolved, covers, last, call, violates⟩
    have reached := (covers_iff_of_resolve resolved).mp covers
    exact ⟨segment, ⟨⟨result, resolved, reached⟩, last, call⟩, violates⟩
  · rintro ⟨segment, ⟨⟨result, resolved, reached⟩, last, call⟩, violates⟩
    have covers := (covers_iff_of_resolve resolved).mpr reached
    exact ⟨result, segment, resolved, covers, last, call, violates⟩

theorem diagnosePath_read_of_resolved {result : Resolved τ}
    (resolved : model.resolve root path = .resolved result) :
    model.diagnosePath root .read path = none := by
  simp only [diagnosePath, resolved]
  rfl

theorem EndsInCall.diagnosePath_read (ends : model.EndsInCall root path segment) :
    model.diagnosePath root .read path = none := by
  obtain ⟨result, resolved, _⟩ := ends.reached
  exact diagnosePath_read_of_resolved resolved

theorem EndsInCall.diagnosePath_write (ends : model.EndsInCall root path segment) :
    model.diagnosePath root .write path = some (.methodWritten segment.name segment.span) := by
  have violates := writeViolation_resolve_iff.mpr ⟨rfl, segment, ends, rfl⟩
  obtain ⟨result, resolved, _⟩ := ends.reached
  rw [resolved] at violates
  simp only [diagnosePath, resolved, violates, Option.map_some]

theorem diagnosePath_write_eq_read (others : ∀ segment, ¬ model.EndsInCall root path segment) :
    model.diagnosePath root .write path = model.diagnosePath root .read path := by
  cases resolved : model.resolve root path with
  | missing failure => simp only [diagnosePath, resolved]
  | resolved result =>
      rw [diagnosePath_read_of_resolved resolved]
      simp only [diagnosePath, resolved, Option.map_eq_none_iff]
      rw [← resolved, Option.eq_none_iff_forall_ne_some]
      intro violation violates
      obtain ⟨_, segment, ends, _⟩ := writeViolation_resolve_iff.mp violates
      exact others segment ends

theorem not_endsInCall_of_missing {failure : MissingMember τ}
    (missing : model.resolve root path = .missing failure) :
    ¬ model.EndsInCall root path segment := by
  rintro ⟨⟨result, resolved, _⟩, _, _⟩
  cases missing.symm.trans resolved

theorem EndsInCall.not_blank {text : String}
    (ends : model.EndsInCall root (Path.ofString text) segment) : ¬ Blank text := by
  apply Path.not_blank_of_kept
  have last := ends.last
  rw [Path.last?] at last
  exact List.isEmpty_eq_false_iff.mpr (List.ne_nil_of_mem (List.mem_of_getLast? last))

theorem EndsInCall.check_write {text : String}
    (ends : model.EndsInCall root (Path.ofString text) segment) (offset : Nat) :
    model.check root ⟨text, .write, offset⟩ =
      if segment.span.stop + offset < offsetBound then
        .ok [.methodWritten segment.name (segment.span.translate offset)]
      else .error .sumOverflow := by
  obtain ⟨other, _, isAbout, checked⟩ := @check_of_diagnosePath_some _ model root
    ⟨text, .write, offset⟩ _ ends.not_blank ends.diagnosePath_write
  have span : segment.span = other.span := Option.some.inj isAbout.span
  rw [← span] at checked
  exact checked

theorem EndsInCall.check_read {text : String}
    (ends : model.EndsInCall root (Path.ofString text) segment) (offset : Nat) :
    model.check root ⟨text, .read, offset⟩ = .ok [] :=
  @check_of_diagnosePath_none _ model root ⟨text, .read, offset⟩ ends.not_blank
    ends.diagnosePath_read

theorem check_write_eq_read {text : String}
    (others : ∀ segment, ¬ model.EndsInCall root (Path.ofString text) segment) (offset : Nat) :
    model.check root ⟨text, .write, offset⟩ = model.check root ⟨text, .read, offset⟩ := by
  rw [check_eq, check_eq]
  by_cases blank : Blank text
  · have isBlank := isBlank_eq_true_iff.mpr blank
    rw [diagnose, diagnose, if_pos isBlank, if_pos isBlank]
  · rw [@diagnose_of_not_blank _ model root ⟨text, .write, offset⟩ blank,
      @diagnose_of_not_blank _ model root ⟨text, .read, offset⟩ blank,
      diagnosePath_write_eq_read others]

/-- Whether a path may be written to is told by where its resolution stopped and by its last
segment. A check finds the same in both modes, but for a call at the end that was looked up: that
is nothing to one who reads and the one thing wrong to one who writes. -/
theorem check_modes (model : TypeModel τ) (root : τ) :
    (∀ path result, model.resolve root path = .resolved result →
      (result.covers path = true ↔ result.ReachesEnd path)) ∧
    (∀ path mode violation,
      path.writeViolation (model.resolve root path) mode = some violation ↔
        mode = .write ∧ ∃ segment, model.EndsInCall root path segment ∧
          violation = ⟨path.length - 1, segment.name, segment.span⟩) ∧
    ∀ text offset,
      (∀ segment, model.EndsInCall root (Path.ofString text) segment →
        model.check root ⟨text, .read, offset⟩ = .ok [] ∧
        model.check root ⟨text, .write, offset⟩ =
          if segment.span.stop + offset < offsetBound then
            .ok [.methodWritten segment.name (segment.span.translate offset)]
          else .error .sumOverflow) ∧
      ((∀ segment, ¬ model.EndsInCall root (Path.ofString text) segment) →
        model.check root ⟨text, .write, offset⟩ = model.check root ⟨text, .read, offset⟩) ∧
      ∀ failure, model.resolve root (Path.ofString text) = .missing failure →
        model.check root ⟨text, .write, offset⟩ = model.check root ⟨text, .read, offset⟩ := by
  refine ⟨fun _ _ => covers_iff_of_resolve, fun _ _ _ => writeViolation_resolve_iff, ?_⟩
  intro text offset
  refine ⟨fun segment ends => ⟨ends.check_read offset, ends.check_write offset⟩,
    fun others => check_write_eq_read others offset, ?_⟩
  intro failure missing
  exact check_write_eq_read (fun _ => not_endsInCall_of_missing missing) offset

theorem endsInCall_name : personTable.model.EndsInCall "Person" (Path.ofString "name()")
    ⟨.method, "name", ⟨0, 4⟩, ⟨0, 6⟩⟩ := by
  refine ⟨⟨⟨[⟨0, "String"⟩], some 0⟩, ?_, .inr ⟨0, rfl, ?_⟩⟩, ?_, rfl⟩ <;> decide +kernel

/-- The call is of an opaque type, which the walk comes to only where the path ends. -/
theorem check_modes_name :
    personTable.model.resolve "Person" (Path.ofString "name()") =
        .resolved ⟨[⟨0, "String"⟩], some 0⟩ ∧
      Resolved.covers (⟨[⟨0, "String"⟩], some 0⟩ : Resolved String)
        (Path.ofString "name()") = true ∧
      (Path.ofString "name()").writeViolation (.resolved ⟨[⟨0, "String"⟩], some 0⟩) .write =
        some ⟨0, "name", ⟨0, 6⟩⟩ ∧
      personTable.model.check "Person" ⟨"name()", .read, 3⟩ = .ok [] ∧
      personTable.model.check "Person" ⟨"name()", .write, 3⟩ =
        .ok [.methodWritten "name" ⟨3, 9⟩] := by
  have resolved : personTable.model.resolve "Person" (Path.ofString "name()") =
      .resolved ⟨[⟨0, "String"⟩], some 0⟩ := by decide +kernel
  have length : (Path.ofString "name()").length = 1 := by decide +kernel
  obtain ⟨covers, violates, checked⟩ := check_modes personTable.model "Person"
  obtain ⟨read, written⟩ := (checked "name()" 3).1 _ endsInCall_name
  refine ⟨resolved, (covers _ _ resolved).mpr (.inr ⟨0, rfl, length.symm⟩), ?_, read, written⟩
  rw [← resolved]
  exact (violates _ _ _).mpr ⟨rfl, _, endsInCall_name, by rw [length]⟩

/-- Where the call ends behind the last offset there is no place to report it at. -/
theorem check_modes_overflow :
    personTable.model.EndsInCall "Person" (Path.ofString "name()")
        ⟨.method, "name", ⟨0, 4⟩, ⟨0, 6⟩⟩ ∧
      personTable.model.check "Person" ⟨"name()", .read, offsetBound - 6⟩ = .ok [] ∧
      ¬ ∃ span, personTable.model.check "Person" ⟨"name()", .write, offsetBound - 6⟩ =
        .ok [.methodWritten "name" span] := by
  refine ⟨endsInCall_name, endsInCall_name.check_read _, ?_⟩
  rintro ⟨span, reported⟩
  have faulted := endsInCall_name.check_write (offsetBound - 6)
  rw [if_neg (by decide)] at faulted
  cases faulted.symm.trans reported

end TypeModel

end LensPath
