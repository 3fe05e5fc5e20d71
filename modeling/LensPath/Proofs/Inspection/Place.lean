import LensPath.Proofs.Inspection
import LensPath.Proofs.Path.Tiling
import LensPath.Proofs.Text.Bytes

/-!
The places of diagnostics. A diagnostic of a lens whose path stands in a host text covers the
segment there that it is about.
-/

namespace LensPath

structure Lens.Covers (lens : Lens) (host : String) (span : Span) (text : String) : Prop where
  start_ge : lens.offset ≤ span.start
  ordered : span.Ordered
  stop_le : span.stop ≤ lens.offset + lens.path.utf8ByteSize
  startBoundary : Text.Boundary host span.start
  stopBoundary : Text.Boundary host span.stop
  bytes : Text.bytes host span = text.toByteArray

variable {host : String}

theorem Lens.covers_segment {lens : Lens} (notBlank : ¬ Blank lens.path)
    (contains : Text.StandsAt host lens.offset lens.path) {segment : Segment}
    (kept : segment ∈ (Path.ofString lens.path).segments) :
    lens.Covers host (segment.span.translate lens.offset) segment.display := by
  have nonempty : lens.path ≠ "" := by
    intro none
    simp [none, Blank] at notBlank
  obtain ⟨left, right, surrounded, offset⟩ := contains.split nonempty
  obtain ⟨before, after, spelled, located⟩ := Path.covers_segment kept
  have whole : host = (left ++ before) ++ segment.display ++ (after ++ right) := by
    rw [surrounded, spelled]
    simp only [String.append_assoc]
  have moved : segment.span.translate lens.offset =
      ⟨(left ++ before).utf8ByteSize,
        (left ++ before).utf8ByteSize + segment.display.utf8ByteSize⟩ := by
    rw [located, ← offset]
    simp [Span.translate]
    omega
  have length := congrArg String.utf8ByteSize spelled
  simp only [String.utf8ByteSize_append] at length
  rw [moved]
  refine ⟨?_, Nat.le_add_right _ _, ?_, ?_, ?_, ?_⟩
  · simp only [String.utf8ByteSize_append]
    omega
  · simp only [String.utf8ByteSize_append]
    omega
  · rw [whole, String.append_assoc]
    exact Text.boundary_append (left ++ before) _
  · rw [whole, ← String.utf8ByteSize_append]
    exact Text.boundary_append (left ++ before ++ segment.display) _
  · rw [whole]
    exact (Text.standsAt_append (left ++ before) segment.display (after ++ right)).found

theorem Lens.fits_of_standsAt {lens : Lens} (notBlank : ¬ Blank lens.path)
    (size : host.utf8ByteSize < offsetBound)
    (contains : Text.StandsAt host lens.offset lens.path) : lens.Fits := by
  intro segment kept
  have stop_le := (covers_segment notBlank contains kept).stop_le
  exact Nat.lt_of_le_of_lt (Nat.le_trans stop_le contains.inside) size

namespace TypeModel

/-- A check of a lens that stands in a host text succeeds, and points at segments of the path. -/
theorem check_covers (model : TypeModel τ) (root : τ) (lens : Lens)
    (size : host.utf8ByteSize < offsetBound)
    (contains : Text.StandsAt host lens.offset lens.path) :
    ∃ diagnostics, model.check root lens = .ok diagnostics ∧
      ∀ diagnostic ∈ diagnostics, ∀ span ∈ diagnostic.span?,
        lens.Covers host span diagnostic.written := by
  by_cases blank : Blank lens.path
  · refine ⟨_, check_of_blank model root blank, ?_⟩
    intro diagnostic reported span located
    cases List.mem_singleton.mp reported
    cases located
  · refine ⟨_, check_of_not_blank model root blank
      (Lens.fits_of_standsAt blank size contains), ?_⟩
    intro diagnostic reported span located
    obtain ⟨found, diagnosed, rfl⟩ :=
      Option.map_eq_some_iff.mp (Option.mem_toList.mp reported)
    obtain ⟨segment, kept, isAbout⟩ := exists_segment_of_diagnosePath diagnosed
    rw [Diagnostic.translate_span?, isAbout.span] at located
    cases located
    rw [Diagnostic.translate_written, isAbout.written]
    exact Lens.covers_segment blank contains kept

theorem check_covers_unknown_property :
    (personTable.model.check "Person" ⟨"nom é", .read, 7⟩).toOption =
        some [.propertyNotFound "nom" ⟨7, 10⟩ "Person"] ∧
      Text.StandsAt "// ü: nom é;" 7 "nom é" ∧
      Lens.Covers ⟨"nom é", .read, 7⟩ "// ü: nom é;" ⟨7, 10⟩ "nom" := by
  have checked : (personTable.model.check "Person" ⟨"nom é", .read, 7⟩).toOption =
      some [.propertyNotFound "nom" ⟨7, 10⟩ "Person"] := by decide +kernel
  have contains : Text.StandsAt "// ü: nom é;" 7 "nom é" := by
    constructor <;> decide +kernel
  obtain ⟨diagnostics, reported, covers⟩ :=
    check_covers personTable.model "Person" ⟨"nom é", .read, 7⟩ (by decide +kernel) contains
  rw [reported] at checked
  cases checked
  exact ⟨by rw [reported]; rfl, contains, covers _ (List.mem_singleton.mpr rfl) _ rfl⟩

end TypeModel

end LensPath
