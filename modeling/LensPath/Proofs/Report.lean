import LensPath.Proofs.Highlight.Shifted
import LensPath.Proofs.Highlight.Tokens
import LensPath.Proofs.Inspection.Offence
import LensPath.Proofs.Reading.Blame
import LensPath.Proofs.Text.Bytes
import LensPath.Report

/-!
The ranges of reports. A report about a lens points at the segment in the text of the path, and one
about a text at what is at fault in it; nothing is ever cut off or left at zero to get there.
-/

namespace LensPath

namespace Text

def AsciiUpTo (source : String) (offset : Nat) : Prop :=
  ∃ before after, source = before ++ after ∧ before.utf8ByteSize = offset ∧
    ∀ c ∈ before.toList, c.toNat < 128

theorem utf8Size_of_ascii {c : Char} (ascii : c.toNat < 128) : c.utf8Size = 1 := by
  rw [Char.utf8Size_eq_one_iff, UInt32.le_iff_toNat_le]
  exact Nat.le_of_lt_succ ascii

theorem byteLength_of_ascii {text : List Char} (ascii : ∀ c ∈ text, c.toNat < 128) :
    byteLength text = text.length := by
  induction text with
  | nil => rfl
  | cons c rest induction =>
      obtain ⟨first, later⟩ := List.forall_mem_cons.mp ascii
      rw [byteLength_cons, utf8Size_of_ascii first, induction later, List.length_cons, Nat.add_comm]

theorem length_of_ascii {text : String} (ascii : ∀ c ∈ text.toList, c.toNat < 128) :
    text.toList.length = text.utf8ByteSize := by
  rw [← byteLength_of_ascii ascii, byteLength_toList]

variable {source piece : String} {span : Span} {offset : Nat}

theorem AsciiUpTo.mono (ascii : AsciiUpTo source offset) {less : Nat} (le : less ≤ offset) :
    AsciiUpTo source less := by
  obtain ⟨before, after, rfl, rfl, ascii⟩ := ascii
  have head : ∀ c ∈ before.toList.take less, c.toNat < 128 :=
    fun c found => ascii c (List.mem_of_mem_take found)
  refine ⟨String.ofList (before.toList.take less),
    String.ofList (before.toList.drop less) ++ after, ?_, ?_, ?_⟩
  · rw [← String.append_assoc, ← String.ofList_append, List.take_append_drop, String.ofList_toList]
  · rw [byteLength_ofList, byteLength_of_ascii head, List.length_take, length_of_ascii ascii,
      Nat.min_eq_left le]
  · rwa [String.toList_ofList]

theorem AsciiUpTo.byteLength_take (ascii : AsciiUpTo source offset) :
    byteLength (source.toList.take offset) = offset := by
  obtain ⟨before, after, rfl, rfl, ascii⟩ := ascii
  rw [String.toList_append, List.take_left' (length_of_ascii ascii), byteLength_toList]

theorem Covers.boundaries (covers : Covers source span piece) :
    Boundary source span.start ∧ Boundary source span.stop := by
  obtain ⟨before, after, rfl, rfl⟩ := covers
  refine ⟨?_, boundary_append (before ++ piece) after⟩
  rw [String.append_assoc]
  exact boundary_append before (piece ++ after)

end Text

theorem NameChar.ascii {c : Char} (nameChar : NameChar c) : c.toNat < 128 := by
  have le_of_le {last : Char} (le : c ≤ last) : c.toNat ≤ last.toNat := le
  rcases nameChar with (⟨_, le⟩ | ⟨_, le⟩ | rfl) | ⟨_, le⟩
  · exact Nat.lt_of_le_of_lt (le_of_le le) (by decide)
  · exact Nat.lt_of_le_of_lt (le_of_le le) (by decide)
  · decide
  · exact Nat.lt_of_le_of_lt (le_of_le le) (by decide)

namespace Member

theorem Named.ascii {member : Member} (named : member.Named) :
    ∀ c ∈ member.text, c.toNat < 128 := by
  intro c found
  rcases List.mem_append.mp found with found | found
  · exact (IsName.nameChar named c found).ascii
  · cases kind : member.kind with
    | property =>
        rw [kind] at found
        cases found
    | method =>
        rw [kind, MemberKind.mark, List.mem_cons, List.mem_singleton] at found
        rcases found with rfl | rfl <;> decide

theorem ascii_render {members : List Member} (named : ∀ member ∈ members, member.Named) :
    ∀ c ∈ (render members).toList, c.toNat < 128 := by
  induction members with
  | nil => exact nofun
  | cons member members induction =>
      obtain ⟨first, later⟩ := List.forall_mem_cons.mp named
      by_cases none : members = []
      · rw [none, render_singleton, toList_display]
        exact first.ascii
      · intro c found
        simp only [render_cons none, String.toList_append, toList_display, List.mem_append] at found
        rcases found with (found | found) | found
        · exact first.ascii c found
        · cases List.mem_singleton.mp found
          decide
        · exact induction later c found

end Member

theorem Path.asciiUpTo_ofString (source : String) :
    Text.AsciiUpTo source (ofString source).display.utf8ByteSize := by
  obtain ⟨named, rest, spelled⟩ := exists_named_ofString source
  rw [display_eq_render]
  exact ⟨_, rest, spelled, rfl, Member.ascii_render named⟩

theorem Reading.covers_problem {source : String} {problem : Problem}
    (found : (ofString source).problem = some problem) :
    ∃ culprit, Text.Covers source problem.span culprit := by
  rcases (reads_ofString source).problem with ⟨none, _⟩ | ⟨settled, rest, stage, spelled, _, _, here⟩
  · cases found.symm.trans none
  · cases found.symm.trans here
    obtain ⟨culprit, after, rfl, _, span, _⟩ :=
      Problem.atHead_blames stage.expected (0 + Text.byteLength settled) rest
    refine ⟨String.ofList culprit, String.ofList settled, String.ofList after, ?_, ?_⟩
    · rw [← String.toList_inj, spelled]
      simp
    · rw [span]
      simp [Text.byteLength_ofList]

namespace Report

theorem clamp_of_covers {source piece : String} {span : Span}
    (covers : Text.Covers source span piece) : clamp span source = span := by
  rw [clamp, Nat.min_eq_left covers.stop_le, Nat.min_eq_left covers.ordered]

theorem unmoved_translate (span : Span) (offset : Nat) :
    (⟨(span.translate offset).start - offset, (span.translate offset).stop - offset⟩ : Span) =
      span := by
  simp only [Span.translate, Nat.add_sub_cancel]

/-- A report takes a span in the text around a lens back to a segment of the path. Both ends lose
the whole offset, the text does not cut the range off, and up to its end bytes are characters. -/
structure Recovers (lens : Lens) (diagnostic : Diagnostic) (span : Span) (segment : Segment) :
    Prop where
  start_ge : lens.offset ≤ span.start
  stop_ge : lens.offset ≤ span.stop
  inside : clamp ⟨span.start - lens.offset, span.stop - lens.offset⟩ lens.path =
    ⟨span.start - lens.offset, span.stop - lens.offset⟩
  range : ∀ title, (ofDiagnostic title lens.path lens.offset diagnostic).range = segment.span
  shown : Text.slice? lens.path segment.span = some segment.display
  ascii : Text.AsciiUpTo lens.path segment.span.stop
  places : ∀ count ≤ segment.span.stop, Text.byteLength (lens.path.toList.take count) = count

theorem recovers_translate {lens : Lens} {diagnostic : Diagnostic} {segment : Segment}
    (kept : segment ∈ (Path.ofString lens.path).segments)
    (spanned : diagnostic.span? = some segment.span) :
    Recovers lens (diagnostic.translate lens.offset) (segment.span.translate lens.offset)
      segment := by
  have covers := Path.covers_segment kept
  have ascii := (Path.asciiUpTo_ofString lens.path).mono (Path.stop_le_of_mem_ofString kept)
  refine ⟨Nat.le_add_left _ _, Nat.le_add_left _ _, ?_, fun title => ?_, covers.slice?_eq, ascii,
    fun count le => (ascii.mono le).byteLength_take⟩
  · rw [unmoved_translate, clamp_of_covers covers]
  · change rangeOf (diagnostic.translate lens.offset) lens.path lens.offset = segment.span
    simp only [rangeOf, Diagnostic.translate_span?, spanned, Option.map_some]
    rw [unmoved_translate, clamp_of_covers covers]

/-- Ranges are where something was found: in the path of a lens, wherever its text stands, and in
a text that is not all of a path. -/
theorem range_exact (model : TypeModel τ) (root : τ) :
    (∀ lens found, model.check root lens = .ok found → ∀ diagnostic ∈ found,
      ∀ span ∈ diagnostic.span?, ∃ segment unmoved,
        model.Offends root (Path.ofString lens.path).segments lens.mode segment unmoved ∧
        diagnostic = unmoved.translate lens.offset ∧ Recovers lens diagnostic span segment) ∧
    ∀ source problem, (Reading.ofString source).problem = some problem →
      clamp problem.span source = problem.span ∧
      (∀ title kept, (ofProblem title source kept problem).range = problem.span) ∧
      Text.Boundary source problem.span.start ∧ Text.Boundary source problem.span.stop := by
  constructor
  · intro lens found checked diagnostic reported span located
    rcases TypeModel.exists_of_mem_check checked reported with
      ⟨_, blank⟩ | ⟨segment, unmoved, offends, moved⟩
    · cases blank
      cases located
    · refine ⟨segment, unmoved, offends, moved, ?_⟩
      rw [moved, Diagnostic.translate_span?, offends.span] at located
      cases located
      rw [moved]
      exact recovers_translate offends.mem offends.span
  · intro source problem found
    obtain ⟨culprit, covers⟩ := Reading.covers_problem found
    exact ⟨clamp_of_covers covers, fun _ _ => clamp_of_covers covers, covers.boundaries⟩

/-- A call with a letter dropped behind it, at the last offset with room for it, and a letter in
the place of a `)`. -/
theorem range_exact_name :
    (TypeModel.personTable.model.check "Person" ⟨"name().é", .write, offsetBound - 7⟩ =
        .ok [.methodWritten "name" ⟨offsetBound - 7, offsetBound - 1⟩] ∧
      ∃ segment, segment.span = ⟨0, 6⟩ ∧ Recovers ⟨"name().é", .write, offsetBound - 7⟩
        (.methodWritten "name" ⟨offsetBound - 7, offsetBound - 1⟩)
        ⟨offsetBound - 7, offsetBound - 1⟩ segment) ∧
    (Reading.ofString "ab(é").problem = some (.stray ⟨'é', 3⟩) ∧
      clamp ⟨3, 5⟩ "ab(é" = ⟨3, 5⟩ ∧ Text.Boundary "ab(é" 3 ∧ Text.Boundary "ab(é" 5 := by
  obtain ⟨reported, read⟩ := range_exact TypeModel.personTable.model "Person"
  have checked : TypeModel.personTable.model.check "Person" ⟨"name().é", .write, offsetBound - 7⟩ =
      .ok [.methodWritten "name" ⟨offsetBound - 7, offsetBound - 1⟩] :=
    eq_ok_of_toOption (by decide +kernel)
  have problem : (Reading.ofString "ab(é").problem = some (.stray ⟨'é', 3⟩) := by decide +kernel
  obtain ⟨unclamped, _, boundaries⟩ := read "ab(é" _ problem
  obtain ⟨segment, _, _, _, recovers⟩ := reported _ _ checked _ (List.mem_singleton_self _) _ rfl
  have range : segment.span = ⟨0, 6⟩ := by
    rw [← recovers.range ""]
    decide +kernel
  exact ⟨⟨checked, segment, range, recovers⟩, problem, unclamped, boundaries⟩

end Report

end LensPath
