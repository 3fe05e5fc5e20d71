import LensPath.Highlight
import LensPath.Proofs.Inspection
import LensPath.Proofs.Path.Tiling

/-!
Highlights as a list that the parts of a path give one after the other. The marks are this list
moved to where the text stands, if each of its spans can be moved there.
-/

namespace LensPath

namespace Highlight

def translate (offset : Nat) (highlight : Highlight) : Highlight :=
  ⟨highlight.kind, highlight.span.translate offset⟩

structure Fits (offset : Nat) (highlight : Highlight) : Prop where
  ordered : highlight.span.Ordered
  bound : highlight.span.stop + offset < offsetBound

theorem mark_of_fits {offset : Nat} {highlight : Highlight} (fits : highlight.Fits offset)
    (earlier : List Highlight) :
    mark offset highlight.kind (.ok highlight.span) (.ok earlier) =
      .proceed (.ok (highlight.translate offset :: earlier)) := by
  have moved := Span.shift_eq_translate fits.ordered fits.bound
  simp only [mark, bind, Except.bind, moved]
  rfl

end Highlight

def Segment.highlights (segment : Segment) : List Highlight :=
  match segment.kind with
  | .property => [⟨.field, segment.nameSpan⟩]
  | .method =>
      [⟨.method, segment.nameSpan⟩, ⟨.call, ⟨segment.nameSpan.stop, segment.span.stop⟩⟩]

def Part.highlights : Part → List Highlight
  | segment found => found.highlights
  | separator span => [⟨.dot, span⟩]

namespace Highlight

variable {offset : Nat}

theorem marker_segment {segment : Segment}
    (fits : ∀ highlight ∈ segment.highlights, highlight.Fits offset) (earlier : List Highlight) :
    (marker offset).segment segment (.ok earlier) =
      .proceed (.ok ((segment.highlights.map (translate offset)).reverse ++ earlier)) := by
  unfold Segment.highlights at fits ⊢
  rw [Visitor.segment]
  cases kind : segment.kind with
  | property =>
      simp only [kind] at fits
      exact mark_of_fits (fits _ (List.mem_singleton_self _)) earlier
  | method =>
      simp only [kind] at fits
      obtain ⟨name, later⟩ := List.forall_mem_cons.mp fits
      have call := later _ (List.mem_singleton_self _)
      have made : segment.callSpan = .ok ⟨segment.nameSpan.stop, segment.span.stop⟩ :=
        Span.make_of_le call.ordered
      change (mark offset .method (.ok segment.nameSpan) (.ok earlier)).andThen
        (mark offset .call segment.callSpan) = _
      rw [made, mark_of_fits name, Flow.proceed_andThen]
      exact mark_of_fits call _

theorem marker_part {part : Part} (fits : ∀ highlight ∈ part.highlights, highlight.Fits offset)
    (earlier : List Highlight) :
    (marker offset).part part (.ok earlier) =
      .proceed (.ok ((part.highlights.map (translate offset)).reverse ++ earlier)) := by
  cases part with
  | segment segment => exact marker_segment fits earlier
  | separator span =>
      have dot : Fits offset ⟨.dot, span⟩ := fits _ (List.mem_singleton_self _)
      exact mark_of_fits dot earlier

theorem visitParts_marker {parts : List Part}
    (fits : ∀ part ∈ parts, ∀ highlight ∈ part.highlights, highlight.Fits offset)
    (earlier : List Highlight) :
    (marker offset).visitParts parts (.ok earlier) =
      .proceed (.ok (((parts.flatMap Part.highlights).map (translate offset)).reverse ++
        earlier)) := by
  -- The marks of each part are put in front of the earlier ones, the last mark first.
  induction parts generalizing earlier with
  | nil => rfl
  | cons part rest induction =>
      obtain ⟨first, later⟩ := List.forall_mem_cons.mp fits
      rw [Visitor.visitParts_cons, marker_part first, Flow.proceed_andThen, induction later,
        List.flatMap_cons, List.map_append, List.reverse_append, List.append_assoc]

end Highlight

namespace Path

theorem highlights_of_fits {path : Path} {offset : Nat}
    (fits : ∀ part ∈ path.parts, ∀ highlight ∈ part.highlights, highlight.Fits offset) :
    path.highlights offset =
      .ok ((path.parts.flatMap Part.highlights).map (Highlight.translate offset)) := by
  rw [highlights, walk_eq_visitParts, Highlight.visitParts_marker fits, List.append_nil]
  change Except.ok (List.reverse (List.reverse _)) = _
  rw [List.reverse_reverse]

theorem highlights_empty (offset : Nat) : empty.highlights offset = .ok [] :=
  highlights_of_fits (by rintro part ⟨⟩)

end Path

theorem Member.highlight_inside {member : Member} {start : Nat} {highlight : Highlight}
    (found : highlight ∈ (member.placed start).highlights) :
    highlight.span.Ordered ∧ highlight.span.stop ≤ (member.placed start).span.stop := by
  obtain ⟨kind, name⟩ := member
  cases kind with
  | property =>
      cases List.mem_singleton.mp found
      refine ⟨Nat.le_add_right _ _, ?_⟩
      change start + name.utf8ByteSize ≤ start + Member.width ⟨.property, name⟩
      exact Nat.le_of_eq (by rw [Member.width_property])
  | method =>
      have inside : start + name.utf8ByteSize ≤ start + Member.width ⟨.method, name⟩ := by
        rw [Member.width_method]
        omega
      cases found with
      | head => exact ⟨Nat.le_add_right _ _, inside⟩
      | tail _ found =>
          cases List.mem_singleton.mp found
          exact ⟨inside, Nat.le_refl _⟩

namespace Path

variable {members : List Member} {offset : Nat}

/-- A dot stops where the segment behind it starts, so no part stops behind all segments. -/
theorem exists_segment_of_mem_parts {part : Part} (found : part ∈ (placed members).parts) :
    ∃ segment ∈ (placed members).segments, part.span.stop ≤ segment.span.stop := by
  rcases mem_parts_iff.mp found with isSegment | isSeparator
  · obtain ⟨segment, kept, rfl⟩ := List.mem_map.mp isSegment
    exact ⟨segment, kept, Nat.le_refl _⟩
  · obtain ⟨dot, kept, rfl⟩ := List.mem_map.mp isSeparator
    obtain ⟨index, isDot⟩ := List.getElem?_of_mem kept
    obtain ⟨left, right, _, next, separates⟩ := separates_placed "" isDot
    have behind := List.mem_of_getElem? next
    refine ⟨right, behind, ?_⟩
    change dot.stop ≤ right.span.stop
    rw [separates.stop]
    exact (covers_segment_placed "" behind).ordered

theorem highlight_inside {part : Part} (found : part ∈ (placed members).parts)
    {highlight : Highlight} (marked : highlight ∈ part.highlights) :
    highlight.span.Ordered ∧ highlight.span.stop ≤ part.span.stop := by
  rcases mem_parts_iff.mp found with isSegment | isSeparator
  · obtain ⟨segment, kept, rfl⟩ := List.mem_map.mp isSegment
    obtain ⟨start, isPlaced⟩ := Member.mem_placeAll kept
    rw [Part.highlights, isPlaced] at marked
    rw [Part.span, isPlaced]
    exact Member.highlight_inside marked
  · obtain ⟨dot, kept, rfl⟩ := List.mem_map.mp isSeparator
    rw [Part.highlights, List.mem_singleton] at marked
    cases marked
    exact ⟨(covers_separator_placed "" kept).ordered, Nat.le_refl _⟩

theorem highlight_fits {part : Part}
    (fits : ∀ segment ∈ (placed members).segments, segment.span.stop + offset < offsetBound)
    (found : part ∈ (placed members).parts) :
    ∀ highlight ∈ part.highlights, highlight.Fits offset := by
  intro highlight marked
  obtain ⟨segment, kept, before⟩ := exists_segment_of_mem_parts found
  obtain ⟨ordered, inside⟩ := highlight_inside found marked
  have bound := fits segment kept
  exact ⟨ordered, by omega⟩

theorem highlights_ofString {source : String}
    (fits : ∀ segment ∈ (ofString source).segments, segment.span.stop + offset < offsetBound) :
    (ofString source).highlights offset =
      .ok (((ofString source).parts.flatMap Part.highlights).map
        (Highlight.translate offset)) := by
  rw [ofString_eq_placed] at fits ⊢
  exact highlights_of_fits fun part found => highlight_fits fits found

end Path

theorem not_nameStart_of_mem_whiteSpace {c : Char} (white : c.toNat ∈ whiteSpace) :
    ¬ NameStart c := by
  have stuck : ∀ code ∈ whiteSpace, ¬ NameStart (Char.ofNat code) := by decide
  rw [← Char.ofNat_toNat c]
  exact stuck c.toNat white

theorem Path.ofString_of_blank {source : String} (blank : Blank source) :
    ofString source = .empty := by
  have nameless : ∀ c ∈ source.toList.head?, ¬ NameStart c := by
    intro c head
    exact not_nameStart_of_mem_whiteSpace (blank c (List.mem_of_mem_head? head))
  have gathered := (reads_ofString source).unique (.nameless nameless)
  exact eq_empty (congrArg Gathered.segments gathered)

/-- A blank text has no highlights, so it needs no case of its own. -/
theorem highlights_eq (source : String) (offset : Nat) :
    highlights source offset = (Path.ofString source).highlights offset := by
  rw [highlights]
  split
  · next blank =>
      rw [Path.ofString_of_blank (isBlank_eq_true_iff.mp blank), Path.highlights_empty]
  · rfl

end LensPath
