import LensPath.Proofs.Highlight
import LensPath.Proofs.Inspection.Shifted
import Mathlib.Data.List.Basic

/-!
Highlights at offsets of every size. A walk that marks the parts of a path faults where the first
of them ends behind the last offset, so it faults exactly if the path does.
-/

namespace LensPath

namespace Highlight

variable {offset : Nat}

theorem mark_of_ge {span : Span} (exceeds : offsetBound ≤ span.stop + offset) (kind : Kind)
    (earlier : List Highlight) :
    mark offset kind (.ok span) (.ok earlier) = .halt (.error .sumOverflow) := by
  have faulted := Span.shift_of_ge exceeds
  simp only [mark, bind, Except.bind, faulted]

theorem fits_or_ge {highlight : Highlight} (ordered : highlight.span.Ordered) :
    highlight.Fits offset ∨ offsetBound ≤ highlight.span.stop + offset := by
  rcases Nat.lt_or_ge (highlight.span.stop + offset) offsetBound with bound | exceeds
  · exact .inl ⟨ordered, bound⟩
  · exact .inr exceeds

theorem marker_segment_of_ge {segment : Segment}
    (ordered : ∀ highlight ∈ segment.highlights, highlight.span.Ordered)
    (exceeds : ∃ highlight ∈ segment.highlights, offsetBound ≤ highlight.span.stop + offset)
    (earlier : List Highlight) :
    (marker offset).segment segment (.ok earlier) = .halt (.error .sumOverflow) := by
  unfold Segment.highlights at ordered exceeds
  rw [Visitor.segment]
  cases kind : segment.kind with
  | property =>
      simp only [kind, List.mem_singleton, exists_eq_left] at exceeds
      exact mark_of_ge exceeds .field earlier
  | method =>
      simp only [kind] at ordered exceeds
      obtain ⟨name, later⟩ := List.forall_mem_cons.mp ordered
      have call := later _ (List.mem_singleton_self _)
      have made : segment.callSpan = .ok ⟨segment.nameSpan.stop, segment.span.stop⟩ :=
        Span.make_of_le call
      change (mark offset .method (.ok segment.nameSpan) (.ok earlier)).andThen
        (mark offset .call segment.callSpan) = _
      rw [made]
      -- The name is marked first, and the call only if there was room for the name.
      rcases @fits_or_ge offset ⟨.method, segment.nameSpan⟩ name with fits | nameExceeds
      · rw [mark_of_fits fits, Flow.proceed_andThen]
        obtain ⟨_, last, exceeds⟩ := (List.or_exists_of_exists_mem_cons exceeds).resolve_left
          (Nat.not_le.mpr fits.bound)
        cases List.mem_singleton.mp last
        exact mark_of_ge exceeds .call _
      · rw [mark_of_ge nameExceeds, Flow.halt_andThen]

theorem marker_part_of_ge {part : Part}
    (ordered : ∀ highlight ∈ part.highlights, highlight.span.Ordered)
    (exceeds : ∃ highlight ∈ part.highlights, offsetBound ≤ highlight.span.stop + offset)
    (earlier : List Highlight) :
    (marker offset).part part (.ok earlier) = .halt (.error .sumOverflow) := by
  cases part with
  | segment segment => exact marker_segment_of_ge ordered exceeds earlier
  | separator span =>
      obtain ⟨dot, found, exceeds⟩ := exceeds
      cases List.mem_singleton.mp found
      exact mark_of_ge exceeds .dot earlier

theorem visitParts_marker_of_ge {parts : List Part}
    (ordered : ∀ part ∈ parts, ∀ highlight ∈ part.highlights, highlight.span.Ordered)
    (exceeds : ∃ part ∈ parts, ∃ highlight ∈ part.highlights,
      offsetBound ≤ highlight.span.stop + offset)
    (earlier : List Highlight) :
    (marker offset).visitParts parts (.ok earlier) = .halt (.error .sumOverflow) := by
  induction parts generalizing earlier with
  | nil =>
      obtain ⟨part, none, _⟩ := exceeds
      cases none
  | cons part rest induction =>
      obtain ⟨first, later⟩ := List.forall_mem_cons.mp ordered
      rw [Visitor.visitParts_cons]
      by_cases here : ∃ highlight ∈ part.highlights, offsetBound ≤ highlight.span.stop + offset
      · rw [marker_part_of_ge first here, Flow.halt_andThen]
      · have fits : ∀ highlight ∈ part.highlights, highlight.Fits offset := by
          intro highlight found
          apply (fits_or_ge (first highlight found)).resolve_right
          exact fun exceeds => here ⟨highlight, found, exceeds⟩
        rw [marker_part fits, Flow.proceed_andThen]
        apply induction later
        exact (List.or_exists_of_exists_mem_cons exceeds).resolve_left here

end Highlight

theorem Member.exists_highlight_stop (member : Member) (start : Nat) :
    ∃ highlight ∈ (member.placed start).highlights,
      highlight.span.stop = (member.placed start).span.stop := by
  obtain ⟨kind, name⟩ := member
  cases kind with
  | property =>
      refine ⟨_, List.mem_singleton_self _, ?_⟩
      change start + name.utf8ByteSize = start + Member.width ⟨.property, name⟩
      rw [Member.width_property]
  | method => exact ⟨_, List.mem_cons_of_mem _ (List.mem_singleton_self _), rfl⟩

namespace Path

/-- A path that stands at an offset ends behind the last offset there is. -/
def Exceeds (path : Path) (offset : Nat) : Prop :=
  ∃ span, path.span = .ok (some span) ∧ offsetBound ≤ span.stop + offset

variable {source : String} {offset : Nat}

theorem stop_le_of_mem_ofString {segment : Segment}
    (kept : segment ∈ (ofString source).segments) :
    segment.span.stop ≤ (ofString source).display.utf8ByteSize := by
  rw [ofString_eq_placed] at kept ⊢
  rw [display_placed, ← String.append_empty (s := Member.render _)]
  exact (covers_segment_placed "" kept).stop_le

theorem exceeds_ofString_iff :
    (ofString source).Exceeds offset ↔ (ofString source).isEmpty = false ∧
      offsetBound ≤ (ofString source).display.utf8ByteSize + offset := by
  rw [Exceeds]
  cases kept : (ofString source).isEmpty with
  | true =>
      rw [eq_empty (List.isEmpty_iff.mp kept)]
      refine iff_of_false ?_ (fun parts => by cases parts.1)
      intro found
      obtain ⟨_, none, _⟩ := found
      cases none
  | false =>
      rw [(ofString_tiles source kept).span]
      simp

theorem highlights_of_not_exceeds (fits : ¬ (ofString source).Exceeds offset) :
    (ofString source).highlights offset =
      .ok (((ofString source).parts.flatMap Part.highlights).map
        (Highlight.translate offset)) := by
  apply highlights_ofString
  intro segment kept
  have before := stop_le_of_mem_ofString kept
  have nonempty : (ofString source).isEmpty = false :=
    List.isEmpty_eq_false_iff.mpr (List.ne_nil_of_mem kept)
  have bound := mt exceeds_ofString_iff.mpr fits
  rw [nonempty, and_iff_right rfl] at bound
  omega

/-- The last segment ends where the path does, so there is no room for its last highlight. -/
theorem highlights_of_exceeds (exceeds : (ofString source).Exceeds offset) :
    (ofString source).highlights offset = .error .sumOverflow := by
  obtain ⟨kept, bound⟩ := exceeds_ofString_iff.mp exceeds
  rw [ofString_eq_placed] at kept bound ⊢
  rw [display_placed] at bound
  obtain ⟨last, tail⟩ := Option.ne_none_iff_exists'.mp
    (mt List.getLast?_eq_none_iff.mp (List.isEmpty_eq_false_iff.mp kept))
  have stop := Member.stop_of_getLast?_placeAll tail
  have found := List.mem_of_getLast? tail
  obtain ⟨start, isPlaced⟩ := Member.mem_placeAll found
  obtain ⟨highlight, marked, ends⟩ := Member.exists_highlight_stop last.member start
  rw [← isPlaced] at marked ends
  rw [highlights, walk_eq_visitParts, Highlight.visitParts_marker_of_ge]
  · rfl
  · exact fun part found highlight marked => (highlight_inside found marked).1
  · refine ⟨.segment last, mem_parts_iff.mpr (.inl (List.mem_map_of_mem found)), highlight,
      marked, ?_⟩
    omega

end Path

end LensPath
