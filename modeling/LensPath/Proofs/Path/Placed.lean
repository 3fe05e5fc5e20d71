import LensPath.Proofs.Reading

/-!
Paths that are laid out without gaps: their separators are the bytes right behind all segments but
the last. The path of a text is laid out like that, from the first byte on, so its members alone
tell all of it.
-/

namespace LensPath

namespace Path

theorem eq_of_parts {path other : Path} (segments : path.segments = other.segments)
    (separators : path.separators = other.separators) : path = other := by
  cases path
  cases other
  cases segments
  cases separators
  rfl

def dotted (segments : List Segment) : Path :=
  ⟨segments, Segment.dots segments, by simp [Segment.dots]⟩

theorem separatorsBetween_eq_dots {segments : List Segment}
    (fits : ∀ dot ∈ Segment.dots segments, dot.stop < offsetBound) :
    separatorsBetween segments = .ok (Segment.dots segments) := by
  induction segments with
  | nil => rfl
  | cons segment rest induction =>
      cases rest with
      | nil => rfl
      | cons next rest =>
          rw [Segment.dots_cons (List.cons_ne_nil next rest)] at fits ⊢
          obtain ⟨first, later⟩ := List.forall_mem_cons.mp fits
          have stop : Offset.add segment.span.stop 1 = .ok (segment.span.stop + 1) :=
            Offset.add_of_lt first
          have made : Span.make segment.span.stop (segment.span.stop + 1) = .ok segment.dot :=
            Span.make_of_le (Nat.le_add_right _ 1)
          rw [separatorsBetween, stop]
          change (do
            let separator ← Span.make segment.span.stop (segment.span.stop + 1)
            let separators ← separatorsBetween (next :: rest)
            return separator :: separators) = _
          rw [made, induction later]
          rfl

theorem ofSegments_eq_dotted {segments : List Segment}
    (fits : ∀ dot ∈ Segment.dots segments, dot.stop < offsetBound) :
    ofSegments segments = .ok (dotted segments) := by
  have separated := separatorsBetween_eq_dots fits
  unfold ofSegments
  split
  · next built =>
      rw [separated] at built
      cases built
      rfl
  · next failed =>
      rw [separated] at failed
      cases failed

def placed (members : List Member) : Path := dotted (Member.placeAll 0 members)

end Path

@[simp] theorem Member.map_member_placeAll (start : Nat) (members : List Member) :
    (placeAll start members).map Segment.member = members := by
  induction members generalizing start with
  | nil => rfl
  | cons member members induction =>
      rw [placeAll, List.map_cons, induction, member_placed]

theorem Member.placeAll_ne_nil {members : List Member} (nonempty : members ≠ []) (start : Nat) :
    placeAll start members ≠ [] := by
  cases members with
  | nil => exact absurd rfl nonempty
  | cons member members => exact List.cons_ne_nil _ _

@[simp] theorem Path.members_placed (members : List Member) :
    (placed members).members = members :=
  Member.map_member_placeAll 0 members

theorem Path.ofString_eq_placed (source : String) :
    ofString source = placed (ofString source).members := by
  have reads := reads_ofString source
  have segments : (ofString source).segments =
      Member.placeAll 0 (ofString source).members := reads.segments_eq
  apply eq_of_parts segments
  change _ = Segment.dots (Member.placeAll 0 (ofString source).members)
  rw [← segments]
  exact reads.separators_eq

end LensPath
