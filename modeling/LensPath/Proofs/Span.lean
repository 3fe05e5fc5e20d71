import LensPath.Span

/-!
The algebra of spans. To cover two spans is to take the least span that holds both, to move a span
twice is to move it by the sum, and it makes no difference whether spans are covered first or moved
first. A sum that is no offset is the only cause to refuse any of this.
-/

namespace LensPath.Span

structure WellFormed (span : Span) : Prop where
  ordered : span.Ordered
  bounded : span.stop < offsetBound

structure Within (inner outer : Span) : Prop where
  start : outer.start ≤ inner.start
  stop : inner.stop ≤ outer.stop

variable {left right span : Span} {offset : Nat}

/-! ## Covers -/

theorem hull_comm (left right : Span) : left.hull right = right.hull left := by
  rw [hull, hull, Nat.min_comm, Nat.max_comm]

theorem hull_assoc (left right other : Span) :
    (left.hull right).hull other = left.hull (right.hull other) := by
  simp only [hull, Nat.min_assoc, Nat.max_assoc]

theorem hull_self (span : Span) : span.hull span = span := by
  rw [hull, Nat.min_self, Nat.max_self]

theorem within_hull_left (left right : Span) : left.Within (left.hull right) :=
  ⟨Nat.min_le_left _ _, Nat.le_max_left _ _⟩

theorem within_hull_right (left right : Span) : right.Within (left.hull right) :=
  ⟨Nat.min_le_right _ _, Nat.le_max_right _ _⟩

theorem hull_within (leftWithin : left.Within span) (rightWithin : right.Within span) :
    (left.hull right).Within span :=
  ⟨Nat.le_min.mpr ⟨leftWithin.start, rightWithin.start⟩,
    Nat.max_le.mpr ⟨leftWithin.stop, rightWithin.stop⟩⟩

theorem hull_ordered (ordered : left.Ordered) (right : Span) : (left.hull right).Ordered := by
  have within := within_hull_left left right
  exact Nat.le_trans within.start (Nat.le_trans ordered within.stop)

theorem cover_of_ordered (ordered : left.Ordered) (right : Span) :
    left.cover right = .ok (left.hull right) :=
  cover_eq_hull (hull_ordered ordered right)

theorem WellFormed.hull (leftFormed : left.WellFormed) (rightFormed : right.WellFormed) :
    (left.hull right).WellFormed :=
  ⟨hull_ordered leftFormed.ordered right,
    Nat.max_lt.mpr ⟨leftFormed.bounded, rightFormed.bounded⟩⟩

/-! ## Moves -/

theorem length_of_ordered (ordered : span.Ordered) : span.length = .ok (span.stop - span.start) :=
  if_pos ordered

theorem ordered_translate (ordered : span.Ordered) (offset : Nat) :
    (span.translate offset).Ordered :=
  Nat.add_le_add_right ordered offset

@[simp] theorem length_translate (span : Span) (offset : Nat) :
    (span.translate offset).length = span.length := by
  simp only [length, translate, Offset.sub, Nat.add_le_add_iff_right, Nat.add_sub_add_right]

@[simp] theorem isEmpty_translate (span : Span) (offset : Nat) :
    (span.translate offset).isEmpty = span.isEmpty := by
  rw [Bool.eq_iff_iff]
  simp only [isEmpty, translate, beq_iff_eq, Nat.add_right_cancel_iff]

theorem translate_translate (span : Span) (first second : Nat) :
    (span.translate first).translate second = span.translate (first + second) := by
  simp only [translate, Nat.add_assoc]

theorem hull_translate (left right : Span) (offset : Nat) :
    (left.translate offset).hull (right.translate offset) =
      (left.hull right).translate offset := by
  simp only [hull, translate, Nat.add_min_add_right, Nat.add_max_add_right]

theorem shift_eq_ite (ordered : span.Ordered) (offset : Nat) :
    span.shift offset =
      if span.stop + offset < offsetBound then .ok (span.translate offset)
      else .error .sumOverflow := by
  split
  · next fits => exact shift_eq_translate ordered fits
  · next exceeds => exact shift_of_ge (Nat.le_of_not_lt exceeds)

theorem shift_add (ordered : span.Ordered) (first second : Nat) :
    (span.shift first >>= (·.shift second)) = span.shift (first + second) := by
  rw [shift_eq_ite ordered first]
  split
  · change (span.translate first).shift second = _
    rw [shift_eq_ite (ordered_translate ordered first), shift_eq_ite ordered,
      translate_translate]
    simp only [translate, Nat.add_assoc]
  · next exceeds =>
      rw [shift_of_ge]
      · rfl
      · omega

theorem cover_shift (leftOrdered : left.Ordered) (rightOrdered : right.Ordered) (offset : Nat) :
    (left.shift offset >>= fun left => right.shift offset >>= left.cover) =
      (left.cover right >>= (·.shift offset)) := by
  rw [cover_of_ordered leftOrdered, shift_eq_ite leftOrdered, shift_eq_ite rightOrdered]
  change _ = (left.hull right).shift offset
  rw [shift_eq_ite (hull_ordered leftOrdered right)]
  -- the later of the two ends decides, whichever of the spans it belongs to
  have later : (left.hull right).stop + offset < offsetBound ↔
      left.stop + offset < offsetBound ∧ right.stop + offset < offsetBound := by
    simp only [hull]
    omega
  by_cases leftFits : left.stop + offset < offsetBound
  · by_cases rightFits : right.stop + offset < offsetBound
    · rw [if_pos leftFits, if_pos rightFits, if_pos (later.mpr ⟨leftFits, rightFits⟩),
        ← hull_translate]
      exact cover_of_ordered (ordered_translate leftOrdered offset) _
    · rw [if_pos leftFits, if_neg rightFits, if_neg (fun fits => rightFits (later.mp fits).2)]
      rfl
  · rw [if_neg leftFits, if_neg (fun fits => leftFits (later.mp fits).1)]
    rfl

/-! ## Both together -/

inductive Reaches (start : Span) : Span → Prop
  | refl : Reaches start start
  | shift {offset : Nat} {span moved : Span} (reaches : Reaches start span)
      (shifted : span.shift offset = .ok moved) : Reaches start moved
  | cover {other span joined : Span} (reaches : Reaches start span) (formed : other.WellFormed)
      (covered : span.cover other = .ok joined) : Reaches start joined

theorem WellFormed.shift {moved : Span} (formed : span.WellFormed)
    (shifted : span.shift offset = .ok moved) : moved.WellFormed := by
  rw [shift_eq_ite formed.ordered] at shifted
  split at shifted
  · next fits =>
      cases shifted
      exact ⟨ordered_translate formed.ordered offset, fits⟩
  · cases shifted

theorem Reaches.wellFormed {start : Span} (formed : start.WellFormed)
    (reaches : Reaches start span) : span.WellFormed := by
  induction reaches with
  | refl => exact formed
  | shift _ shifted induction => exact induction.shift shifted
  | cover _ otherFormed covered induction =>
      rw [cover_of_ordered induction.ordered] at covered
      cases covered
      exact induction.hull otherFormed

/-- What covers two spans is the least span that holds both, in whatever order they come. -/
structure CoverLaws (left right other : Span) : Prop where
  least : ∃ joined, left.cover right = .ok joined ∧ joined.WellFormed ∧
    left.Within joined ∧ right.Within joined ∧
    ∀ span, span.WellFormed → left.Within span → right.Within span → joined.Within span
  comm : left.cover right = right.cover left
  assoc : (left.cover right >>= (·.cover other)) = (right.cover other >>= left.cover)
  idem : left.cover left = .ok left

structure ShiftLaws (span : Span) (first second : Nat) : Prop where
  faults : (∃ fault, span.shift first = .error fault) ↔ offsetBound ≤ span.stop + first
  keeps : ∀ moved, span.shift first = .ok moved → moved = span.translate first ∧
    moved.length = span.length ∧ moved.isEmpty = span.isEmpty
  succeeds : (∃ moved, (span.shift first >>= (·.shift second)) = .ok moved) ↔
    span.stop + first + second < offsetBound
  add : (span.shift first >>= (·.shift second)) = span.shift (first + second)

structure ExchangeLaws (left right : Span) (offset : Nat) : Prop where
  faults : (∃ fault, (left.cover right >>= (·.shift offset)) = .error fault) ↔
    offsetBound ≤ max left.stop right.stop + offset
  exchange : (left.shift offset >>= fun left => right.shift offset >>= left.cover) =
    (left.cover right >>= (·.shift offset))

theorem coverLaws {other : Span} (leftFormed : left.WellFormed) (rightFormed : right.WellFormed) :
    left.CoverLaws right other := by
  have covered := cover_of_ordered leftFormed.ordered right
  constructor
  · refine ⟨left.hull right, covered, leftFormed.hull rightFormed, within_hull_left left right,
      within_hull_right left right, ?_⟩
    intro span _ leftWithin rightWithin
    exact hull_within leftWithin rightWithin
  · rw [covered, cover_of_ordered rightFormed.ordered, hull_comm]
  · rw [covered, cover_of_ordered rightFormed.ordered]
    change (left.hull right).cover other = left.cover (right.hull other)
    rw [cover_of_ordered (hull_ordered leftFormed.ordered right),
      cover_of_ordered leftFormed.ordered, hull_assoc]
  · rw [cover_of_ordered leftFormed.ordered, hull_self]

theorem exists_shift_eq_error_iff (ordered : span.Ordered) :
    (∃ fault, span.shift offset = .error fault) ↔ offsetBound ≤ span.stop + offset := by
  rw [shift_eq_ite ordered, ← Nat.not_lt]
  split
  · next fits => exact iff_of_false nofun (not_not_intro fits)
  · next exceeds => exact iff_of_true ⟨_, rfl⟩ exceeds

theorem shiftLaws (ordered : span.Ordered) (first second : Nat) : span.ShiftLaws first second := by
  constructor
  · exact exists_shift_eq_error_iff ordered
  · intro moved shifted
    rw [shift_eq_ite ordered] at shifted
    split at shifted
    · cases shifted
      exact ⟨rfl, length_translate span first, isEmpty_translate span first⟩
    · cases shifted
  · rw [shift_add ordered, shift_eq_ite ordered, Nat.add_assoc]
    split
    · next fits => exact iff_of_true ⟨_, rfl⟩ fits
    · next exceeds => exact iff_of_false nofun exceeds
  · exact shift_add ordered first second

theorem exchangeLaws (leftOrdered : left.Ordered) (rightOrdered : right.Ordered) (offset : Nat) :
    left.ExchangeLaws right offset := by
  constructor
  · rw [cover_of_ordered leftOrdered]
    exact exists_shift_eq_error_iff (hull_ordered leftOrdered right)
  · exact cover_shift leftOrdered rightOrdered offset

/-- Covers and moves keep to their laws on all spans between offsets, and no sequence of them leads
to a span without a length. -/
theorem algebra {left right : Span} (leftFormed : left.WellFormed)
    (rightFormed : right.WellFormed) (other : Span) (first second : Nat) :
    left.CoverLaws right other ∧ left.ShiftLaws first second ∧ left.ExchangeLaws right first ∧
      ∀ span, left.Reaches span →
        span.WellFormed ∧ span.length = .ok (span.stop - span.start) := by
  refine ⟨coverLaws leftFormed rightFormed, shiftLaws leftFormed.ordered first second,
    exchangeLaws leftFormed.ordered rightFormed.ordered first, ?_⟩
  intro span reaches
  have formed := reaches.wellFormed leftFormed
  exact ⟨formed, length_of_ordered formed.ordered⟩

/-- A move for which one of two spans has room and their cover has not, and the last one for which
the cover has. -/
theorem algebra_last_offset :
    (⟨2, 5⟩ : Span).WellFormed ∧ (⟨7, 9⟩ : Span).WellFormed ∧
      (∃ moved, (⟨2, 5⟩ : Span).shift (offsetBound - 9) = .ok moved) ∧
      (∃ fault, ((⟨2, 5⟩ : Span).cover ⟨7, 9⟩ >>= (·.shift (offsetBound - 9))) = .error fault) ∧
      ((⟨2, 9⟩ : Span).translate (offsetBound - 10)).length = .ok 7 := by
  have left : (⟨2, 5⟩ : Span).WellFormed := ⟨by decide, by decide⟩
  have right : (⟨7, 9⟩ : Span).WellFormed := ⟨by decide, by decide⟩
  obtain ⟨_, shifts, exchanges, reached⟩ := algebra left right ⟨0, 0⟩ (offsetBound - 9) 0
  refine ⟨left, right, ?_, exchanges.faults.mpr (by decide), ?_⟩
  · obtain ⟨moved, shifted⟩ := shifts.succeeds.mpr (by decide)
    rw [shifts.add] at shifted
    exact ⟨moved, shifted⟩
  · have moved : (⟨2, 9⟩ : Span).shift (offsetBound - 10) = .ok _ :=
      shift_eq_translate (by decide) (by decide)
    exact (reached _ ((Reaches.refl.cover right rfl).shift moved)).2

end LensPath.Span
