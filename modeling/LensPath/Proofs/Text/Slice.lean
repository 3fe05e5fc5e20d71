import LensPath.Span
import LensPath.Text.Cut

/-!
Slices of texts. A span that covers a piece of a text is cut out of it as that piece, and so are
the spans of its parts.
-/

namespace LensPath.Text

/-- What stands in a span of a source, if the span cuts no character. -/
def slice? (source : String) (span : Span) : Option String :=
  (cut? source.toList span.start span.stop).map String.ofList

def Covers (source : String) (span : Span) (piece : String) : Prop :=
  ∃ before after, source = before ++ piece ++ after ∧
    span = ⟨before.utf8ByteSize, (before ++ piece).utf8ByteSize⟩

namespace Covers

variable {source piece more : String} {span : Span}

theorem stop_le (covers : Covers source span piece) : span.stop ≤ source.utf8ByteSize := by
  obtain ⟨before, after, rfl, rfl⟩ := covers
  rw [String.utf8ByteSize_append (s := before ++ piece)]
  exact Nat.le_add_right _ _

theorem ordered (covers : Covers source span piece) : span.Ordered := by
  obtain ⟨before, after, rfl, rfl⟩ := covers
  rw [Span.Ordered, String.utf8ByteSize_append]
  exact Nat.le_add_right _ _

theorem append (covers : Covers source span piece) (rest : String) :
    Covers (source ++ rest) span piece := by
  obtain ⟨before, after, rfl, rfl⟩ := covers
  exact ⟨before, after ++ rest, by rw [String.append_assoc], rfl⟩

theorem left (covers : Covers source span (piece ++ more)) :
    Covers source ⟨span.start, span.start + piece.utf8ByteSize⟩ piece := by
  obtain ⟨before, after, rfl, rfl⟩ := covers
  refine ⟨before, more ++ after, by simp only [String.append_assoc], ?_⟩
  simp only [String.utf8ByteSize_append]

theorem right (covers : Covers source span (piece ++ more)) :
    Covers source ⟨span.start + piece.utf8ByteSize, span.stop⟩ more := by
  obtain ⟨before, after, rfl, rfl⟩ := covers
  refine ⟨before ++ piece, after, by simp only [String.append_assoc], ?_⟩
  simp only [String.utf8ByteSize_append, Nat.add_assoc]

theorem slice?_eq (covers : Covers source span piece) : slice? source span = some piece := by
  obtain ⟨before, after, rfl, rfl⟩ := covers
  have start := splitBytes?_byteLength before.toList (piece.toList ++ after.toList)
  have stop := splitBytes?_byteLength piece.toList after.toList
  rw [byteLength_toList] at start stop
  have size : (before ++ piece).utf8ByteSize = before.utf8ByteSize + piece.utf8ByteSize :=
    String.utf8ByteSize_append
  have ordered : before.utf8ByteSize ≤ before.utf8ByteSize + piece.utf8ByteSize :=
    Nat.le_add_right _ _
  simp only [slice?, cut?, size, if_pos ordered, String.toList_append, List.append_assoc,
    start, Nat.add_sub_cancel_left, stop, Option.pure_def, Option.bind_eq_bind, Option.bind_some,
    Option.map_some, String.ofList_toList]

end Covers

end LensPath.Text
