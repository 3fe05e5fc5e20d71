import LensPath.Span

/-!
Texts by the bytes of their encoding. What stands between two bytes of a text is told by the bytes
alone; that no character is cut there follows.
-/

namespace LensPath.Text

def bytes (source : String) (span : Span) : ByteArray :=
  source.toByteArray.extract span.start span.stop

def charAt? (source : String) (offset : Nat) : Option Char :=
  source.toByteArray.utf8DecodeChar? offset

/-- No character goes across an offset. -/
def Boundary (source : String) (offset : Nat) : Prop :=
  String.Pos.Raw.IsValid source ⟨offset⟩

/-- A piece is what the bytes of a source from an offset on begin with. -/
structure StandsAt (source : String) (offset : Nat) (piece : String) : Prop where
  inside : offset + piece.utf8ByteSize ≤ source.utf8ByteSize
  found : bytes source ⟨offset, offset + piece.utf8ByteSize⟩ = piece.toByteArray

theorem boundary_append (before after : String) :
    Boundary (before ++ after) before.utf8ByteSize :=
  String.Pos.Raw.isValid_iff_exists_append.mpr ⟨before, after, rfl, rfl⟩

theorem bytes_append (before rest : String) (length : Nat) :
    bytes (before ++ rest) ⟨before.utf8ByteSize, before.utf8ByteSize + length⟩ =
      rest.toByteArray.extract 0 length := by
  rw [bytes, String.toByteArray_append]
  exact ByteArray.extract_append_size_add' (i := 0) (k := before.utf8ByteSize) rfl

theorem standsAt_append (before piece after : String) :
    StandsAt (before ++ piece ++ after) before.utf8ByteSize piece := by
  constructor
  · simp only [String.utf8ByteSize_append]
    omega
  · rw [String.append_assoc, bytes_append, String.toByteArray_append]
    exact ByteArray.extract_append_eq_left rfl

theorem charAt?_append (before : String) (rest : List Char) :
    charAt? (before ++ String.ofList rest) before.utf8ByteSize = rest.head? := by
  have tail : (before ++ String.ofList rest).toByteArray.extract before.utf8ByteSize
      (before ++ String.ofList rest).toByteArray.size = rest.utf8Encode := by
    rw [String.toByteArray_append, ← String.toByteArray_ofList]
    exact ByteArray.extract_append_eq_right rfl String.utf8ByteSize_append
  rw [charAt?, ByteArray.utf8DecodeChar?_eq_utf8DecodeChar?_extract, tail]
  cases rest with
  | nil => rfl
  | cons c rest => exact List.utf8DecodeChar?_utf8Encode_cons

theorem lt_utf8ByteSize_of_charAt? {source : String} {offset : Nat} {c : Char}
    (found : charAt? source offset = some c) : offset < source.utf8ByteSize :=
  ByteArray.lt_size_of_isSome_utf8DecodeChar? (Option.isSome_of_eq_some found)

theorem standsAt_of_bytes {source piece : String} {span : Span} (ordered : span.start ≤ span.stop)
    (inside : span.stop ≤ source.utf8ByteSize) (found : bytes source span = piece.toByteArray) :
    span.stop = span.start + piece.utf8ByteSize ∧ StandsAt source span.start piece := by
  have size : span.stop - span.start = piece.utf8ByteSize := by
    have extracted := congrArg ByteArray.size found
    rwa [bytes, ByteArray.size_extract, String.size_toByteArray, String.size_toByteArray,
      Nat.min_eq_left inside] at extracted
  have stop : span.stop = span.start + piece.utf8ByteSize := by omega
  refine ⟨stop, stop ▸ inside, ?_⟩
  rw [← stop]
  exact found

theorem StandsAt.head {before rest piece : String}
    (stands : StandsAt (before ++ rest) before.utf8ByteSize piece) :
    ∃ after, rest = piece ++ after := by
  have inside := stands.inside
  have found := stands.found
  rw [String.utf8ByteSize_append] at inside
  rw [bytes_append] at found
  have valid : String.Pos.Raw.IsValid rest ⟨piece.utf8ByteSize⟩ := by
    rw [String.Pos.Raw.isValid_iff_isValidUTF8_extract_zero]
    refine ⟨Nat.le_of_add_le_add_left inside, ?_⟩
    rw [found]
    exact piece.isValidUTF8
  obtain ⟨head, after, rfl, length⟩ := String.Pos.Raw.isValid_iff_exists_append.mp valid
  have size : piece.utf8ByteSize = head.utf8ByteSize := congrArg String.Pos.Raw.byteIdx length
  have same : head.toByteArray = piece.toByteArray := by
    rw [← found, size, String.toByteArray_append]
    exact (ByteArray.extract_append_eq_left rfl).symm
  exact ⟨after, by rw [String.toByteArray_inj.mp same]⟩

/-- A piece stands between two characters, since its own first byte begins one. -/
theorem StandsAt.split {source piece : String} {offset : Nat}
    (stands : StandsAt source offset piece) (nonempty : piece ≠ "") :
    ∃ before after, source = before ++ piece ++ after ∧ before.utf8ByteSize = offset := by
  have valid : (bytes source ⟨offset, offset + piece.utf8ByteSize⟩).IsValidUTF8 := by
    rw [stands.found]
    exact piece.isValidUTF8
  rcases (String.Pos.Raw.isValidUTF8_extract_iff ⟨offset⟩ ⟨offset + piece.utf8ByteSize⟩
    (Nat.le_add_right _ _) stands.inside).mp valid with same | ⟨starts, _⟩
  · have size : offset = offset + piece.utf8ByteSize := congrArg String.Pos.Raw.byteIdx same
    exact absurd (String.utf8ByteSize_eq_zero_iff.mp (by omega)) nonempty
  · obtain ⟨before, rest, rfl, length⟩ := String.Pos.Raw.isValid_iff_exists_append.mp starts
    obtain rfl : offset = before.utf8ByteSize := congrArg String.Pos.Raw.byteIdx length
    obtain ⟨after, rfl⟩ := stands.head
    exact ⟨before, after, by rw [String.append_assoc], rfl⟩

end LensPath.Text
