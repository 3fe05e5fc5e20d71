import LensPath.Proofs.Highlight
import LensPath.Proofs.Token.Tiling
import LensPath.Run

/-!
Highlights as a tiling of what is kept of a text. They are the tokens of the kept text one for one,
but for the two parentheses of a call, which are one highlight.
-/

namespace LensPath

namespace Highlight

/-- The highlights of tokens; `none` if there is a parenthesis that is no part of a call. -/
def ofTokens? : List Token.Located → Option (List Highlight)
  | [] => some []
  | ⟨.name _, name⟩ :: ⟨.openParen, opened⟩ :: ⟨.closeParen, closed⟩ :: rest =>
      (ofTokens? rest).map fun later =>
        ⟨.method, name⟩ :: ⟨.call, ⟨opened.start, closed.stop⟩⟩ :: later
  | ⟨.name _, name⟩ :: rest => (ofTokens? rest).map (⟨.field, name⟩ :: ·)
  | ⟨.dot, dot⟩ :: rest => (ofTokens? rest).map (⟨.dot, dot⟩ :: ·)
  | _ => none

variable {source piece : String} {offset : Nat} {highlight : Highlight}

theorem text_translate (shown : Text.slice? source highlight.span = some piece) (offset : Nat) :
    (highlight.translate offset).text source offset = .ok piece := by
  obtain ⟨chars, cut, rfl⟩ := Option.map_eq_some_iff.mp shown
  have back (place : Nat) : Offset.sub (place + offset) offset = .ok place := by
    rw [Offset.sub, if_pos (Nat.le_add_left _ _), Nat.add_sub_cancel]
  simp only [text, translate, Span.translate, back, cut, bind, Except.bind]
  rfl

theorem texts_translate {highlights : List Highlight} {pieces : List String}
    (shown : highlights.map (fun highlight => Text.slice? source highlight.span) =
      pieces.map some) (offset : Nat) :
    (highlights.map (translate offset)).map (text source offset) = pieces.map .ok := by
  induction highlights generalizing pieces with
  | nil =>
      cases pieces with
      | nil => rfl
      | cons => cases shown
  | cons highlight rest induction =>
      cases pieces with
      | nil => cases shown
      | cons piece others =>
          obtain ⟨first, later⟩ := List.cons.inj shown
          rw [List.map_cons, List.map_cons, text_translate first, induction later, List.map_cons]

theorem rows_of_texts {highlights : List Highlight} {pieces : List String}
    (shown : highlights.map (text source offset) = pieces.map .ok) :
    rows source offset highlights = (String.join (List.zipWith row highlights pieces), none) := by
  induction highlights generalizing pieces with
  | nil => rfl
  | cons highlight rest induction =>
      cases pieces with
      | nil => cases shown
      | cons piece others =>
          obtain ⟨first, later⟩ := List.cons.inj shown
          rw [rows, first, induction later, List.zipWith_cons_cons, String.join_cons]

/-- Highlights lie over all of a text at the head of a source that stands at an offset. -/
structure Tile (source kept : String) (offset : Nat) (highlights : List Highlight) : Prop where
  head : ∃ rest, source = kept ++ rest
  behind : ∀ highlight ∈ highlights, offset ≤ highlight.span.start
  nonempty : ∀ highlight ∈ highlights, highlight.span.start < highlight.span.stop
  contiguous : Contiguous offset (highlights.map Highlight.span) (offset + kept.utf8ByteSize)
  slices : ∃ pieces, highlights.map (text source offset) = pieces.map .ok ∧
    String.join pieces = kept ∧
    rows source offset highlights = (String.join (List.zipWith row highlights pieces), none)

theorem Tile.ending_runHighlight {kept : String} {found : List Highlight}
    (tile : Tile source kept offset found) (made : highlights source offset = .ok found) :
    (runHighlight source offset).ending = .clean := by
  obtain ⟨_, _, _, printed⟩ := tile.slices
  simp only [runHighlight, made, printed]
  rfl

end Highlight

/-! ## Tokens of members -/

def Member.tokens (member : Member) (start : Nat) : List Token.Located :=
  let stop := start + member.name.utf8ByteSize
  ⟨.name member.name, start, stop⟩ ::
    match member.kind with
    | .property => []
    | .method => [⟨.openParen, stop, stop + 1⟩, ⟨.closeParen, stop + 1, stop + 2⟩]

namespace Lexed

theorem scan_member {start : Nat} {member : Member} {rest : List Char} (named : member.Named)
    (ends : member.Ends rest) :
    (scan start (member.text ++ rest)).tokens =
      member.tokens start ++ (scan (start + member.width) rest).tokens := by
  rw [Member.text, List.append_assoc, scan_name named ends.nameEnds]
  obtain ⟨kind, name⟩ := member
  cases kind with
  | property =>
      rw [Member.width_property]
      rfl
  | method =>
      rw [Member.width_method]
      simp only [MemberKind.mark, List.cons_append, List.nil_append,
        scan_some (Token.take?_openParen _), scan_some (Token.take?_closeParen _)]
      rfl

theorem scan_dot (start : Nat) (rest : List Char) :
    (scan start ('.' :: rest)).tokens =
      ⟨.dot, start, start + 1⟩ :: (scan (start + 1) rest).tokens := by
  rw [scan_some (Token.take?_dot rest)]
  rfl

end Lexed

namespace Highlight

theorem ofTokens?_member (member : Member) (start : Nat) :
    ofTokens? (member.tokens start) = some (member.placed start).highlights := by
  obtain ⟨kind, name⟩ := member
  cases kind with
  | property => rfl
  | method =>
      simp only [Segment.highlights, Member.placed, Member.width_method]
      rfl

theorem ofTokens?_dotted (member : Member) (start : Nat) (dot : Span)
    (rest : List Token.Located) :
    ofTokens? (member.tokens start ++ ⟨.dot, dot⟩ :: rest) =
      (ofTokens? rest).map ((member.placed start).highlights ++ ⟨.dot, dot⟩ :: ·) := by
  obtain ⟨kind, name⟩ := member
  cases kind with
  | property =>
      change ((ofTokens? rest).map _).map _ = _
      rw [Option.map_map]
      rfl
  | method =>
      simp only [Segment.highlights, Member.placed, Member.width_method]
      change ((ofTokens? rest).map _).map _ = _
      rw [Option.map_map]
      rfl

end Highlight

theorem Sentence.ofTokens?_scan {members : List Member} {text : List Char}
    (sentence : Sentence members text) (start : Nat) :
    Highlight.ofTokens? (Lexed.scan start text).tokens =
        some ((Path.dotted (Member.placeAll start members)).parts.flatMap Part.highlights) ∧
      (Lexed.scan start text).stray = none := by
  induction sentence generalizing start with
  | @last member named =>
      have tokens := @Lexed.scan_member start member [] named member.ends_nil
      have same := @Lexed.SameEnd.member _ start member [] ⟨rfl, rfl⟩ named member.ends_nil
      rw [List.append_nil] at tokens same
      rw [Lexed.scan_nil] at tokens same
      rw [tokens, List.append_nil, Highlight.ofTokens?_member]
      exact ⟨by simp [Member.placeAll, Path.dotted, Path.parts, Part.weave, Part.highlights],
        same.2⟩
  | @dotted member members text named rest induction =>
      obtain ⟨found, ended⟩ := induction (start + member.width + 1)
      have ends := member.ends_dot text
      have same := (@Lexed.SameEnd.member _ start member ('.' :: text) ⟨rfl, rfl⟩ named ends).tail
        (Token.take?_dot text)
      rw [Lexed.scan_member named ends, Lexed.scan_dot, Highlight.ofTokens?_dotted, found]
      have placed := Member.placeAll_ne_nil rest.members_ne_nil (start + member.width + 1)
      refine ⟨?_, same.2.trans ended⟩
      rw [Member.placeAll, Path.parts_dotted_cons placed]
      rfl

namespace Highlight

theorem contiguous_of_tokens {tokens : List Token.Located} {highlights : List Highlight}
    {start stop : Nat} (found : ofTokens? tokens = some highlights)
    (contiguous : Contiguous start (tokens.map Token.Located.span) stop)
    (nonempty : ∀ located ∈ tokens, located.span.start < located.span.stop) :
    Contiguous start (highlights.map Highlight.span) stop ∧
      ∀ highlight ∈ highlights, highlight.span.start < highlight.span.stop := by
  fun_induction ofTokens? tokens generalizing highlights start with
  | case1 =>
      cases found
      exact ⟨contiguous, by simp⟩
  | case2 text name opened closed rest induction =>
      obtain ⟨later, rest_found, rfl⟩ := Option.map_eq_some_iff.mp found
      obtain ⟨starts, meets, touches, behind⟩ := contiguous
      simp only [List.forall_mem_cons] at nonempty
      obtain ⟨named, opens, closes, others⟩ := nonempty
      obtain ⟨tiled, filled⟩ := induction rest_found behind others
      simp only at meets touches opens closes
      refine ⟨⟨starts, meets, tiled⟩, ?_⟩
      simp only [List.forall_mem_cons]
      exact ⟨named, by omega, filled⟩
  | case3 text name rest uncalled induction =>
      obtain ⟨later, rest_found, rfl⟩ := Option.map_eq_some_iff.mp found
      obtain ⟨first, others⟩ := List.forall_mem_cons.mp nonempty
      obtain ⟨tiled, filled⟩ := induction rest_found contiguous.2 others
      exact ⟨⟨contiguous.1, tiled⟩, List.forall_mem_cons.mpr ⟨first, filled⟩⟩
  | case4 dot rest induction =>
      obtain ⟨later, rest_found, rfl⟩ := Option.map_eq_some_iff.mp found
      obtain ⟨first, others⟩ := List.forall_mem_cons.mp nonempty
      obtain ⟨tiled, filled⟩ := induction rest_found contiguous.2 others
      exact ⟨⟨contiguous.1, tiled⟩, List.forall_mem_cons.mpr ⟨first, filled⟩⟩
  | case5 => cases found

end Highlight

theorem Contiguous.translate {start stop : Nat} {spans : List Span}
    (contiguous : Contiguous start spans stop) (offset : Nat) :
    Contiguous (start + offset) (spans.map (Span.translate · offset)) (stop + offset) := by
  induction spans generalizing start with
  | nil => exact congrArg (· + offset) contiguous
  | cons span spans induction =>
      exact ⟨congrArg (· + offset) contiguous.1, induction contiguous.2⟩

/-! ## What is shown -/

namespace Segment

theorem Shown.pieces {source : String} {segment : Segment} (shown : segment.Shown source) :
    ∃ pieces, segment.highlights.map (fun highlight => Text.slice? source highlight.span) =
      pieces.map some ∧ String.join pieces = segment.display := by
  cases kind : segment.kind with
  | property =>
      refine ⟨[segment.name], ?_, ?_⟩
      · simp only [highlights, kind, List.map_cons, List.map_nil, shown.name]
      · simp [display, kind]
  | method =>
      obtain ⟨call, made, _, _, called⟩ := shown.method kind
      have span : call = ⟨segment.nameSpan.stop, segment.span.stop⟩ := by
        rw [callSpan, Span.make] at made
        split at made
        · exact (Except.ok.inj made).symm
        · cases made
      rw [span] at called
      refine ⟨[segment.name, "()"], ?_, ?_⟩
      · simp only [highlights, kind, List.map_cons, List.map_nil, shown.name, called]
      · simp [display, kind, String.join_cons]

end Segment

namespace Path

theorem pieces_of_part {members : List Member} (rest : String) {part : Part}
    (found : part ∈ (placed members).parts) :
    ∃ pieces, part.highlights.map
        (fun highlight => Text.slice? (Member.render members ++ rest) highlight.span) =
      pieces.map some ∧ String.join pieces = part.display := by
  rcases mem_parts_iff.mp found with isSegment | isSeparator
  · obtain ⟨segment, kept, rfl⟩ := List.mem_map.mp isSegment
    exact (shown_placed rest kept).pieces
  · obtain ⟨dot, kept, rfl⟩ := List.mem_map.mp isSeparator
    refine ⟨["."], ?_, by simp [Part.display]⟩
    simp [Part.highlights, (covers_separator_placed rest kept).slice?_eq]

theorem pieces_of_parts {parts : List Part} {slice : Highlight → Option String}
    (each : ∀ part ∈ parts, ∃ pieces, part.highlights.map slice = pieces.map some ∧
      String.join pieces = part.display) :
    ∃ pieces, (parts.flatMap Part.highlights).map slice = pieces.map some ∧
      String.join pieces = String.join (parts.map Part.display) := by
  induction parts with
  | nil => exact ⟨[], rfl, rfl⟩
  | cons part parts induction =>
      obtain ⟨⟨first, shown, joined⟩, others⟩ := List.forall_mem_cons.mp each
      obtain ⟨later, alsoShown, alsoJoined⟩ := induction others
      refine ⟨first ++ later, ?_, ?_⟩
      · rw [List.flatMap_cons, List.map_append, List.map_append, shown, alsoShown]
      · rw [String.join_append, List.map_cons, String.join_cons, joined, alsoJoined]

end Path

theorem Path.exists_named_ofString (source : String) :
    (∀ member ∈ (ofString source).members, member.Named) ∧
      ∃ rest, source = Member.render (ofString source).members ++ rest := by
  rcases ofString_cases source with nothing | ⟨readable, spelled⟩
  · have none : (ofString source).members = [] := congrArg members nothing
    rw [none]
    exact ⟨by simp, source, by simp [Member.render]⟩
  · exact ⟨readable.named, spelled⟩

theorem Member.ofTokens?_render {members : List Member}
    (named : ∀ member ∈ members, member.Named) :
    Highlight.ofTokens? (Lexed.ofString (render members)).tokens =
        some ((Path.placed members).parts.flatMap Part.highlights) ∧
      (Lexed.ofString (render members)).stray = none := by
  by_cases none : members = []
  · subst none
    have nothing : (render []).toList = [] := by simp [render]
    rw [Lexed.ofString, nothing, Lexed.scan_nil]
    exact ⟨rfl, rfl⟩
  · exact (Readable.sentence ⟨none, named⟩).ofTokens?_scan 0

theorem Lexed.contiguous_of_stray_eq_none {text : String}
    (complete : (ofString text).stray = none) :
    Contiguous 0 ((ofString text).tokens.map Token.Located.span) text.utf8ByteSize ∧
      ∀ located ∈ (ofString text).tokens, located.span.start < located.span.stop := by
  have tiling := tiling_scan "" text.toList
  rw [String.ofList_toList, String.empty_append] at tiling
  have ended := tiling.finished.mp (congrArg (Option.map StrayChar.refusal) complete)
  have contiguous := tiling.contiguous
  rw [ended] at contiguous
  exact ⟨contiguous, fun located found => (tiling.fits located found).nonempty⟩

/-- The highlights of a text are the tokens of what is kept of it, and they lie over all of that. -/
theorem highlights_tile {source : String} {offset : Nat}
    (fits : offset + source.utf8ByteSize < offsetBound) :
    ∃ found, Highlight.ofTokens? (Lexed.ofString (Path.ofString source).display).tokens =
        some found ∧
      (Lexed.ofString (Path.ofString source).display).stray = none ∧
      highlights source offset = .ok (found.map (Highlight.translate offset)) ∧
      Highlight.Tile source (Path.ofString source).display offset
        (found.map (Highlight.translate offset)) ∧
      (runHighlight source offset).ending = .clean := by
  obtain ⟨named, rest, spelled⟩ := Path.exists_named_ofString source
  rw [Path.display_eq_render]
  obtain ⟨found, complete⟩ := Member.ofTokens?_render named
  have made : highlights source offset =
      .ok (((Path.placed (Path.ofString source).members).parts.flatMap Part.highlights).map
        (Highlight.translate offset)) := by
    rw [highlights_eq, Path.highlights_ofString, ← Path.ofString_eq_placed]
    intro segment kept
    have inside := (Path.covers_segment kept).stop_le
    omega
  refine ⟨_, found, complete, made, ?_⟩
  rw [and_iff_left_of_imp fun tile => tile.ending_runHighlight made]
  obtain ⟨contiguous, filled⟩ := Lexed.contiguous_of_stray_eq_none complete
  obtain ⟨tiled, nonempty⟩ := Highlight.contiguous_of_tokens found contiguous filled
  obtain ⟨pieces, shown, joined⟩ :=
    Path.pieces_of_parts fun _ part => Path.pieces_of_part rest part
  rw [← spelled] at shown
  have texts := Highlight.texts_translate shown offset
  refine ⟨⟨rest, spelled⟩, ?_, ?_, ?_, pieces, texts, ?_, Highlight.rows_of_texts texts⟩
  · rw [List.forall_mem_map]
    exact fun highlight _ => Nat.le_add_left offset highlight.span.start
  · rw [List.forall_mem_map]
    exact fun highlight member => Nat.add_lt_add_right (nonempty highlight member) offset
  · have moved := tiled.translate offset
    rw [Nat.zero_add, Nat.add_comm, List.map_map] at moved
    rw [List.map_map]
    exact moved
  · rw [joined, Path.join_parts, Path.display_placed]

theorem highlights_tile_unfinished :
    5 + "ab.m().é".utf8ByteSize < offsetBound ∧
      highlights "ab.m().é" 5 =
        .ok [⟨.field, 5, 7⟩, ⟨.dot, 7, 8⟩, ⟨.method, 8, 9⟩, ⟨.call, 9, 11⟩] ∧
      Highlight.Tile "ab.m().é" "ab.m()" 5
        [⟨.field, 5, 7⟩, ⟨.dot, 7, 8⟩, ⟨.method, 8, 9⟩, ⟨.call, 9, 11⟩] ∧
      (runHighlight "ab.m().é" 5).ending = .clean := by
  have fits : 5 + "ab.m().é".utf8ByteSize < offsetBound := by decide
  have kept : (Path.ofString "ab.m().é").display = "ab.m()" := by decide +kernel
  have tokens : Highlight.ofTokens? (Lexed.ofString "ab.m()").tokens =
      some [⟨.field, 0, 2⟩, ⟨.dot, 2, 3⟩, ⟨.method, 3, 4⟩, ⟨.call, 4, 6⟩] := by decide +kernel
  obtain ⟨found, given, _, made, tile, ending⟩ := highlights_tile fits
  rw [kept] at given tile
  cases tokens.symm.trans given
  exact ⟨fits, made, tile, ending⟩

end LensPath
