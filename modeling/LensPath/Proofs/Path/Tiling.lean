import LensPath.Proofs.Grammar.Rendering
import LensPath.Proofs.Path.Parts
import LensPath.Proofs.Path.Placed
import LensPath.Proofs.Reading.Longest
import LensPath.Proofs.Text.Slice

/-!
The parts of a path as a tiling of the text that is kept of a source. Each segment and each
separator lies over its own text, the next part begins where one ends, and together they show the
path as it is written.
-/

namespace LensPath

structure Segment.Shown (source : String) (segment : Segment) : Prop where
  nameStart : segment.nameSpan.start = segment.span.start
  name : Text.slice? source segment.nameSpan = some segment.name
  property : segment.kind = .property → segment.span = segment.nameSpan
  method : segment.kind = .method → ∃ call, segment.callSpan = .ok call ∧ call.length = .ok 2 ∧
    call.stop = segment.span.stop ∧ Text.slice? source call = some "()"

structure Span.Separates (source : String) (dot : Span) (left right : Segment) : Prop where
  length : dot.length = .ok 1
  start : dot.start = left.span.stop
  stop : dot.stop = right.span.start
  shown : Text.slice? source dot = some "."

structure Path.Tiles (source : String) (path : Path) : Prop where
  start : ∀ first ∈ path.first?, first.span.start = 0
  segments : ∀ segment ∈ path.segments, segment.Shown source
  separators : ∀ index dot, path.separators[index]? = some dot → ∃ left right,
    path.segments[index]? = some left ∧ path.segments[index + 1]? = some right ∧
      dot.Separates source left right
  span : path.span = .ok (some ⟨0, path.display.utf8ByteSize⟩)
  slices : ∃ pieces, path.walkedSpans.map (Text.slice? source) = pieces.map some ∧
    String.join pieces = path.display
  head : ∃ rest, source = path.display ++ rest
  nonempty : ∀ segment ∈ path.segments, segment.span.start < segment.span.stop
  increasing : path.segments.Pairwise fun left right => left.span.stop < right.span.start

theorem Path.parts_dotted_cons {segments : List Segment} (nonempty : segments ≠ [])
    (segment : Segment) :
    (dotted (segment :: segments)).parts =
      .segment segment :: .separator segment.dot :: (dotted segments).parts := by
  change Part.weave (segment :: segments) (Segment.dots (segment :: segments)) = _
  rw [Segment.dots_cons nonempty, Part.weave_cons nonempty]
  rfl

namespace Member

theorem Named.width_pos {member : Member} (named : member.Named) : 0 < member.width := by
  have nonempty : member.name ≠ "" := by
    intro none
    rw [Named, none] at named
    cases named
  have positive := Nat.pos_of_ne_zero (mt String.utf8ByteSize_eq_zero_iff.mp nonempty)
  rw [width, text, Text.byteLength_append, Text.byteLength_toList]
  omega

theorem start_of_head?_placeAll {start : Nat} {members : List Member} {first : Segment}
    (head : (placeAll start members).head? = some first) : first.span.start = start := by
  cases members with
  | nil => cases head
  | cons member members =>
      cases head
      rfl

theorem start_of_placeAll_succ {start index : Nat} {members : List Member} {left right : Segment}
    (found : (placeAll start members)[index]? = some left)
    (next : (placeAll start members)[index + 1]? = some right) :
    right.span.start = left.span.stop + 1 := by
  induction members generalizing start index with
  | nil => cases found
  | cons member members induction =>
      cases index with
      | zero =>
          cases found
          rw [placeAll, List.getElem?_cons_succ, ← List.head?_eq_getElem?] at next
          exact start_of_head?_placeAll next
      | succ index => exact induction found next

theorem stop_of_getLast?_placeAll {start : Nat} {members : List Member} {last : Segment}
    (found : (placeAll start members).getLast? = some last) :
    last.span.stop = start + (render members).utf8ByteSize := by
  induction members generalizing start with
  | nil => cases found
  | cons member members induction =>
      by_cases none : members = []
      · subst none
        cases found
        rw [render_singleton, utf8ByteSize_display]
        rfl
      · rw [placeAll, List.getLast?_cons_of_ne_nil (placeAll_ne_nil none _)] at found
        rw [induction found, utf8ByteSize_render_cons none]
        omega

theorem le_start_of_mem_placeAll {start : Nat} {members : List Member} {segment : Segment}
    (found : segment ∈ placeAll start members) : start ≤ segment.span.start := by
  induction members generalizing start with
  | nil => cases found
  | cons member members induction =>
      rcases List.mem_cons.mp found with rfl | later
      · exact Nat.le_refl start
      · have := induction later
        omega

theorem placeAll_increasing (start : Nat) (members : List Member) :
    (placeAll start members).Pairwise fun left right => left.span.stop < right.span.start := by
  induction members generalizing start with
  | nil => exact .nil
  | cons member members induction =>
      refine .cons ?_ (induction (start + member.width + 1))
      intro right later
      exact le_start_of_mem_placeAll later

theorem covers_parts (members : List Member) (before : String) :
    ∀ part ∈ (Path.dotted (placeAll before.utf8ByteSize members)).parts,
      Text.Covers (before ++ render members) part.span part.display := by
  induction members generalizing before with
  | nil => simp [placeAll, Path.dotted, Path.parts, Part.weave]
  | cons member members induction =>
      have first (after : String) : Text.Covers (before ++ member.display ++ after)
          (member.placed before.utf8ByteSize).span member.display := by
        refine ⟨before, after, rfl, ?_⟩
        rw [String.utf8ByteSize_append, utf8ByteSize_display]
        rfl
      -- A dot and the other members come behind this one, unless it is the last.
      by_cases none : members = []
      · subst none
        intro part found
        cases List.mem_singleton.mp found
        rw [render_singleton, ← String.append_empty (s := before ++ member.display)]
        exact first ""
      · have dot : Text.Covers (before ++ member.display ++ "." ++ render members)
            (member.placed before.utf8ByteSize).dot "." := by
          refine ⟨before ++ member.display, render members, rfl, ?_⟩
          simp only [String.utf8ByteSize_append, utf8ByteSize_display]
          rfl
        have start : (before ++ member.display ++ ".").utf8ByteSize =
            before.utf8ByteSize + member.width + 1 := by
          simp only [String.utf8ByteSize_append, utf8ByteSize_display]
          rfl
        have later := induction (before ++ member.display ++ ".")
        rw [start] at later
        have placed := placeAll_ne_nil none (before.utf8ByteSize + member.width + 1)
        rw [placeAll, Path.parts_dotted_cons placed, render_cons none, ← String.append_assoc,
          ← String.append_assoc]
        intro part found
        cases found with
        | head =>
            rw [String.append_assoc]
            exact first ("." ++ render members)
        | tail _ found =>
            cases found with
            | head => exact dot
            | tail _ found => exact later part found

end Member

theorem Member.shown_placed {source : String} {member : Member} {start : Nat}
    (covers : Text.Covers source (member.placed start).span member.display) :
    (member.placed start).Shown source := by
  obtain ⟨kind, name⟩ := member
  cases kind with
  | property =>
      have same : (⟨start, start + name.utf8ByteSize⟩ : Span) =
          ⟨start, start + Member.width ⟨.property, name⟩⟩ := by
        rw [Member.width_property]
      refine ⟨rfl, ?_, fun _ => same.symm, by rintro ⟨⟩⟩
      change Text.slice? source ⟨start, start + name.utf8ByteSize⟩ = _
      rw [same]
      exact covers.slice?_eq
  | method =>
      have stop : start + Member.width ⟨.method, name⟩ = start + name.utf8ByteSize + 2 := by
        rw [Member.width_method, Nat.add_assoc]
      have covers : Text.Covers source ⟨start, start + name.utf8ByteSize + 2⟩ (name ++ "()") :=
        stop ▸ covers
      refine ⟨rfl, covers.left.slice?_eq, by rintro ⟨⟩, fun _ => ?_⟩
      refine ⟨⟨start + name.utf8ByteSize, start + name.utf8ByteSize + 2⟩, ?_, ?_, stop.symm,
        covers.right.slice?_eq⟩
      · change Span.make (start + name.utf8ByteSize) (start + Member.width ⟨.method, name⟩) = _
        rw [stop]
        exact Span.make_of_le (Nat.le_add_right _ 2)
      · change Offset.sub (start + name.utf8ByteSize + 2) (start + name.utf8ByteSize) = _
        rw [Offset.sub, if_pos (Nat.le_add_right _ 2), Nat.add_sub_cancel_left]

theorem Segment.getElem?_dots {segments : List Segment} {index : Nat} {dot : Span}
    (found : (dots segments)[index]? = some dot) :
    ∃ left right, segments[index]? = some left ∧ segments[index + 1]? = some right ∧
      dot = left.dot := by
  rw [dots, List.getElem?_map, List.getElem?_dropLast] at found
  obtain ⟨left, inside, rfl⟩ := Option.map_eq_some_iff.mp found
  obtain ⟨bound, some⟩ := Option.ite_none_right_eq_some.mp inside
  have next : index + 1 < segments.length := by omega
  exact ⟨left, segments[index + 1], some, List.getElem?_eq_getElem next, rfl⟩

namespace Path

theorem display_placed (members : List Member) :
    (placed members).display = Member.render members := by
  rw [display_eq_render, members_placed]

theorem covers_parts_placed (members : List Member) (rest : String) :
    ∀ part ∈ (placed members).parts,
      Text.Covers (Member.render members ++ rest) part.span part.display := by
  intro part found
  have covers := Member.covers_parts members "" part found
  rw [String.empty_append] at covers
  exact covers.append rest

theorem covers_segment_placed {members : List Member} (rest : String) {segment : Segment}
    (found : segment ∈ (placed members).segments) :
    Text.Covers (Member.render members ++ rest) segment.span segment.display :=
  covers_parts_placed members rest (.segment segment)
    (mem_parts_iff.mpr (.inl (List.mem_map_of_mem found)))

theorem covers_separator_placed {members : List Member} (rest : String) {dot : Span}
    (found : dot ∈ (placed members).separators) :
    Text.Covers (Member.render members ++ rest) dot "." :=
  covers_parts_placed members rest (.separator dot)
    (mem_parts_iff.mpr (.inr (List.mem_map_of_mem found)))

theorem shown_placed {members : List Member} (rest : String) {segment : Segment}
    (found : segment ∈ (placed members).segments) :
    segment.Shown (Member.render members ++ rest) := by
  have covers := covers_segment_placed rest found
  obtain ⟨start, isPlaced⟩ := Member.mem_placeAll found
  rw [isPlaced] at covers ⊢
  exact Member.shown_placed covers

theorem separates_placed {members : List Member} (rest : String) {index : Nat} {dot : Span}
    (found : (placed members).separators[index]? = some dot) :
    ∃ left right, (placed members).segments[index]? = some left ∧
      (placed members).segments[index + 1]? = some right ∧
      dot.Separates (Member.render members ++ rest) left right := by
  have covers := covers_separator_placed rest (List.mem_of_getElem? found)
  obtain ⟨left, right, leftFound, rightFound, rfl⟩ := Segment.getElem?_dots found
  refine ⟨left, right, leftFound, rightFound, ?_, rfl, ?_, covers.slice?_eq⟩
  · rw [Span.length, Offset.sub, Segment.dot, if_pos (Nat.le_add_right _ 1),
      Nat.add_sub_cancel_left]
  · exact (Member.start_of_placeAll_succ leftFound rightFound).symm

theorem span_placed {members : List Member} (nonempty : members ≠ []) :
    (placed members).span = .ok (some ⟨0, (Member.render members).utf8ByteSize⟩) := by
  have some : (placed members).segments ≠ [] := Member.placeAll_ne_nil nonempty 0
  obtain ⟨first, head⟩ := Option.ne_none_iff_exists'.mp (mt List.head?_eq_none_iff.mp some)
  obtain ⟨last, tail⟩ := Option.ne_none_iff_exists'.mp (mt List.getLast?_eq_none_iff.mp some)
  have start : first.span.start = 0 := Member.start_of_head?_placeAll head
  have stop : last.span.stop = (Member.render members).utf8ByteSize := by
    rw [Member.stop_of_getLast?_placeAll tail, Nat.zero_add]
  have inside : first.span.stop ≤ (Member.render members).utf8ByteSize := by
    rw [← String.append_empty (s := Member.render members)]
    exact (covers_segment_placed "" (List.mem_of_mem_head? head)).stop_le
  have hull : first.span.hull last.span = ⟨0, (Member.render members).utf8ByteSize⟩ := by
    rw [Span.hull, start, stop, Nat.zero_min, Nat.max_eq_right inside]
  have covered : first.span.cover last.span = .ok ⟨0, (Member.render members).utf8ByteSize⟩ := by
    rw [← hull]
    apply Span.cover_eq_hull
    rw [hull]
    exact Nat.zero_le _
  simp only [span, first?, last?, head, tail, covered]
  rfl

theorem nonempty_of_mem_placed {members : List Member} (named : ∀ member ∈ members, member.Named)
    {segment : Segment} (found : segment ∈ (placed members).segments) :
    segment.span.start < segment.span.stop := by
  have member : segment.member ∈ members := by
    rw [← members_placed members]
    exact List.mem_map_of_mem found
  obtain ⟨start, isPlaced⟩ := Member.mem_placeAll found
  rw [isPlaced]
  exact Nat.lt_add_of_pos_right (named _ member).width_pos

theorem tiles_placed {members : List Member} (readable : Member.Readable members)
    (rest : String) : (placed members).Tiles (Member.render members ++ rest) where
  start _ head := Member.start_of_head?_placeAll head
  segments _ found := shown_placed rest found
  separators _ _ found := separates_placed rest found
  span := by
    rw [display_placed]
    exact span_placed readable.nonempty
  slices := by
    refine ⟨(placed members).parts.map Part.display, ?_, join_parts _⟩
    rw [walkedSpans_eq, List.map_map, List.map_map]
    apply List.map_congr_left
    intro part found
    exact (covers_parts_placed members rest part found).slice?_eq
  head := ⟨rest, by rw [display_placed]⟩
  nonempty _ found := nonempty_of_mem_placed readable.named found
  increasing := Member.placeAll_increasing 0 members

theorem ofString_cases (source : String) :
    ofString source = .empty ∨
      Member.Readable (ofString source).members ∧
        ∃ rest, source = Member.render (ofString source).members ++ rest := by
  rcases (reads_ofString source).longest with ⟨none, _⟩ | ⟨text, longest, sentence⟩
  · exact .inl (eq_empty none)
  · have sentence : Sentence (ofString source).members text := sentence
    obtain ⟨rest, spelled, _⟩ := longest.usable.cut
    refine .inr ⟨sentence.readable, String.ofList rest, ?_⟩
    rw [← String.toList_inj, spelled, String.toList_append, sentence.toList_render,
      String.toList_ofList]

theorem covers_segment {source : String} {segment : Segment}
    (found : segment ∈ (ofString source).segments) :
    Text.Covers source segment.span segment.display := by
  rcases ofString_cases source with nothing | ⟨_, rest, spelled⟩
  · rw [nothing] at found
    cases found
  · rw [ofString_eq_placed] at found
    have covers := covers_segment_placed rest found
    rwa [← spelled] at covers

/-- The parts of a path lie one behind the other on the head of the text that it comes from. -/
theorem ofString_tiles (source : String) (kept : (ofString source).isEmpty = false) :
    (ofString source).Tiles source := by
  rcases ofString_cases source with nothing | ⟨readable, rest, spelled⟩
  · rw [nothing] at kept
    cases kept
  · have tiles := tiles_placed readable rest
    rwa [← spelled, ← ofString_eq_placed] at tiles

theorem ofString_tiles_unfinished :
    (ofString "ab.m().é").isEmpty = false ∧ (ofString "ab.m().é").Tiles "ab.m().é" := by
  have kept : (ofString "ab.m().é").isEmpty = false := by decide +kernel
  exact ⟨kept, ofString_tiles "ab.m().é" kept⟩

end Path

end LensPath
