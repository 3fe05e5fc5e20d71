import LensPath.Path.Walk

/-!
Paths as lists of their parts: the segments, with a separator before each of them but the first. A
walk visits the parts one after the other until a visit halts.
-/

namespace LensPath

inductive Part
  | segment (segment : Segment)
  | separator (span : Span)
deriving DecidableEq, Repr

namespace Part

def span : Part → Span
  | segment found => found.span
  | separator span => span

def display : Part → String
  | segment found => found.display
  | separator _ => "."

def separated : List Span → List Segment → List Part
  | span :: spans, next :: rest => separator span :: segment next :: separated spans rest
  | _, _ => []

def weave : List Segment → List Span → List Part
  | [], _ => []
  | first :: rest, spans => segment first :: separated spans rest

@[simp] theorem separated_nil (spans : List Span) : separated spans [] = [] := by
  cases spans <;> rfl

theorem weave_of_pos {segments : List Segment} (bound : 0 < segments.length)
    (spans : List Span) :
    weave segments spans = segment segments[0] :: separated spans (segments.drop 1) := by
  cases segments with
  | nil => exact absurd bound (Nat.lt_irrefl 0)
  | cons first rest => rfl

theorem weave_cons {rest : List Segment} (nonempty : rest ≠ []) (first : Segment) (span : Span)
    (spans : List Span) :
    weave (first :: rest) (span :: spans) =
      segment first :: separator span :: weave rest spans := by
  obtain ⟨next, rest, rfl⟩ := List.exists_cons_of_ne_nil nonempty
  rfl

theorem join_weave {first : Segment} {rest : List Segment} {spans : List Span}
    (balanced : spans.length = rest.length) :
    String.join ((weave (first :: rest) spans).map display) =
      ".".intercalate ((first :: rest).map Segment.display) := by
  induction rest generalizing first spans with
  | nil => simp [weave, display]
  | cons next rest induction =>
      obtain ⟨span, spans, rfl⟩ := List.exists_cons_of_length_eq_add_one balanced
      have shorter : spans.length = rest.length := Nat.succ.inj balanced
      rw [weave_cons (List.cons_ne_nil next rest), List.map_cons, List.map_cons, String.join_cons,
        String.join_cons, induction shorter, List.map_cons (a := first),
        String.intercalate_cons_of_ne_nil (by simp), String.append_assoc]
      rfl

theorem mem_weave_iff {first : Segment} {rest : List Segment} {spans : List Span} {part : Part}
    (balanced : spans.length = rest.length) :
    part ∈ weave (first :: rest) spans ↔
      part ∈ (first :: rest).map segment ∨ part ∈ spans.map separator := by
  induction rest generalizing first spans with
  | nil =>
      cases List.length_eq_zero_iff.mp balanced
      simp [weave]
  | cons next rest induction =>
      obtain ⟨span, spans, rfl⟩ := List.exists_cons_of_length_eq_add_one balanced
      rw [weave_cons (List.cons_ne_nil next rest), List.mem_cons, List.mem_cons,
        induction (Nat.succ.inj balanced), List.map_cons (a := first), List.map_cons (a := span),
        List.mem_cons (b := segment first), List.mem_cons (b := separator span)]
      exact or_assoc.symm.trans or_or_or_comm

end Part

namespace Path

def parts (path : Path) : List Part := Part.weave path.segments path.separators

theorem mem_parts_iff {path : Path} {part : Part} :
    part ∈ path.parts ↔
      part ∈ path.segments.map Part.segment ∨ part ∈ path.separators.map Part.separator := by
  obtain ⟨segments, separators, balanced⟩ := path
  cases segments with
  | nil =>
      cases List.length_eq_zero_iff.mp balanced
      simp [parts, Part.weave]
  | cons first rest => exact Part.mem_weave_iff balanced

theorem join_parts (path : Path) : String.join (path.parts.map Part.display) = path.display := by
  obtain ⟨segments, separators, balanced⟩ := path
  cases segments with
  | nil => rfl
  | cons first rest => exact Part.join_weave balanced

end Path

theorem Flow.andThen_assoc (flow : Flow σ) (next after : σ → Flow σ) :
    (flow.andThen next).andThen after = flow.andThen fun state => (next state).andThen after := by
  cases flow <;> rfl

namespace Visitor

def part (visitor : Visitor σ) : Part → σ → Flow σ
  | .segment segment => visitor.segment segment
  | .separator span => visitor.separator span

def visitParts (visitor : Visitor σ) : List Part → σ → Flow σ
  | [], state => .proceed state
  | part :: rest, state => (visitor.part part state).andThen (visitor.visitParts rest)

@[simp] theorem visitParts_nil (visitor : Visitor σ) (state : σ) :
    visitor.visitParts [] state = .proceed state := rfl

@[simp] theorem visitParts_cons (visitor : Visitor σ) (part : Part) (rest : List Part)
    (state : σ) :
    visitor.visitParts (part :: rest) state =
      (visitor.part part state).andThen (visitor.visitParts rest) := rfl

end Visitor

namespace Path

theorem walkFrom_succ_eq_visitParts (path : Path) (visitor : Visitor σ) (index : Nat)
    (state : σ) :
    path.walkFrom visitor (index + 1) state =
      visitor.visitParts
        (Part.separated (path.separators.drop index) (path.segments.drop (index + 1))) state := by
  -- On what is left of the path; `separators[index]` stands before `segments[index + 1]`.
  induction remaining : path.length - (index + 1) generalizing index state with
  | zero =>
      have past : ¬ index + 1 < path.length := by omega
      rw [walkFrom, dif_neg past, List.drop_of_length_le (i := index + 1) (Nat.le_of_not_lt past),
        Part.separated_nil, Visitor.visitParts_nil]
  | succ remaining induction =>
      have inRange : index + 1 < path.length := by omega
      have bound : index + 1 < path.segments.length := inRange
      have separated : index < path.separators.length := by
        have balanced := path.balanced
        omega
      rw [walkFrom, dif_pos inRange, dif_pos (Nat.succ_pos index),
        List.drop_eq_getElem_cons bound, List.drop_eq_getElem_cons separated, Part.separated,
        Visitor.visitParts_cons, Flow.andThen_assoc]
      apply congrArg
      funext entered
      rw [Visitor.visitParts_cons]
      apply congrArg
      funext next
      exact induction (index + 1) next (by omega)

theorem walk_eq_visitParts (path : Path) (visitor : Visitor σ) (state : σ) :
    path.walk visitor state = visitor.visitParts path.parts state := by
  rw [walk, walkFrom, parts]
  by_cases some : 0 < path.length
  · have bound : 0 < path.segments.length := some
    rw [dif_pos some, dif_neg (Nat.lt_irrefl 0), Part.weave_of_pos bound, Visitor.visitParts_cons]
    change (visitor.segment path.segments[0] state).andThen (path.walkFrom visitor 1) =
      (visitor.segment path.segments[0] state).andThen _
    apply congrArg
    funext next
    exact path.walkFrom_succ_eq_visitParts visitor 0 next
  · have none : path.segments = [] := List.length_eq_zero_iff.mp (Nat.eq_zero_of_not_pos some)
    rw [dif_neg some, none]
    rfl

end Path

def Visitor.spans : Visitor (List Span) where
  property segment spans := .proceed (spans ++ [segment.span])
  method segment spans := .proceed (spans ++ [segment.span])
  separator span spans := .proceed (spans ++ [span])

theorem Visitor.spans_part (part : Part) (found : List Span) :
    spans.part part found = .proceed (found ++ [part.span]) := by
  cases part with
  | segment segment =>
      cases kind : segment.kind <;> simp only [Visitor.part, Visitor.segment, kind] <;> rfl
  | separator span => rfl

theorem Visitor.visitParts_spans (parts : List Part) (found : List Span) :
    spans.visitParts parts found = .proceed (found ++ parts.map Part.span) := by
  induction parts generalizing found with
  | nil => simp
  | cons part rest induction =>
      rw [visitParts_cons, spans_part, Flow.proceed_andThen, induction]
      simp

def Path.walkedSpans (path : Path) : List Span := (path.walk Visitor.spans []).state

theorem Path.walkedSpans_eq (path : Path) : path.walkedSpans = path.parts.map Part.span := by
  rw [walkedSpans, walk_eq_visitParts, Visitor.visitParts_spans]
  rfl

end LensPath
