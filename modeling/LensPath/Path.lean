import LensPath.Path.Segment

/-!
Paths: segments in source order with one separator between each two neighbours.
-/

namespace LensPath

structure Path where
  segments : List Segment
  separators : List Span
  balanced : separators.length = segments.length - 1
deriving DecidableEq, Repr

namespace Path

def empty : Path := ⟨[], [], rfl⟩

/-- A path from its parts, when there is one separator between each two segments. -/
def ofParts? (segments : List Segment) (separators : List Span) : Option Path :=
  if balanced : separators.length = segments.length - 1 then
    some ⟨segments, separators, balanced⟩
  else none

/-- A separator one byte wide right after each segment but the last. -/
def separatorsBetween : List Segment → Except Fault (List Span)
  | [] => .ok []
  | [_] => .ok []
  | segment :: next :: rest => do
      let stop ← Offset.add segment.span.stop 1
      let separator ← Span.make segment.span.stop stop
      let separators ← separatorsBetween (next :: rest)
      return separator :: separators

theorem separatorsBetween_length {segments : List Segment} {separators : List Span}
    (built : separatorsBetween segments = .ok separators) :
    separators.length = segments.length - 1 := by
  induction segments generalizing separators with
  | nil => cases built; rfl
  | cons segment rest induction =>
      cases rest with
      | nil => cases built; rfl
      | cons next rest =>
          simp only [separatorsBetween, bind, Except.bind] at built
          split at built
          · cases built
          · split at built
            · cases built
            · split at built
              · cases built
              · next after rebuilt =>
                  cases built
                  have := induction rebuilt
                  simp only [List.length_cons] at this ⊢
                  omega

def ofSegments (segments : List Segment) : Except Fault Path :=
  match built : separatorsBetween segments with
  | .ok separators => .ok ⟨segments, separators, separatorsBetween_length built⟩
  | .error fault => .error fault

def length (path : Path) : Nat := path.segments.length

def isEmpty (path : Path) : Bool := path.segments.isEmpty

def first? (path : Path) : Option Segment := path.segments.head?

def last? (path : Path) : Option Segment := path.segments.getLast?

/-- The bytes from the first segment to the last; `none` for the empty path. -/
def span (path : Path) : Except Fault (Option Span) :=
  match path.first?, path.last? with
  | some first, some last => some <$> first.span.cover last.span
  | _, _ => .ok none

def display (path : Path) : String := ".".intercalate (path.segments.map Segment.display)

def methodCount (path : Path) : Nat := path.segments.countP Segment.isMethod

end Path

end LensPath
