import LensPath.Path

/-!
Walks along a path. A visitor carries a state through the parts of a path in source order and
may halt the walk at any part. The outline of a path is gathered by such a walk: the path itself,
and the place of each of its parts, one part a line.
-/

namespace LensPath

inductive Flow (σ : Type u)
  | proceed (state : σ)
  | halt (state : σ)
deriving DecidableEq, Repr

namespace Flow

def state : Flow σ → σ
  | proceed state | halt state => state

def halted : Flow σ → Bool
  | proceed _ => false
  | halt _ => true

def andThen : Flow σ → (σ → Flow σ) → Flow σ
  | proceed state, next => next state
  | halt state, _ => halt state

@[simp] theorem proceed_andThen (state : σ) (next : σ → Flow σ) :
    (proceed state).andThen next = next state := rfl

@[simp] theorem halt_andThen (state : σ) (next : σ → Flow σ) :
    (halt state).andThen next = halt state := rfl

end Flow

structure Visitor (σ : Type u) where
  property : Segment → σ → Flow σ
  method : Segment → σ → Flow σ
  separator : Span → σ → Flow σ := fun _ state => .proceed state

def Visitor.segment (visitor : Visitor σ) (segment : Segment) : σ → Flow σ :=
  match segment.kind with
  | .property => visitor.property segment
  | .method => visitor.method segment

namespace Path

def separatorBefore (path : Path) (index : Nat) (inRange : index < path.length)
    (later : 0 < index) : Span :=
  have bound : index - 1 < path.separators.length := by
    have balanced := path.balanced
    unfold length at inRange
    omega
  path.separators[index - 1]

def walkFrom (path : Path) (visitor : Visitor σ) (index : Nat) (state : σ) : Flow σ :=
  if inRange : index < path.length then
    let entered :=
      if later : 0 < index then
        visitor.separator (path.separatorBefore index inRange later) state
      else .proceed state
    have bound : index < path.segments.length := inRange
    (entered.andThen (visitor.segment path.segments[index])).andThen
      (path.walkFrom visitor (index + 1))
  else .proceed state
termination_by path.length - index

def walk (path : Path) (visitor : Visitor σ) (state : σ) : Flow σ :=
  path.walkFrom visitor 0 state

/-! ## Outlines -/

def outlineLine (label : String) (span : Span) : String :=
  "  " ++ label ++ " @" ++ span.display ++ "\n"

def outliner : Visitor (List String) where
  property segment lines :=
    .proceed (outlineLine ("Property " ++ segment.display) segment.span :: lines)
  method segment lines :=
    .proceed (outlineLine ("Method " ++ segment.display) segment.span :: lines)
  separator span lines := .proceed (outlineLine "Dot" span :: lines)

def outline (path : Path) : String :=
  "Path \"" ++ path.display ++ "\"\n" ++ String.join (path.walk outliner []).state.reverse

end Path

end LensPath
