import LensPath.Span

/-!
The steps of a path: a property such as `city`, or a call without arguments such as `total()`.
-/

namespace LensPath

inductive MemberKind
  | property
  | method
deriving DecidableEq, Repr

/-- One step of a path. The span of a method takes in the `()` after its name. -/
structure Segment where
  kind : MemberKind
  name : String
  nameSpan : Span
  span : Span
deriving DecidableEq, Repr

namespace Segment

def property (name : String) (start : Nat) : Except Fault Segment := do
  let stop ← Offset.add start name.utf8ByteSize
  let span ← Span.make start stop
  return ⟨.property, name, span, span⟩

def method (name : String) (start : Nat) : Except Fault Segment := do
  let nameStop ← Offset.add start name.utf8ByteSize
  let nameSpan ← Span.make start nameStop
  let stop ← Offset.add nameStop 2
  let span ← Span.make start stop
  return ⟨.method, name, nameSpan, span⟩

def isMethod (segment : Segment) : Bool := segment.kind == .method

/-- The bytes between the name and the end of the segment: the `()` of a method. -/
def callSpan (segment : Segment) : Except Fault Span :=
  Span.make segment.nameSpan.stop segment.span.stop

def display (segment : Segment) : String :=
  match segment.kind with
  | .property => segment.name
  | .method => segment.name ++ "()"

end Segment

end LensPath
