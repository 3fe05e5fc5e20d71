import LensPath.Path.Reading
import LensPath.Path.Walk
import LensPath.Text.Basic

/-!
Highlights of the parts of a path: names, the `()` of calls, and dots.
-/

namespace LensPath

inductive Highlight.Kind
  | field
  | method
  | call
  | dot
deriving DecidableEq, Repr

def Highlight.Kind.display : Highlight.Kind → String
  | field => "Field"
  | method => "Method"
  | call => "Call"
  | dot => "Dot"

structure Highlight where
  kind : Highlight.Kind
  span : Span
deriving DecidableEq, Repr

namespace Highlight

abbrev Marks := Except Fault (List Highlight)

def mark (offset : Nat) (kind : Kind) (span : Except Fault Span) (marks : Marks) :
    Flow Marks :=
  let marked : Marks := do
    let earlier ← marks
    let moved ← (← span).shift offset
    return ⟨kind, moved⟩ :: earlier
  match marked with
  | .ok _ => .proceed marked
  | .error _ => .halt marked

/-- Marks each part of a path; the name and the `()` of a method are marked apart. -/
def marker (offset : Nat) : Visitor Marks where
  property segment := mark offset .field (.ok segment.nameSpan)
  method segment marks :=
    (mark offset .method (.ok segment.nameSpan) marks).andThen
      (mark offset .call segment.callSpan)
  separator span := mark offset .dot (.ok span)

end Highlight

def Path.highlights (path : Path) (offset : Nat) : Except Fault (List Highlight) :=
  List.reverse <$> (path.walk (Highlight.marker offset) (.ok [])).state

def highlights (source : String) (offset : Nat) : Except Fault (List Highlight) :=
  if Text.isBlank source then .ok []
  else (Path.ofString source).highlights offset

end LensPath
