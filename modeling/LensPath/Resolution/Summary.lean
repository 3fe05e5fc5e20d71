import LensPath.Resolution

/-!
The summary of a resolution: the root, each segment that was found with the type of its member,
and where the walk stopped before the end of the path.
-/

namespace LensPath

def Segment.hop (segment : Segment) (type : String) : String :=
  " -> " ++ segment.display ++ ": " ++ type

def Segment.opaqueNote (segment : Segment) : String :=
  "\n(segments after '" ++ segment.display ++ "' not checked: type is opaque)"

namespace Resolved

def hops (result : Resolved τ) (presentableName : τ → String) (path : Path) :
    Except Fault String :=
  String.join <$> result.steps.mapM fun step => do
    let segment ← Offset.item path.segments step.index
    return segment.hop (presentableName step.memberType)

def note (result : Resolved τ) (path : Path) : Except Fault String :=
  match result.opaqueAt with
  | some index =>
      if index + 1 < path.length then Segment.opaqueNote <$> Offset.item path.segments index
      else .ok ""
  | none => .ok ""

end Resolved

def TypeModel.summary (model : TypeModel τ) (root : τ) (path : Path) : Except Fault String :=
  match model.resolve root path with
  | .resolved result => do
      let hops ← result.hops model.presentableName path
      let note ← result.note path
      return model.presentableName root ++ hops ++ note
  | .missing _ => return model.presentableName root

end LensPath
