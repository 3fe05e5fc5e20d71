import LensPath.Log
import LensPath.Manifest
import LensPath.Text.Quoted

/-!
The events of each activity, from what the activity came to. Texts are quoted in fields, save
those of segments and file names.
-/

namespace LensPath

open Log (Event)

def Lexed.events (lexed : Lexed) : List Event :=
  match lexed.stray with
  | some stray =>
      [{ level := .trace
         target := "lens_lexer"
         message := "lens path lexing stopped at unexpected character"
         fields := [("at", toString stray.offset)] }]
  | none => []

def Reading.recoveryEvents (reading : Reading) (source : String) : List Event :=
  match reading.problem with
  | some problem =>
      [{ level := .debug
         target := "lens_parser"
         message := "lens path recovered to its longest valid prefix: " ++ problem.message
         fields := [
           ("path", Text.quoted source),
           ("kept", toString reading.path.length),
           ("at", toString problem.span.start)] }]
  | none => []

def Reading.events (source : String) : List Event :=
  let lexed := Lexed.ofString source
  lexed.events ++ (Reading.ofLexed lexed).recoveryEvents source

namespace Progress

def foundEvent (segment : Segment) (step : ResolvedStep String) : Event where
  level := .trace
  target := "lens_resolve::resolve"
  message := "lens path segment resolved"
  fields := [("segment", segment.display), ("ty", Text.quoted step.memberType)]

def opaqueEvent (segment : Segment) (index : Nat) : Event where
  level := .debug
  target := "lens_resolve::resolve"
  message := "stopping at opaque type"
  fields := [("segment", segment.display), ("index", toString index)]

def missingEvent (failure : MissingMember String) : Event where
  level := .debug
  target := "lens_resolve::resolve"
  message := "lens path segment not found"
  fields := [
    ("segment", failure.segment.display),
    ("index", toString failure.index),
    ("on", Text.quoted failure.lookedUpOn)]

def events (progress : Progress String) (path : Path) : List Event :=
  List.zipWith foundEvent path.segments progress.steps ++
    (progress.opaqueAt.bind fun index =>
      path.segments[index]?.map fun segment => opaqueEvent segment index).toList ++
    (progress.missing.map missingEvent).toList

end Progress

namespace TypeModel

def resolveEvents (model : TypeModel String) (root : String) (path : Path) : List Event :=
  (model.explore root path).events path

def checkEvents (model : TypeModel String) (root : String) (lens : Lens) : List Event :=
  if Text.isBlank lens.path then []
  else Reading.events lens.path ++ model.resolveEvents root (.ofString lens.path)

def inspectEvents (model : TypeModel String) (root : String) (lenses : List Lens) :
    List Event :=
  if model.isHost root then lenses.flatMap (model.checkEvents root)
  else
    [{ level := .debug
       target := "lens_check::checker"
       message := "skipping lens checks on non-host type"
       fields := [("root", Text.quoted root)] }]

end TypeModel

def Manifest.inspectEvents (manifest : Manifest) : List Event :=
  manifest.groups.flatMap fun (root, lenses) =>
    let skipped : Event :=
      { level := .warn
        target := "lensc"
        message := "not a lens host, skipping"
        fields := [("root", Text.quoted root), ("lenses", toString lenses.length)] }
    manifest.model.model.inspectEvents root lenses ++
      if manifest.model.model.isHost root then [] else [skipped]

end LensPath
