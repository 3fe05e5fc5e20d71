import LensPath.Diagnostic
import LensPath.Path.Reading
import LensPath.Resolution
import LensPath.Text.Basic

/-!
Inspection of lens declarations against a type model. A lens has at most one problem: a blank
path, else the first missing member, else a method call in the place that it writes to.
-/

namespace LensPath

/-- A receiver of diagnostics, as a change of its state by each of them. -/
abbrev Sink (σ : Type u) := Diagnostic → σ → σ

namespace Sink

def collecting : Sink (List Diagnostic) := fun diagnostic reported => reported ++ [diagnostic]

/-- Reports a diagnostic. What a sink has received it keeps, also when a fault comes later. -/
def report (sink : Sink σ) (diagnostic : Diagnostic) : EStateM Fault σ Unit :=
  modify (sink diagnostic)

end Sink

namespace TypeModel

def missingDiagnostic (model : TypeModel τ) (failure : MissingMember τ) : Diagnostic :=
  let type := model.presentableName failure.lookedUpOn
  match failure.segment.kind with
  | .property => .propertyNotFound failure.segment.name failure.segment.span type
  | .method => .methodNotFound failure.segment.name failure.segment.span type

def diagnosePath (model : TypeModel τ) (root : τ) (mode : Lens.Mode) (path : Path) :
    Option Diagnostic :=
  let resolution := model.resolve root path
  match resolution with
  | .missing failure => some (model.missingDiagnostic failure)
  | .resolved _ =>
      (path.writeViolation resolution mode).map fun violation =>
        .methodWritten violation.name violation.span

/-- Reports what is wrong with a lens to a sink, with spans in the text around it. -/
def checkInto (model : TypeModel τ) (root : τ) (sink : Sink σ) (lens : Lens) :
    EStateM Fault σ Unit := do
  if Text.isBlank lens.path then
    sink.report .blankPath
  else
    let path := Path.ofString lens.path
    if path.isEmpty then
      return
    match model.diagnosePath root lens.mode path with
    | none => return
    | some diagnostic =>
        let shifted ← MonadExcept.ofExcept (diagnostic.shift lens.offset)
        sink.report shifted

def checkAllInto (model : TypeModel τ) (root : τ) (sink : Sink σ) (lenses : List Lens)
    (state : σ) : σ × Option Fault :=
  match (lenses.forM (model.checkInto root sink)).run state with
  | .ok _ reported => (reported, none)
  | .error fault reported => (reported, some fault)

def check (model : TypeModel τ) (root : τ) (lens : Lens) : Except Fault (List Diagnostic) :=
  match (model.checkInto root .collecting lens).run [] with
  | .ok _ reported => .ok reported
  | .error fault _ => .error fault

/-- The diagnostics of each lens declared on a type; `none` if the type hosts no lenses. -/
def inspect (model : TypeModel τ) (root : τ) (lenses : List Lens) :
    Except Fault (Option (List (List Diagnostic))) :=
  if model.isHost root then some <$> lenses.mapM (model.check root) else .ok none

end TypeModel

end LensPath
