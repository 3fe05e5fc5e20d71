import LensPath.Lens
import LensPath.Path.Walk
import LensPath.TypeModel

/-!
Resolution of a path against a type model. Each segment is looked up on the type reached so far.
The walk ends early at the first segment that does not exist, and at the first member whose type
is opaque: nothing after it can be shown to be wrong.
-/

namespace LensPath

structure ResolvedStep (τ : Type) where
  index : Nat
  memberType : τ
deriving DecidableEq, Repr

/-- A walk that met no missing member. -/
structure Resolved (τ : Type) where
  steps : List (ResolvedStep τ)
  /-- The segment whose type is opaque; the segments after it were not looked up. -/
  opaqueAt : Option Nat
deriving DecidableEq, Repr

structure MissingMember (τ : Type) where
  index : Nat
  segment : Segment
  lookedUpOn : τ
deriving DecidableEq, Repr

inductive Resolution (τ : Type)
  | resolved (result : Resolved τ)
  | missing (failure : MissingMember τ)
deriving DecidableEq, Repr

namespace Resolved

def finalType (result : Resolved τ) : Option τ := result.steps.getLast?.map (·.memberType)

def covers (result : Resolved τ) (path : Path) : Bool := result.steps.length == path.length

end Resolved

namespace Resolution

def resolved? : Resolution τ → Option (Resolved τ)
  | resolved result => some result
  | missing _ => none

def missing? : Resolution τ → Option (MissingMember τ)
  | resolved _ => none
  | missing failure => some failure

def isResolved (resolution : Resolution τ) : Bool := resolution.resolved?.isSome

end Resolution

structure Progress (τ : Type) where
  current : τ
  index : Nat
  steps : List (ResolvedStep τ)
  opaqueAt : Option Nat
  missing : Option (MissingMember τ)
deriving DecidableEq, Repr

namespace Progress

def start (root : τ) : Progress τ := ⟨root, 0, [], none, none⟩

def resolution (progress : Progress τ) : Resolution τ :=
  match progress.missing with
  | some failure => .missing failure
  | none => .resolved ⟨progress.steps, progress.opaqueAt⟩

def advance (model : TypeModel τ) (segment : Segment) (found : Option τ)
    (progress : Progress τ) : Flow (Progress τ) :=
  match found with
  | none =>
      .halt { progress with missing := some ⟨progress.index, segment, progress.current⟩ }
  | some memberType =>
      let steps := progress.steps ++ [⟨progress.index, memberType⟩]
      match model.inspectable memberType with
      | some next =>
          .proceed { progress with current := next, index := progress.index + 1, steps := steps }
      | none => .halt { progress with steps := steps, opaqueAt := some progress.index }

end Progress

namespace TypeModel

def fieldTypeOn (model : TypeModel τ) (type : τ) (name : String) : Option τ :=
  (model.findField type name).map model.fieldType

def returnTypeOn (model : TypeModel τ) (type : τ) (name : String) : Option τ :=
  (model.findMethod type name).map model.returnType

/-- Looks up each segment on the type reached so far. -/
def resolver (model : TypeModel τ) : Visitor (Progress τ) where
  property segment progress :=
    progress.advance model segment (model.fieldTypeOn progress.current segment.name)
  method segment progress :=
    progress.advance model segment (model.returnTypeOn progress.current segment.name)

def explore (model : TypeModel τ) (root : τ) (path : Path) : Progress τ :=
  (path.walk model.resolver (.start root)).state

def resolve (model : TypeModel τ) (root : τ) (path : Path) : Resolution τ :=
  (model.explore root path).resolution

end TypeModel

structure WriteViolation where
  index : Nat
  name : String
  span : Span
deriving DecidableEq, Repr

/-- A lens that writes must end in a property. This is held against a path only when all of it
was looked up. -/
def Path.writeViolation (path : Path) (resolution : Resolution τ) (mode : Lens.Mode) :
    Option WriteViolation :=
  match mode, resolution with
  | .write, .resolved result =>
      if result.covers path then
        match path.last? with
        | some segment =>
            match segment.kind with
            | .method => some ⟨path.length - 1, segment.name, segment.span⟩
            | .property => none
        | none => none
      else none
  | _, _ => none

end LensPath
