import LensPath.Proofs.Resolution
import Mathlib.Data.Set.Basic

/-!
Maps between the types of two models. Resolution asks a model for the members of types and for
nothing else, so a map that keeps members takes each resolution to the resolution among the images.
-/

namespace LensPath

def ResolvedStep.mapType (f : τ → ρ) (step : ResolvedStep τ) : ResolvedStep ρ :=
  ⟨step.index, f step.memberType⟩

def MissingMember.mapType (f : τ → ρ) (failure : MissingMember τ) : MissingMember ρ :=
  ⟨failure.index, failure.segment, f failure.lookedUpOn⟩

def Resolution.mapType (f : τ → ρ) : Resolution τ → Resolution ρ
  | .missing failure => .missing (failure.mapType f)
  | .resolved result => .resolved ⟨result.steps.map (.mapType f), result.opaqueAt⟩

namespace Progress

def mapType (f : τ → ρ) (progress : Progress τ) : Progress ρ where
  current := f progress.current
  index := progress.index
  steps := progress.steps.map (.mapType f)
  opaqueAt := progress.opaqueAt
  missing := progress.missing.map (.mapType f)

theorem resolution_mapType (f : τ → ρ) (progress : Progress τ) :
    (progress.mapType f).resolution = progress.resolution.mapType f := by
  cases missing : progress.missing <;>
    simp only [resolution, mapType, missing, Option.map_some, Option.map_none, Resolution.mapType]

end Progress

theorem Path.writeViolation_mapType (path : Path) (f : τ → ρ) (resolution : Resolution τ)
    (mode : Lens.Mode) :
    path.writeViolation (resolution.mapType f) mode = path.writeViolation resolution mode := by
  cases mode with
  | read => cases resolution <;> rfl
  | write =>
      cases resolution with
      | missing failure => rfl
      | resolved result =>
          simp only [Resolution.mapType, writeViolation, Resolved.covers, List.length_map]
          rfl

namespace TypeModel

/-- On known types a map of types goes with the types of members and with what can be looked
into. -/
structure HomOn (source : TypeModel τ) (target : TypeModel ρ) (f : τ → ρ) (known : Set τ) :
    Prop where
  fieldType : ∀ type ∈ known, ∀ name,
    target.fieldTypeOn (f type) name = (source.fieldTypeOn type name).map f
  returnType : ∀ type ∈ known, ∀ name,
    target.returnTypeOn (f type) name = (source.returnTypeOn type name).map f
  inspectable : ∀ type ∈ known,
    target.inspectable (f type) = (source.inspectable type).map f

abbrev Hom (source : TypeModel τ) (target : TypeModel ρ) (f : τ → ρ) : Prop :=
  source.HomOn target f Set.univ

structure Closed (model : TypeModel τ) (known : Set τ) : Prop where
  memberType? : ∀ type ∈ known, ∀ segment, ∀ found ∈ model.memberType? type segment,
    found ∈ known
  inspectable : ∀ type ∈ known, ∀ next ∈ model.inspectable type, next ∈ known

theorem closed_univ (model : TypeModel τ) : model.Closed Set.univ :=
  ⟨fun _ _ _ _ _ => trivial, fun _ _ _ _ => trivial⟩

variable {source : TypeModel τ} {target : TypeModel ρ} {f : τ → ρ} {known : Set τ}

theorem HomOn.memberType? (hom : source.HomOn target f known) {type : τ} (isKnown : type ∈ known)
    (segment : Segment) :
    target.memberType? (f type) segment = (source.memberType? type segment).map f := by
  cases kind : segment.kind with
  | property =>
      simp only [TypeModel.memberType?, kind]
      exact hom.fieldType type isKnown segment.name
  | method =>
      simp only [TypeModel.memberType?, kind]
      exact hom.returnType type isKnown segment.name

theorem HomOn.advance (hom : source.HomOn target f known) (segment : Segment)
    {found : Option τ} (isKnown : ∀ memberType ∈ found, memberType ∈ known)
    (progress : Progress τ) :
    (progress.mapType f).advance target segment (found.map f) =
      (progress.advance source segment found).map (.mapType f) := by
  cases found with
  | none => rfl
  | some memberType =>
      have mapped := hom.inspectable memberType (isKnown memberType rfl)
      cases inspected : source.inspectable memberType with
      | none =>
          rw [inspected] at mapped
          rw [Option.map_some, Progress.advance_opaque mapped, Progress.advance_opaque inspected]
          simp [Flow.map, Progress.mapType, ResolvedStep.mapType]
      | some next =>
          rw [inspected] at mapped
          rw [Option.map_some, Progress.advance_inspectable mapped,
            Progress.advance_inspectable inspected]
          simp [Flow.map, Progress.mapType, ResolvedStep.mapType]

theorem Closed.advance (closed : source.Closed known) {segment : Segment} {found : Option τ}
    (isKnown : ∀ memberType ∈ found, memberType ∈ known) {progress : Progress τ}
    (current : progress.current ∈ known) :
    (progress.advance source segment found).state.current ∈ known := by
  cases found with
  | none => exact current
  | some memberType =>
      cases inspected : source.inspectable memberType with
      | none =>
          rw [Progress.advance_opaque inspected]
          exact current
      | some next =>
          rw [Progress.advance_inspectable inspected]
          exact closed.inspectable memberType (isKnown memberType rfl) next inspected

/-- A map that keeps members takes a resolution from a known type to one from its image. -/
theorem HomOn.resolve (hom : source.HomOn target f known) (closed : source.Closed known) {root : τ}
    (rootKnown : root ∈ known) (path : Path) :
    target.resolve (f root) path = (source.resolve root path).mapType f := by
  have lookedUp (segment : Segment) (progress : Progress τ) (current : progress.current ∈ known) :
      ∀ memberType ∈ source.memberType? progress.current segment, memberType ∈ known :=
    closed.memberType? _ current segment
  have same (segment : Segment) (progress : Progress τ) (current : progress.current ∈ known) :
      target.resolver.segment segment (progress.mapType f) =
        (source.resolver.segment segment progress).map (.mapType f) := by
    rw [resolver_segment, resolver_segment, ← hom.advance segment (lookedUp _ _ current),
      ← hom.memberType? current]
    rfl
  have step (segment : Segment) (progress : Progress τ) (current : progress.current ∈ known) :
      (source.resolver.segment segment progress).state.current ∈ known := by
    rw [resolver_segment]
    exact closed.advance (lookedUp _ _ current) current
  have start : (Progress.start root).current ∈ known := rootKnown
  have image : (Progress.start root).mapType f = .start (f root) := rfl
  have walked := Visitor.visitAll_map same step path.segments start
  rw [image] at walked
  rw [resolve_eq, resolve_eq, walked, Flow.map_state, Progress.resolution_mapType]

end TypeModel

end LensPath
