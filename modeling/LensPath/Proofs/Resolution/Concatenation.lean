import LensPath.Proofs.Path.Placed
import LensPath.Proofs.Resolution
import LensPath.TypeModel.Table

/-!
Resolutions of paths that are put together. A resolution that stops within the first path has
stopped for good; one that comes to its end goes on from the type reached there as if it began
anew, with its indices and steps counted on.
-/

namespace LensPath

def ResolvedStep.later (count : Nat) (step : ResolvedStep τ) : ResolvedStep τ :=
  { step with index := step.index + count }

def MissingMember.later (count : Nat) (failure : MissingMember τ) : MissingMember τ :=
  { failure with index := failure.index + count }

/-- A resolution as it is told from further left: so many segments, with these steps, come before
it. -/
def Resolution.behind (steps : List (ResolvedStep τ)) (count : Nat) :
    Resolution τ → Resolution τ
  | .missing failure => .missing (failure.later count)
  | .resolved result =>
      .resolved ⟨steps ++ result.steps.map (.later count), result.opaqueAt.map (· + count)⟩

namespace Progress

def behind (before progress : Progress τ) : Progress τ where
  current := progress.current
  index := progress.index + before.index
  steps := before.steps ++ progress.steps.map (.later before.index)
  opaqueAt := progress.opaqueAt.map (· + before.index)
  missing := progress.missing.map (.later before.index)

theorem behind_start {before : Progress τ} (notOpaque : before.opaqueAt = none)
    (notMissing : before.missing = none) : before.behind (.start before.current) = before := by
  obtain ⟨current, index, steps, opaqueAt, missing⟩ := before
  cases notOpaque
  cases notMissing
  simp [behind, start]

theorem resolution_behind (before progress : Progress τ) :
    (before.behind progress).resolution =
      progress.resolution.behind before.steps before.index := by
  cases missing : progress.missing <;>
    simp only [resolution, behind, missing, Option.map_some, Option.map_none, Resolution.behind]

theorem advance_behind (model : TypeModel τ) (segment : Segment) (found : Option τ)
    (before progress : Progress τ) :
    (before.behind progress).advance model segment found =
      (progress.advance model segment found).map before.behind := by
  cases found with
  | none => rfl
  | some memberType =>
      cases inspected : model.inspectable memberType with
      | none =>
          rw [Progress.advance_opaque inspected, Progress.advance_opaque inspected]
          simp [Flow.map, behind, ResolvedStep.later]
      | some next =>
          rw [advance_inspectable inspected, advance_inspectable inspected]
          simp [Flow.map, behind, ResolvedStep.later, Nat.add_right_comm]

theorem opaqueAt_of_advance_eq_halt {model : TypeModel τ} {segment : Segment} {found : Option τ}
    {progress stopped : Progress τ} {result : Resolved τ}
    (halted : progress.advance model segment found = .halt stopped)
    (resolved : stopped.resolution = .resolved result) : result.opaqueAt ≠ none := by
  cases found with
  | none =>
      rw [advance_missing] at halted
      cases halted
      cases resolved
  | some memberType =>
      cases inspected : model.inspectable memberType with
      | none =>
          rw [Progress.advance_opaque inspected] at halted
          cases halted
          simp only [resolution] at resolved
          split at resolved <;> cases resolved
          exact Option.some_ne_none _
      | some next =>
          rw [advance_inspectable inspected] at halted
          cases halted

end Progress

namespace TypeModel

variable {model : TypeModel τ} {root : τ}

theorem visitAll_behind (before progress : Progress τ) (segments : List Segment) :
    model.resolver.visitAll segments (before.behind progress) =
      (model.resolver.visitAll segments progress).map before.behind := by
  have same (segment : Segment) (progress : Progress τ) (_ : True) :
      model.resolver.segment segment (before.behind progress) =
        (model.resolver.segment segment progress).map before.behind := by
    rw [resolver_segment, resolver_segment]
    exact Progress.advance_behind model segment _ before progress
  exact Visitor.visitAll_map same (fun _ _ _ => trivial) segments trivial

theorem opaqueAt_of_visitAll_eq_halt {segments : List Segment} {progress stopped : Progress τ}
    {result : Resolved τ} (halted : model.resolver.visitAll segments progress = .halt stopped)
    (resolved : stopped.resolution = .resolved result) : result.opaqueAt ≠ none := by
  obtain ⟨segment, last, halted⟩ := Visitor.exists_of_visitAll_eq_halt halted
  rw [resolver_segment] at halted
  exact Progress.opaqueAt_of_advance_eq_halt halted resolved

/-- The type on which a member behind a resolved path is looked up. -/
def typeBehind (model : TypeModel τ) (root : τ) (path : Path) (result : Resolved τ) : Option τ :=
  if path.isEmpty then some root else result.finalType.bind model.inspectable

theorem underway_of_visitAll_eq_proceed {segments : List Segment} {progress : Progress τ}
    (visited : model.resolver.visitAll segments (.start root) = .proceed progress) :
    model.Underway root segments progress ∧ progress.index = segments.length := by
  have ended := @Underway.visitAll _ model root segments _ segments .start rfl (Nat.zero_le _)
  rwa [visited] at ended

theorem Underway.finalType {segments : List Segment} {progress : Progress τ} {index : Nat}
    (underway : model.Underway root segments progress) (reached : progress.index = index + 1) :
    progress.steps.getLast?.map (·.memberType) = model.memberAt root segments index := by
  obtain ⟨memberType, named⟩ := Option.isSome_iff_exists.mp
    (memberAt_isSome (underway.before index (by omega)))
  have last := congrArg List.getLast? underway.steps
  rw [reached, stepsUpTo_succ named, List.getLast?_concat, List.getLast?_map] at last
  obtain ⟨step, isLast, same⟩ := Option.map_eq_some_iff.mp last
  cases same
  rw [isLast, named]
  rfl

theorem Underway.typeBehind {path : Path} {progress : Progress τ}
    (underway : model.Underway root path.segments progress)
    (finished : progress.index = path.length) :
    model.typeBehind root path ⟨progress.steps, none⟩ = some progress.current := by
  have current := underway.current
  rw [finished] at current
  by_cases isEmpty : path.isEmpty = true
  · have length : path.length = 0 := List.length_eq_zero_iff.mpr (List.isEmpty_iff.mp isEmpty)
    rw [TypeModel.typeBehind, if_pos isEmpty, ← current, length]
    rfl
  · obtain ⟨index, length⟩ : ∃ index, path.length = index + 1 :=
      Nat.exists_eq_succ_of_ne_zero
        (mt List.length_eq_zero_iff.mp (mt List.isEmpty_iff.mpr isEmpty))
    rw [length, typeAt_succ] at current
    rw [TypeModel.typeBehind, if_neg isEmpty, Resolved.finalType,
      underway.finalType (finished.trans length), current]

theorem Underway.resolution {segments : List Segment} {progress : Progress τ}
    (underway : model.Underway root segments progress) :
    progress.resolution = .resolved ⟨progress.steps, none⟩ := by
  simp only [Progress.resolution, underway.notMissing, underway.notOpaque]

theorem Underway.resolution_visitAll {segments : List Segment} {progress : Progress τ}
    (underway : model.Underway root segments progress) (rest : Path) :
    (model.resolver.visitAll rest.segments progress).state.resolution =
      (model.resolve progress.current rest).behind progress.steps progress.index := by
  have goesOn := @visitAll_behind _ model progress (.start progress.current) rest.segments
  rw [Progress.behind_start underway.notOpaque underway.notMissing] at goesOn
  rw [goesOn, Flow.map_state, Progress.resolution_behind, ← resolve_eq]

/-- The resolution of a path that is put together of two is that of the first if it stops there,
and goes on with that of the other from the type that the first leads to. -/
theorem resolve_append (model : TypeModel τ) (root : τ) {first rest whole : Path}
    (joined : whole.segments = first.segments ++ rest.segments) :
    (∀ failure, model.resolve root first = .missing failure →
      model.resolve root whole = .missing failure) ∧
    (∀ result index, model.resolve root first = .resolved result →
      result.opaqueAt = some index → model.resolve root whole = .resolved result) ∧
    ∀ result, model.resolve root first = .resolved result → result.opaqueAt = none →
      ∃ type, model.typeBehind root first result = some type ∧
        model.resolve root whole =
          (model.resolve type rest).behind result.steps first.length := by
  rw [resolve_eq first, resolve_eq whole, joined, Visitor.visitAll_append]
  cases visited : model.resolver.visitAll first.segments (.start root) with
  | halt stopped =>
      refine ⟨fun _ => id, fun _ _ resolved _ => resolved, ?_⟩
      intro result resolved clear
      exact absurd clear (opaqueAt_of_visitAll_eq_halt visited resolved)
  | proceed next =>
      obtain ⟨underway, finished⟩ := underway_of_visitAll_eq_proceed visited
      have reached : (Flow.proceed next).state.resolution = .resolved ⟨next.steps, none⟩ :=
        underway.resolution
      rw [reached, Flow.proceed_andThen, underway.resolution_visitAll]
      refine ⟨by rintro failure ⟨⟩, by rintro result index ⟨⟩ ⟨⟩, ?_⟩
      rintro result ⟨⟩ -
      exact ⟨next.current, underway.typeBehind finished, by rw [finished, Path.length]⟩

def orderTable : TypeTable := .ofList [
  ("Order", { fields := [{ name := "customer", type := "Customer" }] }),
  ("Customer", { methods := [{ name := "name", returns := "String" }] })]

theorem resolve_append_customer :
    (Path.ofString "customer.name()").segments =
        (Path.ofString "customer").segments ++
          (Path.dotted [⟨.method, "name", ⟨9, 13⟩, ⟨9, 15⟩⟩]).segments ∧
      orderTable.model.resolve "Order" (Path.ofString "customer") =
        .resolved ⟨[⟨0, "Customer"⟩], none⟩ ∧
      orderTable.model.typeBehind "Order" (Path.ofString "customer")
        ⟨[⟨0, "Customer"⟩], none⟩ = some "Customer" ∧
      orderTable.model.resolve "Order" (Path.ofString "customer.name()") =
        (orderTable.model.resolve "Customer"
          (.dotted [⟨.method, "name", ⟨9, 13⟩, ⟨9, 15⟩⟩])).behind [⟨0, "Customer"⟩] 1 := by
  have joined : (Path.ofString "customer.name()").segments =
      (Path.ofString "customer").segments ++
        (Path.dotted [⟨.method, "name", ⟨9, 13⟩, ⟨9, 15⟩⟩]).segments := by decide +kernel
  have resolved : orderTable.model.resolve "Order" (Path.ofString "customer") =
      .resolved ⟨[⟨0, "Customer"⟩], none⟩ := by decide +kernel
  have reached : orderTable.model.typeBehind "Order" (Path.ofString "customer")
      ⟨[⟨0, "Customer"⟩], none⟩ = some "Customer" := by decide +kernel
  obtain ⟨type, behind, whole⟩ :=
    (resolve_append orderTable.model "Order" joined).2.2 _ resolved rfl
  have length : (Path.ofString "customer").length = 1 := by decide +kernel
  cases reached.symm.trans behind
  rw [length] at whole
  exact ⟨joined, resolved, reached, whole⟩

end TypeModel

end LensPath
