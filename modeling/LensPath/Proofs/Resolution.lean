import LensPath.Proofs.Path.Walk
import LensPath.Resolution

/-!
Resolution step by step. A path is resolved exactly as its segments are looked up one after the
other, each on the inspectable type of the member before it.
-/

namespace LensPath

namespace Progress

theorem advance_missing (model : TypeModel τ) (segment : Segment) (progress : Progress τ) :
    progress.advance model segment none =
      .halt { progress with missing := some ⟨progress.index, segment, progress.current⟩ } := rfl

theorem advance_opaque {model : TypeModel τ} {memberType : τ}
    (isOpaque : model.inspectable memberType = none) (segment : Segment)
    (progress : Progress τ) :
    progress.advance model segment (some memberType) =
      .halt { progress with
        steps := progress.steps ++ [⟨progress.index, memberType⟩]
        opaqueAt := some progress.index } := by
  simp only [advance, isOpaque]

theorem advance_inspectable {model : TypeModel τ} {memberType next : τ}
    (inspectable : model.inspectable memberType = some next) (segment : Segment)
    (progress : Progress τ) :
    progress.advance model segment (some memberType) =
      .proceed { progress with
        current := next
        index := progress.index + 1
        steps := progress.steps ++ [⟨progress.index, memberType⟩] } := by
  simp only [advance, inspectable]

end Progress

namespace TypeModel

variable (model : TypeModel τ) (root : τ) (segments : List Segment)

def memberType? (type : τ) (segment : Segment) : Option τ :=
  match segment.kind with
  | .property => (model.findField type segment.name).map model.fieldType
  | .method => (model.findMethod type segment.name).map model.returnType

/-- The type that the segment of an index is looked up on. -/
def typeAt : Nat → Option τ
  | 0 => some root
  | index + 1 => do
      let type ← typeAt index
      let segment ← segments[index]?
      let memberType ← model.memberType? type segment
      model.inspectable memberType

def memberAt (index : Nat) : Option τ := do
  let type ← model.typeAt root segments index
  let segment ← segments[index]?
  model.memberType? type segment

/-- The first members, each with its index; `none` for one that does not exist. -/
def stepsUpTo (count : Nat) : List (Option (ResolvedStep τ)) :=
  (List.range count).map fun index => (model.memberAt root segments index).map (.mk index)

structure FailsAt (failure : MissingMember τ) : Prop where
  segment : segments[failure.index]? = some failure.segment
  lookedUpOn : model.typeAt root segments failure.index = some failure.lookedUpOn
  before : ∀ index < failure.index, (model.memberAt root segments index).isSome ∧
    (model.typeAt root segments (index + 1)).isSome
  missing : model.memberAt root segments failure.index = none

structure ResolvesTo (result : Resolved τ) : Prop where
  steps : result.steps.map some = model.stepsUpTo root segments result.steps.length
  length_le : result.steps.length ≤ segments.length
  ending :
    (result.steps.length = segments.length ∧ result.opaqueAt = none ∧
      ∀ index < segments.length, (model.typeAt root segments (index + 1)).isSome) ∨
    ∃ last, result.steps.length = last + 1 ∧ result.opaqueAt = some last ∧
      (∀ index < last, (model.typeAt root segments (index + 1)).isSome) ∧
      model.typeAt root segments (last + 1) = none

/-- What the members of the segments say about their resolution. -/
def Answers : Resolution τ → Prop
  | .missing failure => model.FailsAt root segments failure
  | .resolved result => model.ResolvesTo root segments result

variable {model root segments}

theorem typeAt_succ (index : Nat) :
    model.typeAt root segments (index + 1) =
      (model.memberAt root segments index).bind model.inspectable := by
  simp only [typeAt, memberAt, bind, Option.bind_assoc]

theorem memberAt_of_typeAt {index : Nat} {type : τ} {segment : Segment}
    (reached : model.typeAt root segments index = some type)
    (found : segments[index]? = some segment) :
    model.memberAt root segments index = model.memberType? type segment := by
  simp only [memberAt, bind, reached, found, Option.bind_some]

theorem memberAt_isSome {index : Nat}
    (inspectable : (model.typeAt root segments (index + 1)).isSome) :
    (model.memberAt root segments index).isSome := by
  rw [typeAt_succ] at inspectable
  exact Option.isSome_of_isSome_bind inspectable

theorem typeAt_isSome_of_memberAt {index : Nat}
    (found : (model.memberAt root segments index).isSome) :
    (model.typeAt root segments index).isSome :=
  Option.isSome_of_isSome_bind found

theorem typeAt_isSome_of_le {index later : Nat} (le : index ≤ later)
    (reached : (model.typeAt root segments later).isSome) :
    (model.typeAt root segments index).isSome := by
  induction le with
  | refl => exact reached
  | step _ induction => exact induction (typeAt_isSome_of_memberAt (memberAt_isSome reached))

theorem stepsUpTo_succ {index : Nat} {memberType : τ}
    (found : model.memberAt root segments index = some memberType) :
    model.stepsUpTo root segments (index + 1) =
      model.stepsUpTo root segments index ++ [some ⟨index, memberType⟩] := by
  simp [stepsUpTo, List.range_succ, found]

@[simp] theorem length_stepsUpTo (count : Nat) :
    (model.stepsUpTo root segments count).length = count := by
  simp [stepsUpTo]

theorem resolver_passive : model.resolver.Passive := fun _ _ => rfl

theorem resolver_segment (segment : Segment) (progress : Progress τ) :
    model.resolver.segment segment progress =
      progress.advance model segment (model.memberType? progress.current segment) := by
  cases kind : segment.kind <;>
    simp only [Visitor.segment, resolver, memberType?, kind, fieldTypeOn, returnTypeOn]

theorem resolve_eq (path : Path) :
    model.resolve root path =
      (model.resolver.visitAll path.segments (.start root)).state.resolution := by
  rw [resolve, explore, path.walk_eq_visitAll resolver_passive]

/-- A resolution that has not ended: all members so far exist and can be looked into. -/
structure Underway (model : TypeModel τ) (root : τ) (segments : List Segment)
    (progress : Progress τ) : Prop where
  current : model.typeAt root segments progress.index = some progress.current
  before : ∀ index < progress.index, (model.typeAt root segments (index + 1)).isSome
  steps : progress.steps.map some = model.stepsUpTo root segments progress.index
  notOpaque : progress.opaqueAt = none
  notMissing : progress.missing = none

theorem Underway.start : model.Underway root segments (.start root) :=
  ⟨rfl, by simp [Progress.start], rfl, rfl, rfl⟩

theorem Underway.length_steps {progress : Progress τ}
    (underway : model.Underway root segments progress) :
    progress.steps.length = progress.index := by
  have lengths := congrArg List.length underway.steps
  simpa using lengths

theorem Underway.steps_append {progress : Progress τ} {memberType : τ}
    (underway : model.Underway root segments progress)
    (named : model.memberAt root segments progress.index = some memberType) :
    (progress.steps ++ [(⟨progress.index, memberType⟩ : ResolvedStep τ)]).map some =
      model.stepsUpTo root segments (progress.index + 1) := by
  rw [stepsUpTo_succ named, ← underway.steps, List.map_append]
  rfl

theorem Underway.fails {progress : Progress τ} {segment : Segment}
    (underway : model.Underway root segments progress)
    (found : segments[progress.index]? = some segment)
    (unnamed : model.memberAt root segments progress.index = none) :
    model.FailsAt root segments ⟨progress.index, segment, progress.current⟩ := by
  refine ⟨found, underway.current, ?_, unnamed⟩
  intro index earlier
  have inspectable := underway.before index earlier
  exact ⟨memberAt_isSome inspectable, inspectable⟩

theorem Underway.stops {progress : Progress τ} {segment : Segment} {memberType : τ}
    (underway : model.Underway root segments progress)
    (found : segments[progress.index]? = some segment)
    (named : model.memberAt root segments progress.index = some memberType)
    (isOpaque : model.inspectable memberType = none) :
    model.ResolvesTo root segments
      ⟨progress.steps ++ [⟨progress.index, memberType⟩], some progress.index⟩ := by
  have length : (progress.steps ++ [(⟨progress.index, memberType⟩ : ResolvedStep τ)]).length =
      progress.index + 1 := by
    rw [List.length_append, underway.length_steps]
    rfl
  have bound := (List.getElem?_eq_some_iff.mp found).1
  refine ⟨?_, by rw [length]; exact bound, .inr ⟨progress.index, length, rfl, underway.before, ?_⟩⟩
  · rw [length]
    exact underway.steps_append named
  · rw [typeAt_succ, named]
    exact isOpaque

theorem Underway.proceeds {progress : Progress τ} {memberType next : τ}
    (underway : model.Underway root segments progress)
    (named : model.memberAt root segments progress.index = some memberType)
    (inspectable : model.inspectable memberType = some next) :
    model.Underway root segments { progress with
      current := next
      index := progress.index + 1
      steps := progress.steps ++ [⟨progress.index, memberType⟩] } := by
  have reached : model.typeAt root segments (progress.index + 1) = some next := by
    rw [typeAt_succ, named]
    exact inspectable
  refine ⟨reached, ?_, underway.steps_append named, underway.notOpaque, underway.notMissing⟩
  intro index earlier
  rcases Nat.lt_succ_iff_lt_or_eq.mp earlier with earlier | rfl
  · exact underway.before index earlier
  · exact Option.isSome_of_eq_some reached

/-- One more segment leaves the resolution underway, or ends it with the right answer. -/
theorem Underway.advance {progress : Progress τ} {segment : Segment}
    (underway : model.Underway root segments progress)
    (found : segments[progress.index]? = some segment) :
    match model.resolver.segment segment progress with
    | .proceed next =>
        model.Underway root segments next ∧ next.index = progress.index + 1
    | .halt stopped => model.Answers root segments stopped.resolution := by
  have named := memberAt_of_typeAt underway.current found
  rw [resolver_segment]
  cases memberType : model.memberType? progress.current segment with
  | none =>
      rw [memberType] at named
      rw [Progress.advance_missing]
      exact underway.fails found named
  | some type =>
      rw [memberType] at named
      cases inspectable : model.inspectable type with
      | none =>
          rw [Progress.advance_opaque inspectable]
          simp only [Answers, Progress.resolution, underway.notMissing]
          exact underway.stops found named inspectable
      | some next =>
          rw [Progress.advance_inspectable inspectable]
          exact ⟨underway.proceeds named inspectable, rfl⟩

theorem Underway.finish {progress : Progress τ}
    (underway : model.Underway root segments progress)
    (finished : progress.index = segments.length) :
    model.Answers root segments progress.resolution := by
  have length : progress.steps.length = segments.length :=
    underway.length_steps.trans finished
  simp only [Answers, Progress.resolution, underway.notMissing]
  refine ⟨?_, Nat.le_of_eq length, .inl ⟨length, underway.notOpaque, ?_⟩⟩
  · rw [length, ← finished]
    exact underway.steps
  · rw [← finished]
    exact underway.before

theorem Underway.visitAll {progress : Progress τ} {rest : List Segment}
    (underway : model.Underway root segments progress)
    (remaining : segments.drop progress.index = rest)
    (inRange : progress.index ≤ segments.length) :
    match model.resolver.visitAll rest progress with
    | .proceed next =>
        model.Underway root segments next ∧ next.index = segments.length
    | .halt stopped => model.Answers root segments stopped.resolution := by
  -- What is still to be visited are the segments from the index of the progress on.
  induction rest generalizing progress with
  | nil =>
      have past := List.drop_eq_nil_iff.mp remaining
      exact ⟨underway, Nat.le_antisymm inRange past⟩
  | cons segment rest induction =>
      have found : segments[progress.index]? = some segment := by
        rw [← List.head?_drop, remaining, List.head?_cons]
      have bound := (List.getElem?_eq_some_iff.mp found).1
      have advanced := underway.advance found
      rw [Visitor.visitAll_cons]
      cases visited : model.resolver.segment segment progress with
      | halt stopped =>
          rw [visited] at advanced
          exact advanced
      | proceed next =>
          rw [visited] at advanced
          obtain ⟨nextUnderway, index⟩ := advanced
          refine induction nextUnderway ?_ (by omega)
          rw [index, ← List.drop_drop, remaining, List.drop_one, List.tail_cons]

theorem Underway.answers {progress : Progress τ} {rest : List Segment}
    (underway : model.Underway root segments progress)
    (remaining : segments.drop progress.index = rest)
    (inRange : progress.index ≤ segments.length) :
    model.Answers root segments
      (model.resolver.visitAll rest progress).state.resolution := by
  have ended := underway.visitAll remaining inRange
  cases visited : model.resolver.visitAll rest progress with
  | halt stopped =>
      rw [visited] at ended
      exact ended
  | proceed next =>
      rw [visited] at ended
      exact ended.1.finish ended.2

theorem resolve_answers (path : Path) :
    model.Answers root path.segments (model.resolve root path) := by
  rw [resolve_eq]
  exact Underway.start.answers rfl (Nat.zero_le _)

theorem FailsAt.unique {failure other : MissingMember τ}
    (fails : model.FailsAt root segments failure)
    (otherFails : model.FailsAt root segments other) : failure = other := by
  have index : failure.index = other.index := by
    apply Nat.le_antisymm
    · refine Nat.le_of_not_lt fun earlier => ?_
      simpa [otherFails.missing] using (fails.before _ earlier).1
    · refine Nat.le_of_not_lt fun earlier => ?_
      simpa [fails.missing] using (otherFails.before _ earlier).1
  obtain ⟨found, segment, type⟩ := failure
  obtain ⟨otherFound, otherSegment, otherType⟩ := other
  cases index
  cases Option.some.inj (fails.segment.symm.trans otherFails.segment)
  cases Option.some.inj (fails.lookedUpOn.symm.trans otherFails.lookedUpOn)
  rfl

theorem ResolvesTo.memberAt_of_step {result : Resolved τ}
    (resolves : model.ResolvesTo root segments result) {index : Nat} {step : ResolvedStep τ}
    (stepped : result.steps[index]? = some step) :
    step.index = index ∧ model.memberAt root segments index = some step.memberType := by
  have bound := (List.getElem?_eq_some_iff.mp stepped).1
  have found := congrArg (·[index]?) resolves.steps
  simp only [stepsUpTo, List.getElem?_map, List.getElem?_range bound, stepped,
    Option.map_some] at found
  obtain ⟨memberType, named, rfl⟩ := Option.map_eq_some_iff.mp (Option.some.inj found).symm
  exact ⟨rfl, named⟩

theorem ResolvesTo.memberAt_isSome {result : Resolved τ}
    (resolves : model.ResolvesTo root segments result) {index : Nat}
    (stepped : index < result.steps.length) :
    (model.memberAt root segments index).isSome :=
  Option.isSome_of_eq_some
    (resolves.memberAt_of_step (List.getElem?_eq_getElem stepped)).2

theorem ResolvesTo.typeAt_isSome {result : Resolved τ}
    (resolves : model.ResolvesTo root segments result) {index : Nat}
    (stepped : index < result.steps.length) :
    (model.typeAt root segments index).isSome :=
  typeAt_isSome_of_memberAt (resolves.memberAt_isSome stepped)

theorem ResolvesTo.typeAt_eq_none {result : Resolved τ}
    (resolves : model.ResolvesTo root segments result)
    (short : result.steps.length < segments.length) :
    model.typeAt root segments result.steps.length = none := by
  rcases resolves.ending with ⟨length, _, _⟩ | ⟨last, length, _, _, isOpaque⟩
  · omega
  · rw [length]
    exact isOpaque

theorem ResolvesTo.length_le_of {result other : Resolved τ}
    (resolves : model.ResolvesTo root segments result)
    (otherResolves : model.ResolvesTo root segments other) :
    other.steps.length ≤ result.steps.length := by
  refine Nat.le_of_not_lt fun shorter => ?_
  have isOpaque := resolves.typeAt_eq_none (Nat.lt_of_lt_of_le shorter otherResolves.length_le)
  have reached := otherResolves.typeAt_isSome shorter
  simp [isOpaque] at reached

theorem ResolvesTo.covers_iff {result : Resolved τ}
    (resolves : model.ResolvesTo root segments result) (nonempty : segments ≠ []) :
    result.steps.length = segments.length ↔
      (model.typeAt root segments (segments.length - 1)).isSome := by
  have positive := List.length_pos_iff.mpr nonempty
  constructor
  · intro whole
    exact resolves.typeAt_isSome (by omega)
  · intro reached
    refine Nat.le_antisymm resolves.length_le (Nat.le_of_not_lt fun short => ?_)
    have isOpaque := resolves.typeAt_eq_none short
    have lookedUp := typeAt_isSome_of_le (Nat.le_sub_one_of_lt short) reached
    simp [isOpaque] at lookedUp

theorem ResolvesTo.opaqueAt_eq_some_iff {result : Resolved τ}
    (resolves : model.ResolvesTo root segments result) {index : Nat} :
    result.opaqueAt = some index ↔
      index < result.steps.length ∧ model.typeAt root segments (index + 1) = none := by
  rcases resolves.ending with ⟨whole, clear, inspectable⟩ | ⟨last, stop, isOpaque, before, missing⟩
  · rw [clear]
    refine iff_of_false (fun none => by cases none) ?_
    rintro ⟨stepped, missing⟩
    simpa [missing] using inspectable index (whole ▸ stepped)
  · rw [isOpaque]
    constructor
    · rintro ⟨⟩
      exact ⟨by omega, missing⟩
    · rintro ⟨stepped, missing⟩
      have notEarlier : ¬ index < last := by
        intro earlier
        simpa [missing] using before index earlier
      exact congrArg some (by omega)

theorem ResolvesTo.opaqueAt_unique {result other : Resolved τ}
    (resolves : model.ResolvesTo root segments result)
    (otherResolves : model.ResolvesTo root segments other)
    (length : result.steps.length = other.steps.length) : result.opaqueAt = other.opaqueAt := by
  apply Option.ext
  intro index
  rw [resolves.opaqueAt_eq_some_iff, otherResolves.opaqueAt_eq_some_iff, length]

theorem ResolvesTo.unique {result other : Resolved τ}
    (resolves : model.ResolvesTo root segments result)
    (otherResolves : model.ResolvesTo root segments other) : result = other := by
  have length : result.steps.length = other.steps.length :=
    Nat.le_antisymm (otherResolves.length_le_of resolves) (resolves.length_le_of otherResolves)
  have steps : result.steps = other.steps := by
    apply (List.map_inj_right fun _ _ => Option.some.inj).mp
    rw [resolves.steps, otherResolves.steps, length]
  have isOpaque : result.opaqueAt = other.opaqueAt :=
    resolves.opaqueAt_unique otherResolves length
  obtain ⟨resultSteps, resultOpaque⟩ := result
  cases steps
  cases isOpaque
  rfl

theorem FailsAt.not_resolvesTo {failure : MissingMember τ} {result : Resolved τ}
    (fails : model.FailsAt root segments failure) :
    ¬ model.ResolvesTo root segments result := by
  intro resolves
  have bound := (List.getElem?_eq_some_iff.mp fails.segment).1
  have past : result.steps.length ≤ failure.index := by
    refine Nat.le_of_not_lt fun stepped => ?_
    simpa [fails.missing] using resolves.memberAt_isSome stepped
  have isOpaque := resolves.typeAt_eq_none (Nat.lt_of_le_of_lt past bound)
  have reached := typeAt_isSome_of_le past (Option.isSome_of_eq_some fails.lookedUpOn)
  simp [isOpaque] at reached

theorem Answers.unique {resolution other : Resolution τ}
    (answers : model.Answers root segments resolution)
    (otherAnswers : model.Answers root segments other) : resolution = other := by
  cases resolution with
  | missing failure =>
      cases other with
      | missing other => rw [FailsAt.unique answers otherAnswers]
      | resolved other => exact absurd otherAnswers (FailsAt.not_resolvesTo answers)
  | resolved result =>
      cases other with
      | missing other => exact absurd answers (FailsAt.not_resolvesTo otherAnswers)
      | resolved other => rw [ResolvesTo.unique answers otherAnswers]

/-- The resolution of a path is the one answer that its members give. -/
theorem resolve_eq_iff (model : TypeModel τ) (root : τ) (path : Path)
    (resolution : Resolution τ) :
    model.resolve root path = resolution ↔ model.Answers root path.segments resolution := by
  constructor
  · rintro rfl
    exact resolve_answers path
  · exact (resolve_answers path).unique

structure WritesCall (model : TypeModel τ) (root : τ) (segments : List Segment)
    (mode : Lens.Mode) (segment : Segment) : Prop where
  writes : mode = .write
  last : segments.getLast? = some segment
  call : segment.kind = .method
  lookedUp : (model.typeAt root segments (segments.length - 1)).isSome

theorem ResolvesTo.covers_path_iff {result : Resolved τ} {path : Path} {segment : Segment}
    (resolves : model.ResolvesTo root path.segments result)
    (last : path.segments.getLast? = some segment) :
    result.covers path = true ↔
      (model.typeAt root path.segments (path.segments.length - 1)).isSome := by
  have nonempty : path.segments ≠ [] := by
    intro none
    simp [none] at last
  rw [Resolved.covers, beq_iff_eq, Path.length, resolves.covers_iff nonempty]

theorem ResolvesTo.writeViolation_of_writesCall {result : Resolved τ} {path : Path}
    {mode : Lens.Mode} {segment : Segment}
    (resolves : model.ResolvesTo root path.segments result)
    (writes : model.WritesCall root path.segments mode segment) :
    path.writeViolation (.resolved result) mode =
      some ⟨path.length - 1, segment.name, segment.span⟩ := by
  obtain ⟨rfl, last, call, lookedUp⟩ := writes
  have covers := (resolves.covers_path_iff last).mpr lookedUp
  simp only [Path.writeViolation, covers, if_true, Path.last?, last, call]

theorem ResolvesTo.writesCall_of_writeViolation {result : Resolved τ} {path : Path}
    {mode : Lens.Mode} {violation : WriteViolation}
    (resolves : model.ResolvesTo root path.segments result)
    (violates : path.writeViolation (.resolved result) mode = some violation) :
    ∃ segment, model.WritesCall root path.segments mode segment := by
  cases mode with
  | read => cases violates
  | write =>
      simp only [Path.writeViolation, Path.last?] at violates
      split at violates
      · next covers =>
          split at violates
          · next segment last =>
              split at violates
              · next call =>
                  exact ⟨segment, rfl, last, call, (resolves.covers_path_iff last).mp covers⟩
              · cases violates
          · cases violates
      · cases violates

end TypeModel

end LensPath
