import LensPath.Proofs.Path.Parts

/-!
Walks as recursions over the segments of a path, for visitors that pass over separators.
-/

namespace LensPath

def Visitor.Passive (visitor : Visitor σ) : Prop :=
  ∀ span state, visitor.separator span state = .proceed state

def Visitor.visitAll (visitor : Visitor σ) : List Segment → σ → Flow σ
  | [], state => .proceed state
  | segment :: rest, state =>
      (visitor.segment segment state).andThen (visitor.visitAll rest)

@[simp] theorem Visitor.visitAll_nil (visitor : Visitor σ) (state : σ) :
    visitor.visitAll [] state = .proceed state := rfl

@[simp] theorem Visitor.visitAll_cons (visitor : Visitor σ) (segment : Segment)
    (rest : List Segment) (state : σ) :
    visitor.visitAll (segment :: rest) state =
      (visitor.segment segment state).andThen (visitor.visitAll rest) := rfl

theorem Visitor.visitAll_append (visitor : Visitor σ) (segments more : List Segment)
    (state : σ) :
    visitor.visitAll (segments ++ more) state =
      (visitor.visitAll segments state).andThen (visitor.visitAll more) := by
  induction segments generalizing state with
  | nil => rfl
  | cons segment rest induction =>
      rw [List.cons_append, visitAll_cons, visitAll_cons, Flow.andThen_assoc]
      apply congrArg
      funext next
      exact induction next

theorem Visitor.visitParts_separated {visitor : Visitor σ} (passive : visitor.Passive)
    {spans : List Span} {segments : List Segment} (balanced : spans.length = segments.length)
    (state : σ) :
    visitor.visitParts (Part.separated spans segments) state =
      visitor.visitAll segments state := by
  induction segments generalizing spans state with
  | nil => rw [Part.separated_nil, visitParts_nil, visitAll_nil]
  | cons segment rest induction =>
      obtain ⟨span, spans, rfl⟩ := List.exists_cons_of_length_eq_add_one balanced
      have passed : visitor.part (.separator span) state = .proceed state := passive span state
      rw [Part.separated, visitParts_cons, passed, Flow.proceed_andThen, visitParts_cons,
        visitAll_cons]
      apply congrArg
      funext next
      exact induction (Nat.succ.inj balanced) next

theorem Path.walk_eq_visitAll {visitor : Visitor σ} (passive : visitor.Passive)
    (path : Path) (state : σ) :
    path.walk visitor state = visitor.visitAll path.segments state := by
  rw [walk_eq_visitParts]
  obtain ⟨segments, separators, balanced⟩ := path
  cases segments with
  | nil => rfl
  | cons first rest =>
      rw [parts, Part.weave, Visitor.visitParts_cons, Visitor.visitAll_cons]
      apply congrArg
      funext next
      exact Visitor.visitParts_separated passive balanced next

theorem Visitor.visitAll_keeps {visitor : Visitor σ} {holds : σ → Prop}
    (step : ∀ segment state, holds state → holds (visitor.segment segment state).state)
    (segments : List Segment) {state : σ} (start : holds state) :
    holds (visitor.visitAll segments state).state := by
  induction segments generalizing state with
  | nil => exact start
  | cons segment rest induction =>
      have stepped := step segment state start
      rw [visitAll_cons]
      cases visited : visitor.segment segment state with
      | halt stopped =>
          rw [visited] at stepped
          exact stepped
      | proceed next =>
          rw [visited] at stepped
          exact induction stepped

theorem Visitor.exists_of_visitAll_eq_halt {visitor : Visitor σ} {segments : List Segment}
    {state stopped : σ} (halted : visitor.visitAll segments state = .halt stopped) :
    ∃ segment last, visitor.segment segment last = .halt stopped := by
  induction segments generalizing state with
  | nil => cases halted
  | cons segment rest induction =>
      rw [visitAll_cons] at halted
      cases visited : visitor.segment segment state with
      | halt last =>
          rw [visited] at halted
          cases halted
          exact ⟨segment, state, visited⟩
      | proceed next =>
          rw [visited] at halted
          exact induction halted

def Flow.map (f : σ → ρ) : Flow σ → Flow ρ
  | proceed state => .proceed (f state)
  | halt state => .halt (f state)

@[simp] theorem Flow.map_state (f : σ → ρ) (flow : Flow σ) :
    (flow.map f).state = f flow.state := by
  cases flow <;> rfl

theorem Visitor.visitAll_map {visitor : Visitor σ} {other : Visitor ρ} {f : σ → ρ}
    {holds : σ → Prop}
    (same : ∀ segment state, holds state →
      other.segment segment (f state) = (visitor.segment segment state).map f)
    (step : ∀ segment state, holds state → holds (visitor.segment segment state).state)
    (segments : List Segment) {state : σ} (start : holds state) :
    other.visitAll segments (f state) = (visitor.visitAll segments state).map f := by
  induction segments generalizing state with
  | nil => rfl
  | cons segment rest induction =>
      have stepped := step segment state start
      rw [visitAll_cons, visitAll_cons, same segment state start]
      cases visited : visitor.segment segment state with
      | halt stopped => rfl
      | proceed next =>
          rw [visited] at stepped
          exact induction stepped

namespace Visitor

/-- The visitor that also keeps each state in which it comes to a segment. -/
def tracing (visitor : Visitor σ) : Visitor (σ × List σ) where
  property segment traced :=
    (visitor.property segment traced.1).map (·, traced.2 ++ [traced.1])
  method segment traced :=
    (visitor.method segment traced.1).map (·, traced.2 ++ [traced.1])
  separator span traced := (visitor.separator span traced.1).map (·, traced.2)

theorem tracing_segment (visitor : Visitor σ) (segment : Segment) (traced : σ × List σ) :
    visitor.tracing.segment segment traced =
      (visitor.segment segment traced.1).map (·, traced.2 ++ [traced.1]) := by
  cases kind : segment.kind <;> simp only [Visitor.segment, tracing, kind]

theorem Passive.tracing {visitor : Visitor σ} (passive : visitor.Passive) :
    visitor.tracing.Passive := by
  intro span traced
  simp only [Visitor.tracing, passive span traced.1, Flow.map]

theorem visitAll_tracing (visitor : Visitor σ) (segments : List Segment) (state : σ)
    (trace : List σ) :
    (visitor.tracing.visitAll segments (state, trace)).map Prod.fst =
      visitor.visitAll segments state := by
  have same (segment : Segment) (traced : σ × List σ) (_ : True) :
      visitor.segment segment traced.1 =
        (visitor.tracing.segment segment traced).map Prod.fst := by
    rw [tracing_segment]
    cases visitor.segment segment traced.1 <;> rfl
  exact (visitAll_map same (fun _ _ _ => trivial) segments trivial).symm

end Visitor

theorem Path.walk_tracing {visitor : Visitor σ} (passive : visitor.Passive) (path : Path)
    (state : σ) :
    (path.walk visitor.tracing (state, [])).map Prod.fst = path.walk visitor state := by
  rw [path.walk_eq_visitAll passive, path.walk_eq_visitAll passive.tracing,
    visitor.visitAll_tracing]

end LensPath
