import LensPath.Proofs.Path.Placed
import LensPath.Proofs.Path.Walk

/-!
What a walk hands to a visitor. The calls are a fixed list for each path, a segment and a separator
in turns; a walk makes them in that order, each from the state that the last one left behind, and
the first one that breaks off is the last.
-/

namespace LensPath

inductive Call
  | property (segment : Segment)
  | method (segment : Segment)
  | separator (span : Span)
deriving DecidableEq, Repr

def Segment.call (segment : Segment) : Call :=
  match segment.kind with
  | .property => .property segment
  | .method => .method segment

namespace Part

def call : Part → Call
  | segment found => found.call
  | separator span => .separator span

theorem separated_even {spans : List Span} {segments : List Segment}
    (balanced : spans.length = segments.length) (index : Nat) :
    (separated spans segments)[2 * index]? = spans[index]?.map separator := by
  induction segments generalizing spans index with
  | nil =>
      cases List.length_eq_zero_iff.mp balanced
      rfl
  | cons next rest induction =>
      obtain ⟨span, spans, rfl⟩ := List.exists_cons_of_length_eq_add_one balanced
      cases index with
      | zero => rfl
      | succ index => exact induction (Nat.succ.inj balanced) index

theorem separated_odd {spans : List Span} {segments : List Segment}
    (balanced : spans.length = segments.length) (index : Nat) :
    (separated spans segments)[2 * index + 1]? = segments[index]?.map segment := by
  induction segments generalizing spans index with
  | nil =>
      cases List.length_eq_zero_iff.mp balanced
      rfl
  | cons next rest induction =>
      obtain ⟨span, spans, rfl⟩ := List.exists_cons_of_length_eq_add_one balanced
      cases index with
      | zero => rfl
      | succ index => exact induction (Nat.succ.inj balanced) index

end Part

namespace Path

def calls (path : Path) : List Call := path.parts.map Part.call

theorem parts_even (path : Path) (index : Nat) :
    path.parts[2 * index]? = path.segments[index]?.map Part.segment := by
  obtain ⟨segments, separators, balanced⟩ := path
  cases segments with
  | nil => rfl
  | cons first rest =>
      cases index with
      | zero => rfl
      | succ index => exact Part.separated_odd balanced index

theorem parts_odd (path : Path) (index : Nat) :
    path.parts[2 * index + 1]? = path.separators[index]?.map Part.separator := by
  obtain ⟨segments, separators, balanced⟩ := path
  cases segments with
  | nil =>
      cases List.length_eq_zero_iff.mp balanced
      rfl
  | cons first rest => exact Part.separated_even balanced index

structure Interleaved (path : Path) : Prop where
  balanced : path.separators.length = path.segments.length - 1
  segments : ∀ index : Nat, path.calls[2 * index]? = path.segments[index]?.map Segment.call
  separators : ∀ index : Nat, path.calls[2 * index + 1]? = path.separators[index]?.map .separator
  inRange : ∀ index (inRange : index < path.length) (later : 0 < index),
    path.separators[index - 1]? = some (path.separatorBefore index inRange later)

theorem interleaved (path : Path) : path.Interleaved := by
  refine ⟨path.balanced, fun index => ?_, fun index => ?_, fun index inRange later => ?_⟩
  · rw [calls, List.getElem?_map, parts_even, Option.map_map]
    rfl
  · rw [calls, List.getElem?_map, parts_odd, Option.map_map]
    rfl
  · exact List.getElem?_eq_getElem _

/-! ## Makers of paths -/

theorem ofParts?_eq_some_iff {segments : List Segment} {separators : List Span} {path : Path} :
    ofParts? segments separators = some path ↔
      separators.length = segments.length - 1 ∧ path.segments = segments ∧
        path.separators = separators := by
  constructor
  · intro built
    obtain ⟨balanced, made⟩ := Option.dite_none_right_eq_some.mp built
    cases made
    exact ⟨balanced, rfl, rfl⟩
  · intro ⟨balanced, sameSegments, sameSeparators⟩
    rw [ofParts?_of_balanced balanced]
    exact congrArg some (eq_of_parts sameSegments.symm sameSeparators.symm)

theorem fits_of_separatorsBetween {segments : List Segment} {separators : List Span}
    (built : separatorsBetween segments = .ok separators) :
    ∀ dot ∈ Segment.dots segments, dot.stop < offsetBound := by
  induction segments generalizing separators with
  | nil => exact nofun
  | cons segment rest induction =>
      cases rest with
      | nil => exact nofun
      | cons next rest =>
          rw [Segment.dots_cons (List.cons_ne_nil next rest), List.forall_mem_cons]
          by_cases fits : segment.span.stop + 1 < offsetBound
          · refine ⟨fits, ?_⟩
            cases later : separatorsBetween (next :: rest) with
            | ok separators => exact induction later
            | error fault =>
                rw [separatorsBetween, Offset.add_of_lt fits, later] at built
                simp only [bind, Except.bind, Span.make_of_le (Nat.le_add_right _ 1)] at built
                cases built
          · rw [separatorsBetween, Offset.add_of_ge (Nat.le_of_not_lt fits)] at built
            cases built

theorem ofSegments_eq_ok_iff {segments : List Segment} {path : Path} :
    ofSegments segments = .ok path ↔
      (∀ dot ∈ Segment.dots segments, dot.stop < offsetBound) ∧ path.segments = segments ∧
        path.separators = Segment.dots segments := by
  constructor
  · intro built
    have fits : ∀ dot ∈ Segment.dots segments, dot.stop < offsetBound := by
      unfold ofSegments at built
      split at built
      · next separated => exact fits_of_separatorsBetween separated
      · cases built
    rw [ofSegments_eq_dotted fits] at built
    cases built
    exact ⟨fits, rfl, rfl⟩
  · intro ⟨fits, sameSegments, sameSeparators⟩
    rw [ofSegments_eq_dotted fits]
    exact congrArg Except.ok (eq_of_parts sameSegments.symm sameSeparators.symm)

theorem ofParts?_gathered (source : String) :
    ofParts? (Gathered.ofTokens (Lexed.ofString source) (Lexed.ofString source).tokens).segments
        (Gathered.ofTokens (Lexed.ofString source) (Lexed.ofString source).tokens).separators =
      some (ofString source) := by
  have reads : Reads 0 source.toList
      (Gathered.ofTokens (Lexed.ofString source) (Lexed.ofString source).tokens) :=
    reads_scan ⟨rfl, rfl⟩
  have built := ofParts?_of_balanced reads.balanced
  simp only [ofString, Reading.ofString, Reading.ofLexed, built, Option.getD_some]

end Path

/-! ## Runs of calls -/

/-- A flow as a computation that goes on only after `ok`. -/
def Flow.toExcept : Flow σ → Except σ σ
  | proceed state => .ok state
  | halt state => .error state

structure Delivery where
  call : Call
  halted : Bool
deriving DecidableEq, Repr

namespace Visitor

def answer (visitor : Visitor σ) : Call → σ → Flow σ
  | .property segment => visitor.property segment
  | .method segment => visitor.method segment
  | .separator span => visitor.separator span

def step (visitor : Visitor σ) (state : σ) (call : Call) : Except σ σ :=
  (visitor.answer call state).toExcept

theorem answer_segment (visitor : Visitor σ) (segment : Segment) :
    visitor.answer segment.call = visitor.segment segment := by
  cases kind : segment.kind <;> simp only [Segment.call, Visitor.segment, kind] <;> rfl

theorem answer_part (visitor : Visitor σ) (part : Part) :
    visitor.answer part.call = visitor.part part := by
  cases part with
  | segment segment => exact visitor.answer_segment segment
  | separator span => rfl

theorem toExcept_andThen (flow : Flow σ) (next : σ → Flow σ) :
    (flow.andThen next).toExcept = flow.toExcept >>= fun state => (next state).toExcept := by
  cases flow <;> rfl

theorem toExcept_visitParts (visitor : Visitor σ) (parts : List Part) (state : σ) :
    (visitor.visitParts parts state).toExcept = (parts.map Part.call).foldlM visitor.step state := by
  induction parts generalizing state with
  | nil => rfl
  | cons part rest induction =>
      rw [visitParts_cons, toExcept_andThen, List.map_cons, List.foldlM_cons, step, answer_part]
      apply congrArg
      funext next
      exact induction next

theorem toExcept_visitAll (visitor : Visitor σ) (segments : List Segment) (state : σ) :
    (visitor.visitAll segments state).toExcept =
      (segments.map Segment.call).foldlM visitor.step state := by
  induction segments generalizing state with
  | nil => rfl
  | cons segment rest induction =>
      rw [visitAll_cons, toExcept_andThen, List.map_cons, List.foldlM_cons, step, answer_segment]
      apply congrArg
      funext next
      exact induction next

def record (call : Call) (visit : σ → Flow σ) (recorded : σ × List Delivery) :
    Flow (σ × List Delivery) :=
  (visit recorded.1).map (·, recorded.2 ++ [⟨call, (visit recorded.1).halted⟩])

/-- The visitor that also writes down each call it gets, and whether it breaks off there. -/
def recording (visitor : Visitor σ) : Visitor (σ × List Delivery) where
  property segment := record (.property segment) (visitor.property segment)
  method segment := record (.method segment) (visitor.method segment)
  separator span := record (.separator span) (visitor.separator span)

theorem recording_part (visitor : Visitor σ) (part : Part) :
    visitor.recording.part part = record part.call (visitor.part part) := by
  rw [← answer_part, ← answer_part]
  cases part.call <;> rfl

def deliveries (visitor : Visitor σ) : List Part → σ → List Delivery
  | [], _ => []
  | part :: rest, state =>
      match visitor.part part state with
      | .proceed next => ⟨part.call, false⟩ :: visitor.deliveries rest next
      | .halt _ => [⟨part.call, true⟩]

variable {visitor : Visitor σ} {part : Part} {parts rest : List Part} {state next : σ}

theorem deliveries_of_proceed (visited : visitor.part part state = .proceed next) :
    visitor.deliveries (part :: rest) state = ⟨part.call, false⟩ :: visitor.deliveries rest next := by
  simp only [deliveries, visited]

theorem deliveries_of_halt (visited : visitor.part part state = .halt next) :
    visitor.deliveries (part :: rest) state = [⟨part.call, true⟩] := by
  simp only [deliveries, visited]

theorem visitParts_recording (earlier : List Delivery) :
    visitor.recording.visitParts parts (state, earlier) =
      (visitor.visitParts parts state).map (·, earlier ++ visitor.deliveries parts state) := by
  induction parts generalizing state earlier with
  | nil => simp [Flow.map, deliveries]
  | cons part rest induction =>
      rw [visitParts_cons, visitParts_cons, recording_part, record]
      cases visited : visitor.part part state with
      | proceed next =>
          rw [deliveries_of_proceed visited, List.append_cons earlier ⟨part.call, false⟩]
          exact induction _
      | halt stopped =>
          rw [deliveries_of_halt visited]
          rfl

theorem deliveries_cases (visitor : Visitor σ) (parts : List Part) (state : σ) :
    ((visitor.visitParts parts state).halted = false ∧
      visitor.deliveries parts state = (parts.map Part.call).map (⟨·, false⟩)) ∨
    ((visitor.visitParts parts state).halted = true ∧
      ∃ passed call rest, parts.map Part.call = passed ++ call :: rest ∧
        visitor.deliveries parts state = passed.map (⟨·, false⟩) ++ [⟨call, true⟩]) := by
  induction parts generalizing state with
  | nil => exact .inl ⟨rfl, rfl⟩
  | cons part rest induction =>
      rw [visitParts_cons]
      cases visited : visitor.part part state with
      | proceed next =>
          rw [deliveries_of_proceed visited, Flow.proceed_andThen]
          rcases induction next with ⟨goesOn, all⟩ | ⟨halted, passed, call, behind, order, log⟩
          · exact .inl ⟨goesOn, congrArg (List.cons _) all⟩
          · refine .inr ⟨halted, part.call :: passed, call, behind, ?_, ?_⟩
            · exact congrArg (List.cons part.call) order
            · exact congrArg (List.cons _) log
      | halt stopped =>
          rw [deliveries_of_halt visited]
          exact .inr ⟨rfl, [], part.call, rest.map Part.call, rfl, rfl⟩

end Visitor

namespace Path

/-- The calls that a visitor gets in a walk, told by itself: all calls of the path, or those up to
the first with which it breaks the walk off. -/
structure Delivers (path : Path) (visitor : Visitor σ) (state : σ) (log : List Delivery) :
    Prop where
  recorded : path.walk visitor.recording (state, []) = (path.walk visitor state).map (·, log)
  outcome :
    ((path.walk visitor state).halted = false ∧ log = path.calls.map (⟨·, false⟩)) ∨
    ((path.walk visitor state).halted = true ∧
      ∃ passed call rest, path.calls = passed ++ call :: rest ∧
        log = passed.map (⟨·, false⟩) ++ [⟨call, true⟩])
  halts : (path.walk visitor state).halted = true ↔ ∃ delivery ∈ log, delivery.halted = true

theorem delivers (path : Path) (visitor : Visitor σ) (state : σ) :
    path.Delivers visitor state (visitor.deliveries path.parts state) := by
  have outcome := visitor.deliveries_cases path.parts state
  rw [← walk_eq_visitParts] at outcome
  refine ⟨?_, outcome, ?_⟩
  · rw [walk_eq_visitParts, walk_eq_visitParts]
    exact Visitor.visitParts_recording []
  · rcases outcome with ⟨goesOn, all⟩ | ⟨halted, passed, call, rest, order, log⟩
    · rw [goesOn, all]
      simp
    · rw [halted, log]
      simp

/-- A walk is the fold over the calls of the path that ends with the first that breaks off. -/
theorem walk_delivers :
    (∀ segments separators path, ofParts? segments separators = some path ↔
      separators.length = segments.length - 1 ∧ path.segments = segments ∧
        path.separators = separators) ∧
    (∀ segments path, ofSegments segments = .ok path ↔
      (∀ dot ∈ Segment.dots segments, dot.stop < offsetBound) ∧ path.segments = segments ∧
        path.separators = Segment.dots segments) ∧
    ofParts? [] [] = some empty ∧
    (∀ source, ofParts?
        (Gathered.ofTokens (Lexed.ofString source) (Lexed.ofString source).tokens).segments
        (Gathered.ofTokens (Lexed.ofString source) (Lexed.ofString source).tokens).separators =
      some (ofString source)) ∧
    ∀ path : Path, path.Interleaved ∧ ∀ {σ : Type u} (visitor : Visitor σ) (state : σ),
      (path.walk visitor state).toExcept = path.calls.foldlM visitor.step state ∧
      (∃ log, path.Delivers visitor state log) ∧
      (visitor.Passive → (path.walk visitor state).toExcept =
        (path.segments.map Segment.call).foldlM visitor.step state) := by
  refine ⟨fun _ _ _ => ofParts?_eq_some_iff, fun _ _ => ofSegments_eq_ok_iff, rfl,
    ofParts?_gathered, fun path => ⟨path.interleaved, fun visitor state => ⟨?_, ?_, ?_⟩⟩⟩
  · rw [walk_eq_visitParts]
    exact visitor.toExcept_visitParts path.parts state
  · exact ⟨_, path.delivers visitor state⟩
  · intro passive
    rw [path.walk_eq_visitAll passive]
    exact visitor.toExcept_visitAll path.segments state

end Path

namespace Visitor

def countTo (limit count : Nat) : Flow Nat :=
  if count + 1 < limit then .proceed (count + 1) else .halt (count + 1)

def segmentsTo (limit : Nat) : Visitor Nat where
  property _ := countTo limit
  method _ := countTo limit

def partsTo (limit : Nat) : Visitor Nat :=
  { segmentsTo limit with separator := fun _ => countTo limit }

end Visitor

/-- A visitor that breaks off at the second separator, and one that does at the second segment. -/
theorem Path.walk_delivers_break :
    (∃ log, (ofString "a.b().c.").Delivers (Visitor.partsTo 4) 0 log ∧
      log.map Delivery.halted = [false, false, false, true]) ∧
    (Visitor.segmentsTo 2).Passive ∧
      (ofString "a.b().c.").walk (Visitor.segmentsTo 2) 0 = .halt 2 ∧
      ((ofString "a.b().c.").segments.map Segment.call).foldlM (Visitor.segmentsTo 2).step 0 =
        .error 2 := by
  obtain ⟨_, _, _, _, walks⟩ := walk_delivers
  obtain ⟨_, delivered⟩ := walks (ofString "a.b().c.")
  obtain ⟨_, ⟨log, delivers⟩, _⟩ := delivered (Visitor.partsTo 4) 0
  obtain ⟨_, _, folds⟩ := delivered (Visitor.segmentsTo 2) 0
  have passive : (Visitor.segmentsTo 2).Passive := fun _ _ => rfl
  have written : log =
      ((ofString "a.b().c.").walk (Visitor.partsTo 4).recording (0, [])).state.2 := by
    rw [delivers.recorded, Flow.map_state]
  have walked : (ofString "a.b().c.").walk (Visitor.segmentsTo 2) 0 = .halt 2 := by
    decide +kernel
  refine ⟨⟨log, delivers, ?_⟩, passive, walked, ?_⟩
  · rw [written]
    decide +kernel
  · rw [← folds passive, walked]
    rfl

end LensPath
