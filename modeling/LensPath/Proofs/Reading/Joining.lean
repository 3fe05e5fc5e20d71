import LensPath.Proofs.Reading.RoundTrip

/-!
Readings of texts that a dot joins. What a text yields does not hang on where it stands, so behind
a path and a dot any text is read as on its own, moved to the right.
-/

namespace LensPath

def Segment.translate (offset : Nat) (segment : Segment) : Segment :=
  ⟨segment.kind, segment.name, segment.nameSpan.translate offset, segment.span.translate offset⟩

namespace Problem

def translate (offset : Nat) : Problem → Problem
  | stray char => stray ⟨char.char, char.offset + offset⟩
  | unexpected expected found => unexpected expected ⟨found.token, found.span.translate offset⟩

@[simp] theorem message_translate (offset : Nat) (problem : Problem) :
    (problem.translate offset).message = problem.message := by
  cases problem <;> rfl

@[simp] theorem span_translate (offset : Nat) (problem : Problem) :
    (problem.translate offset).span = problem.span.translate offset := by
  cases problem with
  | stray char => simp [translate, span, StrayChar.span, Span.translate, Nat.add_right_comm]
  | unexpected expected found => rfl

theorem atHead_add (expected : Expectation) (start offset : Nat) (text : List Char) :
    atHead expected (start + offset) text = (atHead expected start text).translate offset := by
  cases taken : Token.take? text with
  | some found =>
      simp only [atHead, taken, translate, Token.locate, Span.translate, Nat.add_right_comm]
  | none =>
      cases text with
      | nil => simp only [atHead, taken, translate, Token.locate, Span.translate,
          Nat.add_right_comm]
      | cons c rest => simp only [atHead, taken, translate]

end Problem

theorem Member.placed_add (member : Member) (start offset : Nat) :
    member.placed (start + offset) = (member.placed start).translate offset := by
  simp only [placed, Segment.translate, Span.translate, Nat.add_right_comm start offset]

namespace Gathered

def translate (offset : Nat) (gathered : Gathered) : Gathered :=
  ⟨gathered.segments.map (Segment.translate offset),
    gathered.separators.map (·.translate offset), gathered.problem.map (Problem.translate offset)⟩

theorem eq_of_parts {gathered other : Gathered} (segments : gathered.segments = other.segments)
    (separators : gathered.separators = other.separators)
    (problem : gathered.problem = other.problem) : gathered = other := by
  cases gathered
  cases other
  cases segments
  cases separators
  cases problem
  rfl

theorem prepend_translate (offset : Nat) (segment : Segment) (dot : Span)
    (gathered : Gathered) :
    (gathered.prepend segment dot).translate offset =
      (gathered.translate offset).prepend (segment.translate offset) (dot.translate offset) := by
  apply eq_of_parts
  · simp [translate]
  · simp only [translate, separators_prepend, List.isEmpty_map]
    split <;> rfl
  · simp [translate]

def join (first : Gathered) (dot : Span) (rest : Gathered) : Gathered :=
  ⟨first.segments ++ rest.segments,
    first.separators ++ if rest.segments.isEmpty then [] else dot :: rest.separators,
    rest.problem⟩

theorem prepend_eq_join (segment : Segment) (dot : Span) (rest : Gathered) :
    rest.prepend segment dot = join ⟨[segment], [], none⟩ dot rest := by
  apply eq_of_parts <;> simp [join]

theorem prepend_join {first : Gathered} (some : first.segments ≠ []) (segment : Segment)
    (before dot : Span) (rest : Gathered) :
    (first.join dot rest).prepend segment before =
      (first.prepend segment before).join dot rest := by
  apply eq_of_parts <;> simp [join, some]

end Gathered

namespace Reads

theorem translate {start : Nat} {text : List Char} {gathered : Gathered}
    (reads : Reads start text gathered) (offset : Nat) :
    Reads (start + offset) text (gathered.translate offset) := by
  induction reads with
  | @nameless start text stuck =>
      have moved := @Reads.nameless (start + offset) text stuck
      rwa [Problem.atHead_add] at moved
  | @unclosed start name rest named stuck =>
      have moved := @Reads.unclosed (start + offset) name rest named stuck
      rwa [Nat.add_right_comm start offset, Nat.add_right_comm _ offset 1,
        Problem.atHead_add] at moved
  | @last start member named =>
      have moved := @Reads.last (start + offset) member named
      rwa [Member.placed_add] at moved
  | @stopped start member c rest named ends noDot =>
      have moved := @Reads.stopped (start + offset) member c rest named ends noDot
      rwa [Member.placed_add, Nat.add_right_comm start offset, Problem.atHead_add] at moved
  | @dotted start member text gathered named _ induction =>
      rw [Gathered.prepend_translate, ← Member.placed_add]
      rw [Nat.add_right_comm, Nat.add_right_comm start] at induction
      have moved := Reads.dotted named induction
      rwa [Nat.add_right_comm start offset, Nat.add_right_comm _ offset 1] at moved

theorem segments_ne_nil {start : Nat} {text : List Char} {gathered : Gathered}
    (reads : Reads start text gathered) (complete : gathered.problem = none) :
    gathered.segments ≠ [] := by
  cases reads with
  | nameless | unclosed => cases complete
  | last | stopped => exact List.cons_ne_nil _ _
  | dotted =>
      rw [Gathered.segments_prepend]
      exact List.cons_ne_nil _ _

theorem join {start : Nat} {text more : List Char} {first rest : Gathered}
    (reads : Reads start text first) (complete : first.problem = none)
    (readsMore : Reads (start + Text.byteLength text + 1) more rest) :
    Reads start (text ++ '.' :: more)
      (first.join ⟨start + Text.byteLength text, start + Text.byteLength text + 1⟩ rest) := by
  -- On the first text: only at its last member the dot and the other text come into play.
  induction reads with
  | nameless | unclosed | stopped => cases complete
  | @last start member named =>
      have joined := Reads.dotted named readsMore
      rwa [Gathered.prepend_eq_join] at joined
  | @dotted start member text gathered named reads induction =>
      have length : start + Text.byteLength (member.text ++ '.' :: text) =
          start + member.width + 1 + Text.byteLength text := by
        rw [Member.byteLength_dotted, Nat.add_assoc, Nat.add_assoc, Nat.add_assoc]
      have completeRest : gathered.problem = none := by
        rwa [Gathered.problem_prepend] at complete
      rw [length] at readsMore ⊢
      rw [← Gathered.prepend_join (reads.segments_ne_nil completeRest), List.append_assoc,
        List.cons_append]
      exact .dotted named (induction completeRest readsMore)

end Reads

structure Reading.Joins (first : Reading) (offset : Nat) (rest whole : Reading) : Prop where
  segments : whole.path.segments =
    first.path.segments ++ rest.path.segments.map (Segment.translate (offset + 1))
  separators : whole.path.separators =
    first.path.separators ++
      if rest.path.isEmpty then []
      else ⟨offset, offset + 1⟩ :: rest.path.separators.map (·.translate (offset + 1))
  complete : rest.isComplete = true → whole.isComplete = true
  problem : ∀ found ∈ rest.problem, ∃ problem ∈ whole.problem,
    problem.message = found.message ∧ problem.span = found.span.translate (offset + 1)

/-- Behind a path and a dot a text is read as on its own. -/
theorem Reading.ofString_dot {source : String} (complete : (ofString source).isComplete = true)
    (more : String) :
    Joins (ofString source) source.utf8ByteSize (ofString more)
      (ofString (source ++ "." ++ more)) := by
  have readsMore := (reads_ofString more).translate (source.utf8ByteSize + 1)
  rw [Nat.zero_add, ← Text.byteLength_toList, ← Nat.zero_add (Text.byteLength _)] at readsMore
  have joined := (reads_ofString source).join (isComplete_iff.mp complete) readsMore
  have text : (source ++ "." ++ more).toList = source.toList ++ '.' :: more.toList := by simp
  rw [← text, Nat.zero_add, Text.byteLength_toList] at joined
  have whole := (reads_ofString (source ++ "." ++ more)).unique joined
  have problem : (ofString (source ++ "." ++ more)).problem =
      (ofString more).problem.map (Problem.translate (source.utf8ByteSize + 1)) :=
    congrArg Gathered.problem whole
  refine ⟨congrArg Gathered.segments whole, ?_, ?_, ?_⟩
  · have separators := congrArg Gathered.separators whole
    simpa [Gathered.join, Gathered.translate, gathered, Path.isEmpty] using separators
  · intro none
    rw [isComplete_iff, problem, isComplete_iff.mp none, Option.map_none]
  · intro found isProblem
    rw [problem, Option.mem_def.mp isProblem]
    exact ⟨_, rfl, Problem.message_translate _ found, Problem.span_translate _ found⟩

theorem Reading.ofString_dot_unfinished :
    (ofString "a.m()").isComplete = true ∧
      (ofString "a.m().b.é").path.segments =
        [⟨.property, "a", ⟨0, 1⟩, ⟨0, 1⟩⟩, ⟨.method, "m", ⟨2, 3⟩, ⟨2, 5⟩⟩,
          ⟨.property, "b", ⟨6, 7⟩, ⟨6, 7⟩⟩] ∧
      (ofString "a.m().b.é").path.separators = [⟨1, 2⟩, ⟨5, 6⟩] ∧
      ∃ problem ∈ (ofString "a.m().b.é").problem,
        problem.message = "unexpected character: 'é'" ∧ problem.span = ⟨8, 10⟩ := by
  have complete : (ofString "a.m()").isComplete = true := by decide +kernel
  have size : "a.m()".utf8ByteSize = 5 := by decide +kernel
  have text : "a.m()" ++ "." ++ "b.é" = "a.m().b.é" := by decide +kernel
  have first : (ofString "a.m()").path =
      ⟨[⟨.property, "a", ⟨0, 1⟩, ⟨0, 1⟩⟩, ⟨.method, "m", ⟨2, 3⟩, ⟨2, 5⟩⟩], [⟨1, 2⟩], rfl⟩ := by
    decide +kernel
  have rest : ofString "b.é" =
      ⟨⟨[⟨.property, "b", ⟨0, 1⟩, ⟨0, 1⟩⟩], [], rfl⟩, some (.stray ⟨'é', 2⟩)⟩ := by
    decide +kernel
  have joins := ofString_dot complete "b.é"
  rw [size, text, rest] at joins
  obtain ⟨problem, isProblem, message, span⟩ := joins.problem _ rfl
  refine ⟨complete, ?_, ?_, problem, isProblem, ?_, ?_⟩
  · rw [joins.segments, first]
    rfl
  · rw [joins.separators, first]
    rfl
  · rw [message]
    decide +kernel
  · rw [span]
    rfl

end LensPath
