import LensPath.Proofs.Reading.Blame
import LensPath.Proofs.Reading.RoundTrip

/-!
Readings of texts that go on. Behind a problem within a text nothing is read, whatever follows it.
Where the text itself runs out, what follows can change the last name, and nothing before that.
-/

namespace LensPath

theorem Problem.start_atHead (expected : Expectation) (start : Nat) (text : List Char) :
    (atHead expected start text).span.start = start := by
  obtain ⟨_, _, _, _, span, _⟩ := atHead_blames expected start text
  rw [span]

theorem Gathered.prepend_withProblem (gathered : Gathered) (problem : Option Problem)
    (segment : Segment) (dot : Span) :
    { gathered with problem }.prepend segment dot =
      { gathered.prepend segment dot with problem } := by
  simp only [prepend]
  split <;> rfl

namespace Reads

theorem start_le {start : Nat} {text : List Char} {gathered : Gathered} {problem : Problem}
    (reads : Reads start text gathered) (found : gathered.problem = some problem) :
    problem.span.start ≤ start + Text.byteLength text := by
  rcases reads.problem with ⟨none, _⟩ | ⟨settled, rest, stage, rfl, _, _, some⟩
  · cases none.symm.trans found
  · cases some.symm.trans found
    rw [Problem.start_atHead, Text.byteLength_append]
    omega

theorem append_of_problem {start : Nat} {text : List Char} {gathered : Gathered}
    {problem : Problem} (reads : Reads start text gathered)
    (found : gathered.problem = some problem)
    (within : problem.span.start < start + Text.byteLength text) (more : List Char) :
    ∃ later, later.span.start = problem.span.start ∧
      Reads start (text ++ more) { gathered with problem := some later } := by
  induction reads with
  | @nameless start text stuck =>
      cases found
      rw [Problem.start_atHead] at within
      cases text with
      | nil => exact absurd within (Nat.lt_irrefl start)
      | cons c text =>
          refine ⟨_, ?_, .nameless stuck⟩
          rw [Problem.start_atHead, Problem.start_atHead]
  | @unclosed start name rest named stuck =>
      cases found
      rw [Problem.start_atHead] at within
      cases rest with
      | nil =>
          have opened : '('.utf8Size = 1 := rfl
          simp only [Text.byteLength_append, Text.byteLength_toList, Text.byteLength_cons,
            Text.byteLength_nil, opened] at within
          omega
      | cons c rest =>
          have longer := @Reads.unclosed start name (c :: (rest ++ more)) named stuck
          rw [← List.cons_append, ← List.cons_append, ← List.append_assoc] at longer
          refine ⟨_, ?_, longer⟩
          rw [Problem.start_atHead, Problem.start_atHead]
  | last => cases found
  | @stopped start member c rest named ends noDot =>
      cases found
      have longer := @Reads.stopped start member c (rest ++ more) named ends noDot
      rw [← List.cons_append, ← List.append_assoc] at longer
      refine ⟨_, ?_, longer⟩
      rw [Problem.start_atHead, Problem.start_atHead]
  | @dotted start member text gathered named _ induction =>
      rw [Gathered.problem_prepend] at found
      rw [Member.byteLength_dotted] at within
      obtain ⟨later, same, readsLater⟩ := induction found (by omega)
      have longer := Reads.dotted named readsLater
      rw [Gathered.prepend_withProblem, ← List.cons_append, ← List.append_assoc] at longer
      exact ⟨later, same, longer⟩

theorem exists_of_dotted {start : Nat} {member : Member} {text : List Char} {gathered : Gathered}
    (named : member.Named) (reads : Reads start (member.text ++ '.' :: text) gathered) :
    ∃ rest, Reads (start + member.width + 1) text rest ∧
      gathered.segments = member.placed start :: rest.segments := by
  obtain ⟨rest, readsRest⟩ := exists_reads (start + member.width + 1) text
  refine ⟨rest, readsRest, ?_⟩
  rw [reads.unique (.dotted named readsRest), Gathered.segments_prepend]

theorem getElem?_zero {start : Nat} {member : Member} {rest : List Char} {gathered : Gathered}
    (named : member.Named) (ends : member.Ends rest)
    (reads : Reads start (member.text ++ rest) gathered) :
    gathered.segments[0]? = some (member.placed start) := by
  cases rest with
  | nil =>
      rw [List.append_nil] at reads
      rw [reads.unique (.last named)]
      rfl
  | cons c rest =>
      by_cases dot : c = '.'
      · subst dot
        obtain ⟨later, _, segments⟩ := exists_of_dotted named reads
        rw [segments]
        rfl
      · rw [reads.unique (.stopped named (Member.ends_cons.mp ends) dot)]
        rfl

end Reads

/-- The last segment of a text that has no problem is a property, whose name may go on and which a
call may be made of. -/
def Gathered.OpenAt (gathered : Gathered) (index : Nat) : Prop :=
  gathered.problem = none ∧ index + 1 = gathered.segments.length ∧
    ∃ last ∈ gathered.segments.getLast?, last.kind = .property

theorem Gathered.OpenAt.prepend {gathered : Gathered} {index : Nat}
    (openAt : gathered.OpenAt index) (segment : Segment) (dot : Span) :
    (gathered.prepend segment dot).OpenAt (index + 1) := by
  obtain ⟨complete, length, last, isLast, property⟩ := openAt
  have nonempty : gathered.segments ≠ [] := by
    intro none
    simp [none] at isLast
  refine ⟨by rw [problem_prepend, complete], by simp [length], last, ?_, property⟩
  rwa [segments_prepend, List.getLast?_cons_of_ne_nil nonempty]

/-- Where the text runs out before anything is wrong with it, all segments but an open one stay. -/
theorem Reads.getElem?_append {start : Nat} {text more : List Char} {gathered whole : Gathered}
    (reads : Reads start text gathered)
    (atEnd : ∀ problem ∈ gathered.problem,
      problem.span.start = start + Text.byteLength text)
    (readsWhole : Reads start (text ++ more) whole) {index : Nat} {segment : Segment}
    (found : gathered.segments[index]? = some segment) (settled : ¬ gathered.OpenAt index) :
    whole.segments[index]? = some segment := by
  -- On the text; only its last member can be open, since a dot ends all others.
  induction reads generalizing whole index with
  | nameless | unclosed => cases found
  | @last start member named =>
      cases index with
      | succ index => cases found
      | zero =>
          cases found
          refine getElem?_zero named ?_ readsWhole
          intro c _
          cases kind : member.kind with
          | property => exact absurd ⟨rfl, rfl, _, rfl, kind⟩ settled
          | method => simp only [Member.EndsBefore, kind]
  | @stopped start member c rest named ends noDot =>
      have stop := atEnd _ rfl
      have wide := c.utf8Size_pos
      rw [Problem.start_atHead, Text.byteLength_append, Text.byteLength_cons,
        ← Member.width] at stop
      omega
  | @dotted start member text gathered named reads induction =>
      rw [List.append_assoc, List.cons_append] at readsWhole
      obtain ⟨rest, readsRest, segments⟩ := exists_of_dotted named readsWhole
      rw [Gathered.segments_prepend] at found
      rw [segments]
      cases index with
      | zero => exact found
      | succ index =>
          refine induction ?_ readsRest found ?_
          · intro problem isProblem
            rw [← Gathered.problem_prepend (member.placed start)] at isProblem
            rw [atEnd problem isProblem, Member.byteLength_dotted]
            omega
          · intro openAt
            exact settled (openAt.prepend _ _)

theorem Segment.getElem?_dots_of_getElem? {segments : List Segment} {index : Nat}
    {left right : Segment} (found : segments[index]? = some left)
    (next : segments[index + 1]? = some right) : (dots segments)[index]? = some left.dot := by
  have bound := (List.getElem?_eq_some_iff.mp next).1
  rw [dots, List.getElem?_map, List.getElem?_dropLast, if_pos (by omega), found, Option.map_some]

namespace Reading

def OpenAt (reading : Reading) (index : Nat) : Prop := reading.gathered.OpenAt index

/-- What the reading of a longer text takes over from the reading of the text that it begins
with. -/
structure Continues (size : Nat) (reading longer : Reading) : Prop where
  start_le : ∀ problem ∈ reading.problem, problem.span.start ≤ size
  within : ∀ problem ∈ reading.problem, problem.span.start < size →
    longer.path = reading.path ∧
      ∃ later ∈ longer.problem, later.span.start = problem.span.start
  segments : (∀ problem ∈ reading.problem, problem.span.start = size) →
    ∀ index segment, reading.path.segments[index]? = some segment → ¬ reading.OpenAt index →
      longer.path.segments[index]? = some segment
  separators : ∀ index dot, reading.path.separators[index]? = some dot →
    longer.path.segments[index]? = reading.path.segments[index]? →
    longer.path.segments[index + 1]? = reading.path.segments[index + 1]? →
      longer.path.separators[index]? = some dot

theorem ofString_append_of_problem {source : String} {problem : Problem}
    (found : (ofString source).problem = some problem)
    (within : problem.span.start < source.utf8ByteSize) (more : String) :
    ∃ later, later.span.start = problem.span.start ∧
      ofString (source ++ more) = ⟨(ofString source).path, some later⟩ := by
  have inside : problem.span.start < 0 + Text.byteLength source.toList := by
    rwa [Nat.zero_add, Text.byteLength_toList]
  obtain ⟨later, same, reads⟩ :=
    (reads_ofString source).append_of_problem found inside more.toList
  rw [← String.toList_append] at reads
  exact ⟨later, same, ofString_eq reads⟩

/-- More text behind a text leaves what was read of it, apart from an open last segment. -/
theorem ofString_append (source more : String) :
    Continues source.utf8ByteSize (ofString source) (ofString (source ++ more)) := by
  have reads := reads_ofString source
  have readsWhole := reads_ofString (source ++ more)
  have size : 0 + Text.byteLength source.toList = source.utf8ByteSize := by
    rw [Nat.zero_add, Text.byteLength_toList]
  constructor
  · intro problem found
    rw [← size]
    exact reads.start_le found
  · intro problem found within
    obtain ⟨later, same, longer⟩ := ofString_append_of_problem found within more
    rw [longer]
    exact ⟨rfl, later, rfl, same⟩
  · intro atEnd index segment found settled
    rw [String.toList_append] at readsWhole
    rw [← size] at atEnd
    exact reads.getElem?_append atEnd readsWhole found settled
  · intro index dot found left right
    have separators : (ofString source).path.separators = Segment.dots _ := reads.separators_eq
    have dots : (ofString (source ++ more)).path.separators = Segment.dots _ :=
      readsWhole.separators_eq
    rw [separators] at found
    obtain ⟨before, after, isBefore, isAfter, rfl⟩ := Segment.getElem?_dots found
    rw [dots]
    exact Segment.getElem?_dots_of_getElem? (left.trans isBefore) (right.trans isAfter)

theorem ofString_append_called :
    (ofString "a.b").OpenAt 1 ∧ Continues 3 (ofString "a.b") (ofString "a.b(") ∧
      (ofString "a.b(").path.segments[1]? = none := by
  have size : "a.b".utf8ByteSize = 3 := by decide +kernel
  have text : "a.b" ++ "(" = "a.b(" := by decide +kernel
  have openAt : (ofString "a.b").OpenAt 1 :=
    ⟨by decide +kernel, by decide +kernel, ⟨.property, "b", ⟨2, 3⟩, ⟨2, 3⟩⟩,
      by decide +kernel, rfl⟩
  have continues := ofString_append "a.b" "("
  rw [size, text] at continues
  exact ⟨openAt, continues, by decide +kernel⟩

end Reading

end LensPath
