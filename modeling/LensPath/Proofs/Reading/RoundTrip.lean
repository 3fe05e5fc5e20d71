import LensPath.Proofs.Path.Tiling
import LensPath.Proofs.Reading.Blame

/-!
Paths read back from the texts that they are written as. Members come back exactly if all of them
have names, and what is read are the segments that can be made for them one after the other. What
is read from any text is written as a text that yields the same path again.
-/

namespace LensPath

namespace Member

def segment (member : Member) (start : Nat) : Except Fault Segment :=
  match member.kind with
  | .property => Segment.property member.name start
  | .method => Segment.method member.name start

/-- The segments that are made for members from an offset on, each of them behind the text of the
one before and a dot. -/
def build (start : Nat) : List Member → Except Fault (List Segment)
  | [] => .ok []
  | member :: rest => do
      let segment ← member.segment start
      let segments ← build (start + member.display.utf8ByteSize + 1) rest
      return segment :: segments

theorem segment_eq_placed {member : Member} {start : Nat}
    (fits : start + member.width < offsetBound) :
    member.segment start = .ok (member.placed start) := by
  obtain ⟨kind, name⟩ := member
  cases kind with
  | property =>
      rw [width_property] at fits
      simp only [segment, Segment.property, Offset.add_of_lt fits, bind, Except.bind,
        Span.make_of_le (Nat.le_add_right start _), placed, width_property]
      rfl
  | method =>
      rw [width_method, ← Nat.add_assoc] at fits
      have nameFits : start + name.utf8ByteSize < offsetBound := by omega
      simp only [segment, Segment.method, Offset.add_of_lt nameFits, Offset.add_of_lt fits, bind,
        Except.bind, Span.make_of_le (Nat.le_add_right start _), placed, width_method,
        Nat.add_assoc]
      rfl

theorem build_eq_placeAll {start : Nat} {members : List Member}
    (fits : start + (render members).utf8ByteSize < offsetBound) :
    build start members = .ok (placeAll start members) := by
  induction members generalizing start with
  | nil => rfl
  | cons member members induction =>
      have both : start + member.width < offsetBound ∧
          build (start + member.display.utf8ByteSize + 1) members =
            .ok (placeAll (start + member.width + 1) members) := by
        by_cases none : members = []
        · subst none
          rw [render_singleton, utf8ByteSize_display] at fits
          exact ⟨fits, rfl⟩
        · rw [utf8ByteSize_render_cons none] at fits
          rw [utf8ByteSize_display]
          exact ⟨by omega, induction (by omega)⟩
      rw [build, segment_eq_placed both.1, placeAll]
      simp only [bind, Except.bind, both.2]
      rfl

end Member

theorem Sentence.reads {members : List Member} {text : List Char}
    (sentence : Sentence members text) (start : Nat) :
    Reads start text
      ⟨Member.placeAll start members, Segment.dots (Member.placeAll start members), none⟩ := by
  induction sentence generalizing start with
  | last named => exact .last named
  | @dotted member members text named rest induction =>
      have placed := Member.placeAll_ne_nil rest.members_ne_nil (start + member.width + 1)
      have reads := Reads.dotted named (induction (start + member.width + 1))
      rw [Gathered.prepend, if_neg (by simpa using placed)] at reads
      rw [Member.placeAll, Segment.dots_cons placed]
      exact reads

namespace Reading

theorem eq_of_gathered {reading other : Reading} (same : reading.gathered = other.gathered) :
    reading = other := by
  obtain ⟨path, problem⟩ := reading
  obtain ⟨otherPath, otherProblem⟩ := other
  obtain ⟨segments, separators, rfl⟩ := Gathered.mk.inj same
  cases Path.eq_of_parts segments separators
  rfl

theorem ofString_eq {source : String} {reading : Reading}
    (reads : Reads 0 source.toList reading.gathered) : ofString source = reading :=
  eq_of_gathered ((reads_ofString source).unique reads)

theorem ofString_of_sentence {members : List Member} {source : String}
    (sentence : Sentence members source.toList) :
    ofString source = ⟨.placed members, none⟩ :=
  ofString_eq (sentence.reads 0)

theorem isComplete_iff {reading : Reading} :
    reading.isComplete = true ↔ reading.problem = none :=
  Option.isNone_iff_eq_none

theorem ofString_of_isComplete {source : String} (complete : (ofString source).isComplete = true) :
    ∃ members, Sentence members source.toList ∧ ofString source = ⟨.placed members, none⟩ := by
  have none := isComplete_iff.mp complete
  rcases (reads_ofString source).problem with ⟨_, members, sentence⟩ | ⟨_, _, _, _, _, _, some⟩
  · exact ⟨members, sentence, ofString_of_sentence sentence⟩
  · cases none.symm.trans some

theorem ofString_empty :
    ofString "" = ⟨.empty, some (.unexpected .name (Token.finish.locate 0))⟩ :=
  ofString_eq (.nameless (by simp))

theorem ofString_render_iff {members : List Member} :
    (ofString (Member.render members)).isComplete = true ∧
        (ofString (Member.render members)).path.members = members ↔
      Member.Readable members := by
  constructor
  · rintro ⟨complete, same⟩
    obtain ⟨found, sentence, reading⟩ := ofString_of_isComplete complete
    rw [reading, Path.members_placed] at same
    exact same ▸ sentence.readable
  · intro readable
    rw [ofString_of_sentence readable.sentence]
    exact ⟨rfl, Path.members_placed members⟩

end Reading

theorem Member.Readable.ofSegments_build {members : List Member} (readable : Readable members)
    (size : (render members).utf8ByteSize < offsetBound) :
    build 0 members >>= Path.ofSegments =
      .ok (Reading.ofString (render members)).path := by
  have built : build 0 members = .ok (placeAll 0 members) :=
    build_eq_placeAll (by rwa [Nat.zero_add])
  have fits : ∀ dot ∈ Segment.dots (placeAll 0 members), dot.stop < offsetBound := by
    intro dot found
    have inside := (Path.covers_separator_placed "" found).stop_le
    rw [String.append_empty] at inside
    exact Nat.lt_of_le_of_lt inside size
  rw [built, Reading.ofString_of_sentence readable.sentence]
  exact Path.ofSegments_eq_dotted fits

theorem Member.Readable.render_inj {members others : List Member} (readable : Readable members)
    (otherReadable : Readable others) (same : render others = render members) :
    others = members := by
  have sentence := otherReadable.sentence
  rw [same] at sentence
  exact sentence.members_unique readable.sentence

/-- Members are what their text yields exactly if they are a path, and that path is the one built
from them. -/
theorem Reading.ofString_render (members : List Member)
    (size : (Member.render members).utf8ByteSize < offsetBound) :
    ((ofString (Member.render members)).isComplete = true ∧
          (ofString (Member.render members)).path.members = members ↔
        Member.Readable members) ∧
      (Member.Readable members →
        Member.build 0 members >>= Path.ofSegments =
            .ok (ofString (Member.render members)).path ∧
          ∀ others, Member.Readable others →
            Member.render others = Member.render members → others = members) := by
  refine ⟨ofString_render_iff, ?_⟩
  intro readable
  refine ⟨readable.ofSegments_build size, ?_⟩
  intro others otherReadable same
  exact readable.render_inj otherReadable same

theorem Reading.ofString_render_call :
    Member.render [⟨.method, "m_1"⟩, ⟨.property, "b"⟩] = "m_1().b" ∧
      "m_1().b".utf8ByteSize < offsetBound ∧
      Member.Readable [⟨.method, "m_1"⟩, ⟨.property, "b"⟩] ∧
      (ofString "m_1().b").isComplete = true ∧
      (ofString "m_1().b").path.members = [⟨.method, "m_1"⟩, ⟨.property, "b"⟩] ∧
      Member.build 0 [⟨.method, "m_1"⟩, ⟨.property, "b"⟩] >>= Path.ofSegments =
        .ok (ofString "m_1().b").path ∧
      ∀ others, Member.Readable others → Member.render others = "m_1().b" →
        others = [⟨.method, "m_1"⟩, ⟨.property, "b"⟩] := by
  have text : Member.render [⟨.method, "m_1"⟩, ⟨.property, "b"⟩] = "m_1().b" := by decide +kernel
  have size : "m_1().b".utf8ByteSize < offsetBound := by decide +kernel
  have read : (ofString "m_1().b").isComplete = true ∧
      (ofString "m_1().b").path.members = [⟨.method, "m_1"⟩, ⟨.property, "b"⟩] := by
    decide +kernel
  rw [← text] at size read
  obtain ⟨iff, built⟩ := ofString_render [⟨.method, "m_1"⟩, ⟨.property, "b"⟩] size
  have readable := iff.mp read
  rw [← text]
  exact ⟨rfl, size, readable, read.1, read.2, built readable⟩

/-- The text that a path is written as yields that path, if it comes from a text itself. -/
theorem Path.ofString_display (source : String) :
    ofString (ofString source).display = ofString source ∧
      ((Reading.ofString (ofString source).display).isComplete = true ↔
        (ofString source).isEmpty = false) := by
  rcases ofString_cases source with nothing | ⟨readable, _⟩
  · have written : empty.display = "" := String.intercalate_nil
    rw [nothing, written, ofString, Reading.ofString_empty]
    exact ⟨rfl, by decide⟩
  · have reading := Reading.ofString_of_sentence readable.sentence
    rw [← ofString_eq_placed, ← display_eq_render] at reading
    have some : (ofString source).isEmpty = false := by
      simpa [isEmpty, members] using readable.nonempty
    rw [ofString, reading]
    exact ⟨rfl, iff_of_true rfl some⟩

end LensPath
