import LensPath.Path
import LensPath.Text.Cut

/-!
The grammar of paths, told apart from how paths are read. A sentence is `segment (. segment)*`;
each sentence is made of its members in one way only.
-/

namespace LensPath

def NameStart (c : Char) : Prop :=
  ('A' ≤ c ∧ c ≤ 'Z') ∨ ('a' ≤ c ∧ c ≤ 'z') ∨ c = '_'

def NameChar (c : Char) : Prop := NameStart c ∨ ('0' ≤ c ∧ c ≤ '9')

instance (c : Char) : Decidable (NameStart c) :=
  inferInstanceAs (Decidable (_ ∨ _ ∨ _))

instance (c : Char) : Decidable (NameChar c) :=
  inferInstanceAs (Decidable (_ ∨ _))

theorem NameStart.nameChar {c : Char} (starts : NameStart c) : NameChar c := .inl starts

/-- Names match `[A-Za-z_][A-Za-z0-9_]*`. -/
inductive IsName : List Char → Prop
  | intro {first : Char} {more : List Char} (starts : NameStart first)
      (goesOn : ∀ c ∈ more, NameChar c) : IsName (first :: more)

theorem IsName.nameChar {name : List Char} (named : IsName name) : ∀ c ∈ name, NameChar c := by
  cases named with
  | intro starts goesOn =>
      intro c member
      rcases List.mem_cons.mp member with rfl | member
      · exact starts.nameChar
      · exact goesOn c member

def NameEnds (rest : List Char) : Prop := ∀ c ∈ rest.head?, ¬ NameChar c

theorem nameEnds_openParen (rest : List Char) : NameEnds ('(' :: rest) := by
  rintro c ⟨⟩
  decide

theorem takeWhile_name {name rest : List Char} (named : ∀ c ∈ name, NameChar c)
    (ends : NameEnds rest) : (name ++ rest).takeWhile (fun c => NameChar c) = name := by
  rw [List.takeWhile_append_of_pos (by simpa using named)]
  cases rest with
  | nil => simp
  | cons c rest => simp [ends c rfl]

theorem dropWhile_name {name rest : List Char} (named : ∀ c ∈ name, NameChar c)
    (ends : NameEnds rest) : (name ++ rest).dropWhile (fun c => NameChar c) = rest := by
  rw [List.dropWhile_append_of_pos (by simpa using named)]
  cases rest with
  | nil => simp
  | cons c rest => simp [ends c rfl]

theorem IsName.append_inj {name other rest after : List Char}
    (named : IsName name) (otherNamed : IsName other)
    (ends : NameEnds rest) (otherEnds : NameEnds after)
    (equal : name ++ rest = other ++ after) : name = other ∧ rest = after := by
  constructor
  · rw [← takeWhile_name named.nameChar ends, equal, takeWhile_name otherNamed.nameChar otherEnds]
  · rw [← dropWhile_name named.nameChar ends, equal, dropWhile_name otherNamed.nameChar otherEnds]

def MemberKind.mark : MemberKind → List Char
  | property => []
  | method => ['(', ')']

/-- A segment wherever it stands. -/
structure Member where
  kind : MemberKind
  name : String
deriving DecidableEq, Repr

def Segment.member (segment : Segment) : Member := ⟨segment.kind, segment.name⟩

def Path.members (path : Path) : List Member := path.segments.map Segment.member

namespace Member

def text (member : Member) : List Char := member.name.toList ++ member.kind.mark

def width (member : Member) : Nat := Text.byteLength member.text

@[simp] theorem width_property (name : String) :
    width ⟨.property, name⟩ = name.utf8ByteSize := by
  simp [width, text, MemberKind.mark]

@[simp] theorem width_method (name : String) :
    width ⟨.method, name⟩ = name.utf8ByteSize + 2 := by
  simp only [width, text, MemberKind.mark, Text.byteLength_append, Text.byteLength_toList]
  rfl

theorem byteLength_dotted (member : Member) (text : List Char) :
    Text.byteLength (member.text ++ '.' :: text) = member.width + 1 + Text.byteLength text := by
  have dot : '.'.utf8Size = 1 := rfl
  rw [Text.byteLength_append, Text.byteLength_cons, dot, width, Nat.add_assoc]

def placed (member : Member) (start : Nat) : Segment :=
  ⟨member.kind, member.name, ⟨start, start + member.name.utf8ByteSize⟩,
    ⟨start, start + member.width⟩⟩

@[simp] theorem member_placed (member : Member) (start : Nat) :
    (member.placed start).member = member := rfl

theorem placed_ordered (member : Member) (start : Nat) : (member.placed start).span.Ordered :=
  Nat.le_add_right start member.width

/-- The segments for members from an offset on, with one byte between each two. -/
def placeAll (start : Nat) : List Member → List Segment
  | [] => []
  | member :: rest => member.placed start :: placeAll (start + member.width + 1) rest

theorem mem_placeAll {start : Nat} {members : List Member} {segment : Segment}
    (found : segment ∈ placeAll start members) :
    ∃ offset, segment = segment.member.placed offset := by
  induction members generalizing start with
  | nil => cases found
  | cons member members induction =>
      rcases List.mem_cons.mp found with rfl | found
      · exact ⟨start, rfl⟩
      · exact induction found

def Named (member : Member) : Prop := IsName member.name.toList

/-- A character after a member that does not make another member of it. -/
def EndsBefore (member : Member) (c : Char) : Prop :=
  match member.kind with
  | .property => ¬ NameChar c ∧ c ≠ '('
  | .method => True

def Ends (member : Member) (rest : List Char) : Prop := ∀ c ∈ rest.head?, member.EndsBefore c

theorem ends_nil (member : Member) : member.Ends [] := by
  intro c head
  simp at head

theorem ends_cons {member : Member} {c : Char} {rest : List Char} :
    member.Ends (c :: rest) ↔ member.EndsBefore c := by
  simp [Ends]

theorem ends_dot (member : Member) (rest : List Char) : member.Ends ('.' :: rest) := by
  rw [ends_cons]
  cases kind : member.kind with
  | property => simp only [EndsBefore, kind]; decide
  | method => simp only [EndsBefore, kind]

theorem Ends.nameEnds {member : Member} {rest : List Char} (ends : member.Ends rest) :
    NameEnds (member.kind.mark ++ rest) := by
  cases kind : member.kind with
  | property =>
      intro c head
      have ended := ends c head
      simp only [EndsBefore, kind] at ended
      exact ended.1
  | method => exact nameEnds_openParen _

theorem text_append_inj {member other : Member} {rest after : List Char}
    (named : member.Named) (otherNamed : other.Named)
    (ends : member.Ends rest) (otherEnds : other.Ends after)
    (equal : member.text ++ rest = other.text ++ after) : member = other ∧ rest = after := by
  simp only [text, List.append_assoc] at equal
  obtain ⟨names, marks⟩ := named.append_inj otherNamed ends.nameEnds otherEnds.nameEnds equal
  obtain ⟨kind, name⟩ := member
  obtain ⟨otherKind, otherName⟩ := other
  cases String.toList_inj.mp names
  -- A property is told from a method by the `(` that it must not stand before.
  cases kind with
  | property =>
      cases otherKind with
      | property => exact ⟨rfl, marks⟩
      | method =>
          cases marks
          exact absurd rfl (ends '(' rfl).2
  | method =>
      cases otherKind with
      | property =>
          cases marks
          exact absurd rfl (otherEnds '(' rfl).2
      | method => exact ⟨rfl, by simpa [MemberKind.mark] using marks⟩

end Member

inductive Opening : List Char → Prop
  | nameless {text : List Char} (stuck : ∀ c ∈ text.head?, ¬ NameStart c) : Opening text
  | unclosed {name : String} {rest : List Char} (named : IsName name.toList)
      (stuck : rest.head? ≠ some ')') : Opening (name.toList ++ '(' :: rest)
  | member {member : Member} {rest : List Char} (named : member.Named)
      (ends : member.Ends rest) : Opening (member.text ++ rest)

theorem Opening.ofName {name rest : List Char} (named : IsName name) (ends : NameEnds rest) :
    Opening (name ++ rest) := by
  rw [← String.toList_ofList (l := name)] at named ⊢
  by_cases call : rest.head? = some '('
  · obtain ⟨called, rfl⟩ := List.head?_eq_some_iff.mp call
    by_cases closed : called.head? = some ')'
    · obtain ⟨after, rfl⟩ := List.head?_eq_some_iff.mp closed
      have opening := @member ⟨.method, String.ofList name⟩ after named (by
        intro c _
        trivial)
      simpa [Member.text, MemberKind.mark] using opening
    · exact unclosed named closed
  · have opening := @member ⟨.property, String.ofList name⟩ rest named (by
      intro c head
      exact ⟨ends c head, fun equal => call (equal ▸ head)⟩)
    simpa [Member.text, MemberKind.mark] using opening

theorem exists_name {first : Char} (starts : NameStart first) (rest : List Char) :
    ∃ name after, first :: rest = name ++ after ∧ IsName name ∧ NameEnds after := by
  refine ⟨first :: rest.takeWhile (fun c => NameChar c), rest.dropWhile (fun c => NameChar c),
    by simp [List.takeWhile_append_dropWhile], .intro starts ?_, ?_⟩
  · intro c member
    simpa using List.all_eq_true.mp List.all_takeWhile c member
  · intro c head
    have stopped := List.head?_dropWhile_not (fun c => decide (NameChar c)) rest
    rw [head] at stopped
    simpa using stopped

theorem opening (text : List Char) : Opening text := by
  cases text with
  | nil => exact .nameless (by simp)
  | cons first rest =>
      by_cases starts : NameStart first
      · obtain ⟨name, after, spelled, named, ends⟩ := exists_name starts rest
        rw [spelled]
        exact .ofName named ends
      · exact .nameless (by simpa using starts)

/-- A text is the segments of a path with dots between them. -/
inductive Sentence : List Member → List Char → Prop
  | last {member : Member} (named : member.Named) : Sentence [member] member.text
  | dotted {member : Member} {members : List Member} {text : List Char}
      (named : member.Named) (rest : Sentence members text) :
      Sentence (member :: members) (member.text ++ '.' :: text)

def IsSentence (text : List Char) : Prop := ∃ members, Sentence members text

theorem Sentence.members_ne_nil {members : List Member} {text : List Char}
    (sentence : Sentence members text) : members ≠ [] := by
  cases sentence <;> simp

theorem Sentence.text_eq {members : List Member} {text : List Char}
    (sentence : Sentence members text) : text = ['.'].intercalate (members.map Member.text) := by
  induction sentence with
  | last named => simp
  | @dotted member members text named rest induction =>
      obtain ⟨next, others, rfl⟩ := List.exists_cons_of_ne_nil rest.members_ne_nil
      rw [List.map_cons] at induction ⊢
      rw [List.map_cons, List.intercalate_cons_cons, ← induction]
      simp

theorem Segment.toList_display (segment : Segment) :
    segment.display.toList = segment.member.text := by
  obtain ⟨kind, name, nameSpan, span⟩ := segment
  cases kind <;> simp [display, member, Member.text, MemberKind.mark]

theorem Path.display_of_sentence {path : Path} {text : List Char}
    (sentence : Sentence path.members text) : path.display = String.ofList text := by
  have texts : path.members.map Member.text =
      (path.segments.map Segment.display).map String.toList := by
    simp [members, Segment.toList_display]
  rw [← String.toList_inj, String.toList_ofList, sentence.text_eq, texts]
  exact String.toList_intercalate

theorem Sentence.members_unique {members others : List Member} {text : List Char}
    (sentence : Sentence members text) (other : Sentence others text) : members = others := by
  generalize same : text = spelled at other
  induction sentence generalizing others spelled with
  | @last member named =>
      cases other with
      | @last second secondNamed =>
          rw [(Member.text_append_inj named secondNamed member.ends_nil second.ends_nil
            (by simpa using same)).1]
      | @dotted second _ tail secondNamed _ =>
          have := (Member.text_append_inj named secondNamed member.ends_nil
            (second.ends_dot tail) (by simpa using same)).2
          cases this
  | @dotted member _ text named _ induction =>
      cases other with
      | @last second secondNamed =>
          have := (Member.text_append_inj named secondNamed (member.ends_dot text)
            second.ends_nil (by simpa using same)).2
          cases this
      | @dotted second _ tail secondNamed rest =>
          obtain ⟨rfl, tails⟩ := Member.text_append_inj named secondNamed
            (member.ends_dot text) (second.ends_dot tail) same
          cases tails
          rw [induction _ rfl rest]

end LensPath
