import LensPath.Path.Reading
import LensPath.Proofs.Grammar

/-!
Readings told by the text alone. `Reads` says, one segment after the other, what a text yields
that stands at some offset; every text yields exactly that.
-/

namespace LensPath

namespace Token

theorem isUpper_iff {c : Char} : c.isUpper = true ↔ 'A' ≤ c ∧ c ≤ 'Z' :=
  decide_eq_true_iff

theorem isLower_iff {c : Char} : c.isLower = true ↔ 'a' ≤ c ∧ c ≤ 'z' :=
  Bool.and_eq_true_iff.trans (and_congr decide_eq_true_iff decide_eq_true_iff)

theorem isDigit_iff {c : Char} : c.isDigit = true ↔ '0' ≤ c ∧ c ≤ '9' :=
  Bool.and_eq_true_iff.trans (and_congr decide_eq_true_iff decide_eq_true_iff)

theorem isAlpha_iff {c : Char} :
    c.isAlpha = true ↔ ('A' ≤ c ∧ c ≤ 'Z') ∨ ('a' ≤ c ∧ c ≤ 'z') :=
  Bool.or_eq_true_iff.trans (or_congr isUpper_iff isLower_iff)

theorem isNameStart_iff {c : Char} : isNameStart c = true ↔ NameStart c := by
  rw [isNameStart, Bool.or_eq_true, isAlpha_iff, beq_iff_eq]
  exact or_assoc

theorem isNameChar_iff {c : Char} : isNameChar c = true ↔ NameChar c := by
  rw [NameChar, ← isNameStart_iff]
  simp only [isNameChar, isNameStart, Char.isAlphanum, Bool.or_eq_true, isDigit_iff]
  exact or_right_comm

theorem isNameChar_eq : isNameChar = fun c => decide (NameChar c) := by
  funext c
  rw [Bool.eq_iff_iff, isNameChar_iff, decide_eq_true_eq]

def IsMark (c : Char) : Prop := c = '.' ∨ c = '(' ∨ c = ')'

instance (c : Char) : Decidable (IsMark c) := inferInstanceAs (Decidable (_ ∨ _ ∨ _))

theorem not_isMark_of_nameStart {c : Char} (starts : NameStart c) : ¬ IsMark c := by
  rintro (rfl | rfl | rfl) <;> exact absurd starts (by decide)

theorem take?_dot (rest : List Char) : take? ('.' :: rest) = some (dot, rest) := rfl

theorem take?_openParen (rest : List Char) :
    take? ('(' :: rest) = some (openParen, rest) := rfl

theorem take?_closeParen (rest : List Char) :
    take? (')' :: rest) = some (closeParen, rest) := rfl

theorem take?_of_not_isMark {c : Char} {rest : List Char} (noMark : ¬ IsMark c) :
    take? (c :: rest) =
      if NameStart c then
        some (name (String.ofList (c :: rest.takeWhile fun c => NameChar c)),
          rest.dropWhile fun c => NameChar c)
      else none := by
  obtain ⟨noDot, noOpen, noClose⟩ : c ≠ '.' ∧ c ≠ '(' ∧ c ≠ ')' := by
    simpa [IsMark] using noMark
  simp only [take?, beq_iff_eq, noDot, noOpen, noClose, if_false, isNameStart_iff, isNameChar_eq]

theorem take?_name {name : String} {rest : List Char} (named : IsName name.toList)
    (ends : NameEnds rest) : take? (name.toList ++ rest) = some (.name name, rest) := by
  generalize spelled : name.toList = text at named
  cases named with
  | @intro first more starts goesOn =>
      rw [List.cons_append, take?_of_not_isMark (not_isMark_of_nameStart starts), if_pos starts,
        takeWhile_name goesOn ends, dropWhile_name goesOn ends, ← spelled, String.ofList_toList]

theorem take?_append {text rest : List Char} {token : Token}
    (taken : take? text = some (token, rest)) : text = token.display.toList ++ rest := by
  cases text with
  | nil => cases taken
  | cons c text =>
      by_cases mark : IsMark c
      · rcases mark with rfl | rfl | rfl <;> cases taken <;> rfl
      · rw [take?_of_not_isMark mark] at taken
        split at taken
        · cases taken
          simp [display]
        · cases taken

theorem nameStart_of_take? {text rest : List Char} {found : String}
    (taken : take? text = some (.name found, rest)) : ∃ c ∈ text.head?, NameStart c := by
  cases text with
  | nil => cases taken
  | cons c text =>
      refine ⟨c, rfl, ?_⟩
      by_cases mark : IsMark c
      · rcases mark with rfl | rfl | rfl <;> cases taken
      · rw [take?_of_not_isMark mark] at taken
        split at taken
        · assumption
        · cases taken

theorem take?_stray {c : Char} {rest : List Char} (noMark : ¬ IsMark c)
    (noStart : ¬ NameStart c) : take? (c :: rest) = none := by
  rw [take?_of_not_isMark noMark, if_neg noStart]

end Token

namespace Lexed

theorem scan_some {start : Nat} {text rest : List Char} {token : Token}
    (taken : Token.take? text = some (token, rest)) :
    scan start text =
      { scan (start + token.width) rest with
        tokens := token.locate start :: (scan (start + token.width) rest).tokens } := by
  rw [scan]
  split
  · next missed => rw [taken] at missed; cases missed
  · next found =>
      rw [taken] at found
      cases found
      rfl

theorem scan_none {start : Nat} {text : List Char} (missed : Token.take? text = none) :
    scan start text = ⟨[], start, StrayChar.head? text start⟩ := by
  rw [scan]
  split
  · rfl
  · next found => rw [missed] at found; cases found

theorem scan_nil (start : Nat) : scan start [] = ⟨[], start, none⟩ := scan_none rfl

def HeadAvoids (tokens : List Token.Located) (token : Token) : Prop :=
  ∀ located ∈ tokens.head?, located.token ≠ token

theorem headAvoids_scan {start : Nat} {text : List Char} {token : Token}
    (avoids : ∀ rest, Token.take? text ≠ some (token, rest)) :
    HeadAvoids (scan start text).tokens token := by
  cases taken : Token.take? text with
  | none =>
      rw [scan_none taken]
      intro located head
      cases head
  | some found =>
      rw [scan_some taken]
      intro located head
      cases head
      rintro rfl
      exact avoids _ taken

def SameEnd (lexed run : Lexed) : Prop := lexed.stop = run.stop ∧ lexed.stray = run.stray

theorem SameEnd.tail {lexed : Lexed} {start : Nat} {text rest : List Char} {token : Token}
    (same : lexed.SameEnd (scan start text)) (taken : Token.take? text = some (token, rest)) :
    lexed.SameEnd (scan (start + token.width) rest) := by
  rwa [scan_some taken] at same

theorem scan_name {start : Nat} {name : String} {rest : List Char} (named : IsName name.toList)
    (ends : NameEnds rest) :
    (scan start (name.toList ++ rest)).tokens =
      (Token.name name).locate start :: (scan (start + name.utf8ByteSize) rest).tokens := by
  rw [scan_some (Token.take?_name named ends)]
  rfl

theorem SameEnd.member {lexed : Lexed} {start : Nat} {member : Member} {rest : List Char}
    (same : lexed.SameEnd (scan start (member.text ++ rest)))
    (named : member.Named) (ends : member.Ends rest) :
    lexed.SameEnd (scan (start + member.width) rest) := by
  rw [Member.text, List.append_assoc] at same
  have afterName := same.tail (Token.take?_name named ends.nameEnds)
  obtain ⟨kind, name⟩ := member
  cases kind with
  | property => simpa [MemberKind.mark, Token.width] using afterName
  | method =>
      have afterCall := (afterName.tail (Token.take?_openParen _)).tail (Token.take?_closeParen _)
      simpa [Token.width, Nat.add_assoc] using afterCall

end Lexed

def Problem.atHead (expected : Expectation) (start : Nat) (text : List Char) : Problem :=
  match Token.take? text, text with
  | some (token, _), _ => .unexpected expected (token.locate start)
  | none, c :: _ => .stray ⟨c, start⟩
  | none, [] => .unexpected expected (Token.finish.locate start)

theorem Lexed.problemAt_scan {lexed : Lexed} {start : Nat} {text : List Char}
    (same : lexed.SameEnd (scan start text)) (expected : Expectation) :
    lexed.problemAt expected (scan start text).tokens = .atHead expected start text := by
  obtain ⟨stop, stray⟩ := same
  cases taken : Token.take? text with
  | some found =>
      rw [scan_some taken]
      simp only [problemAt, Problem.atHead, taken]
  | none =>
      rw [scan_none taken] at stop stray ⊢
      cases text with
      | nil =>
          simp only [StrayChar.head?, List.head?_nil, Option.map_none] at stray
          simp only [problemAt, Problem.atHead, finish, taken, stop, stray]
      | cons c rest =>
          simp only [StrayChar.head?, List.head?_cons, Option.map_some] at stray
          simp only [problemAt, Problem.atHead, taken, stray]

/-- What a text yields that stands at an offset. The constructors are the ways in which the text
opens, and what may follow its first segment. -/
inductive Reads : Nat → List Char → Gathered → Prop
  | nameless {start : Nat} {text : List Char} (stuck : ∀ c ∈ text.head?, ¬ NameStart c) :
      Reads start text ⟨[], [], some (.atHead .name start text)⟩
  | unclosed {start : Nat} {name : String} {rest : List Char} (named : IsName name.toList)
      (stuck : rest.head? ≠ some ')') :
      Reads start (name.toList ++ '(' :: rest)
        ⟨[], [], some (.atHead .closeParen (start + name.utf8ByteSize + 1) rest)⟩
  | last {start : Nat} {member : Member} (named : member.Named) :
      Reads start member.text ⟨[member.placed start], [], none⟩
  | stopped {start : Nat} {member : Member} {c : Char} {rest : List Char}
      (named : member.Named) (ends : member.EndsBefore c) (noDot : c ≠ '.') :
      Reads start (member.text ++ c :: rest)
        ⟨[member.placed start], [],
          some (.atHead .dotOrEnd (start + member.width) (c :: rest))⟩
  | dotted {start : Nat} {member : Member} {text : List Char} {gathered : Gathered}
      (named : member.Named) (rest : Reads (start + member.width + 1) text gathered) :
      Reads start (member.text ++ '.' :: text)
        (gathered.prepend (member.placed start)
          ⟨start + member.width, start + member.width + 1⟩)

namespace Segment

theorem take_nameless {tokens : List Token.Located}
    (avoids : ∀ name, Lexed.HeadAvoids tokens (.name name)) :
    take tokens = .error (.name, tokens) := by
  unfold take
  split
  · exact absurd rfl (avoids _ _ rfl)
  · exact absurd rfl (avoids _ _ rfl)
  · exact absurd rfl (avoids _ _ rfl)
  · rfl

theorem take_unclosed {name : String} {nameSpan opened : Span} {tokens : List Token.Located}
    (avoids : Lexed.HeadAvoids tokens .closeParen) :
    take (⟨.name name, nameSpan⟩ :: ⟨.openParen, opened⟩ :: tokens) =
      .error (.closeParen, tokens) := by
  unfold take
  split
  · next equal => cases equal; exact absurd rfl (avoids _ rfl)
  · next equal => cases equal; rfl
  · next unopened equal => cases equal; exact (unopened _ _ rfl).elim
  · next unnamed => exact (unnamed _ _ _ rfl).elim

theorem take_property {name : String} {nameSpan : Span} {tokens : List Token.Located}
    (avoids : Lexed.HeadAvoids tokens .openParen) :
    take (⟨.name name, nameSpan⟩ :: tokens) =
      .ok (⟨.property, name, nameSpan, nameSpan⟩, tokens) := by
  unfold take
  split
  · next equal => cases equal; exact absurd rfl (avoids _ rfl)
  · next equal => cases equal; exact absurd rfl (avoids _ rfl)
  · next equal => cases equal; rfl
  · next unnamed => exact (unnamed _ _ _ rfl).elim

theorem take_scan_member {start : Nat} {member : Member} {rest : List Char}
    (named : member.Named) (ends : member.Ends rest) :
    take (Lexed.scan start (member.text ++ rest)).tokens =
      .ok (member.placed start, (Lexed.scan (start + member.width) rest).tokens) := by
  rw [Member.text, List.append_assoc, Lexed.scan_name named ends.nameEnds]
  obtain ⟨kind, name⟩ := member
  cases kind with
  | property =>
      have noCall : ∀ more, Token.take? rest ≠ some (.openParen, more) := by
        intro more taken
        exact absurd rfl (ends '(' (Token.take?_append taken ▸ rfl)).2
      simp only [MemberKind.mark, List.nil_append, Token.locate]
      rw [take_property (Lexed.headAvoids_scan noCall)]
      simp [Member.placed, Token.width]
  | method =>
      simp only [MemberKind.mark, List.cons_append, List.nil_append,
        Lexed.scan_some (Token.take?_openParen _), Lexed.scan_some (Token.take?_closeParen _)]
      simp [take, Member.placed, Token.width, Token.locate, Span.hull, Nat.add_assoc]

theorem take_scan_unclosed {start : Nat} {name : String} {rest : List Char}
    (named : IsName name.toList) (stuck : rest.head? ≠ some ')') :
    take (Lexed.scan start (name.toList ++ '(' :: rest)).tokens =
      .error (.closeParen, (Lexed.scan (start + name.utf8ByteSize + 1) rest).tokens) := by
  have ends := nameEnds_openParen rest
  have noClose : ∀ more, Token.take? rest ≠ some (.closeParen, more) := by
    intro more taken
    exact stuck (Token.take?_append taken ▸ rfl)
  rw [Lexed.scan_name named ends, Lexed.scan_some (Token.take?_openParen rest)]
  exact take_unclosed (Lexed.headAvoids_scan noClose)

theorem take_scan_nameless {start : Nat} {text : List Char}
    (stuck : ∀ c ∈ text.head?, ¬ NameStart c) :
    take (Lexed.scan start text).tokens = .error (.name, (Lexed.scan start text).tokens) := by
  apply take_nameless
  intro name
  apply Lexed.headAvoids_scan
  intro rest taken
  obtain ⟨c, first, starts⟩ := Token.nameStart_of_take? taken
  exact stuck c first starts

end Segment

namespace Gathered

@[simp] theorem segments_prepend (segment : Segment) (dot : Span) (gathered : Gathered) :
    (gathered.prepend segment dot).segments = segment :: gathered.segments := by
  rw [prepend]
  split
  · next none => rw [List.isEmpty_iff.mp none]
  · rfl

@[simp] theorem separators_prepend (segment : Segment) (dot : Span) (gathered : Gathered) :
    (gathered.prepend segment dot).separators =
      if gathered.segments.isEmpty then [] else dot :: gathered.separators := by
  rw [prepend]
  split <;> rfl

@[simp] theorem problem_prepend (segment : Segment) (dot : Span) (gathered : Gathered) :
    (gathered.prepend segment dot).problem = gathered.problem := by
  rw [prepend]
  split <;> rfl

theorem ofTokens_error {lexed : Lexed} {tokens rest : List Token.Located}
    {expected : Expectation} (taken : Segment.take tokens = .error (expected, rest)) :
    ofTokens lexed tokens = ⟨[], [], some (lexed.problemAt expected rest)⟩ := by
  rw [ofTokens]
  split <;> simp_all

theorem ofTokens_last {lexed : Lexed} {tokens : List Token.Located} {segment : Segment}
    (taken : Segment.take tokens = .ok (segment, [])) :
    ofTokens lexed tokens = ⟨[segment], [], lexed.stray.map .stray⟩ := by
  rw [ofTokens]
  split <;> simp_all

theorem ofTokens_dot {lexed : Lexed} {tokens rest : List Token.Located} {segment : Segment}
    {dot : Span} (taken : Segment.take tokens = .ok (segment, ⟨.dot, dot⟩ :: rest)) :
    ofTokens lexed tokens = prepend segment dot (ofTokens lexed rest) := by
  rw [ofTokens]
  split <;> simp_all

theorem ofTokens_stopped {lexed : Lexed} {tokens rest : List Token.Located} {segment : Segment}
    {found : Token.Located} (taken : Segment.take tokens = .ok (segment, found :: rest))
    (noDot : found.token ≠ .dot) :
    ofTokens lexed tokens = ⟨[segment], [], some (.unexpected .dotOrEnd found)⟩ := by
  rw [ofTokens]
  split
  · simp_all
  · simp_all
  · next again =>
      rw [taken] at again
      cases again
      exact absurd rfl noDot
  · simp_all

theorem ofTokens_scan_stopped {lexed : Lexed} {tokens : List Token.Located}
    {segment : Segment} {offset : Nat} {c : Char} {rest : List Char}
    (taken : Segment.take tokens = .ok (segment, (Lexed.scan offset (c :: rest)).tokens))
    (same : lexed.SameEnd (Lexed.scan offset (c :: rest))) (noDot : c ≠ '.') :
    ofTokens lexed tokens =
      ⟨[segment], [], some (.atHead .dotOrEnd offset (c :: rest))⟩ := by
  rw [← Lexed.problemAt_scan same]
  cases found : Token.take? (c :: rest) with
  | none =>
      rw [Lexed.scan_none found] at taken same ⊢
      have stray : lexed.stray = some ⟨c, offset⟩ := same.2
      rw [ofTokens_last taken]
      simp [Lexed.problemAt, stray]
  | some next =>
      rw [Lexed.scan_some found] at taken ⊢
      refine ofTokens_stopped taken ?_
      rintro (isDot : next.1 = .dot)
      have headed := Token.take?_append found
      rw [isDot] at headed
      cases headed
      exact noDot rfl

end Gathered

theorem exists_reads (start : Nat) (text : List Char) :
    ∃ gathered, Reads start text gathered := by
  -- On the length: a text that goes on behind a dot is read from there like a text of its own.
  induction length : text.length using Nat.strongRecOn generalizing start text with
  | ind size induction =>
      cases opening text with
      | nameless stuck => exact ⟨_, .nameless stuck⟩
      | unclosed named stuck => exact ⟨_, .unclosed named stuck⟩
      | @member member rest named ends =>
          cases rest with
          | nil =>
              rw [List.append_nil]
              exact ⟨_, .last named⟩
          | cons c rest =>
              by_cases dot : c = '.'
              · subst dot
                obtain ⟨gathered, reads⟩ := induction rest.length (by rw [← length]; simp; omega)
                  (start + member.width + 1) rest rfl
                exact ⟨_, .dotted named reads⟩
              · exact ⟨_, .stopped named (Member.ends_cons.mp ends) dot⟩

theorem Reads.eq_ofTokens {lexed : Lexed} {start : Nat} {text : List Char} {gathered : Gathered}
    (reads : Reads start text gathered) (same : lexed.SameEnd (Lexed.scan start text)) :
    gathered = Gathered.ofTokens lexed (Lexed.scan start text).tokens := by
  induction reads with
  | nameless stuck =>
      rw [Gathered.ofTokens_error (Segment.take_scan_nameless stuck), Lexed.problemAt_scan same]
  | @unclosed start name rest named stuck =>
      have sameRest : lexed.SameEnd (Lexed.scan (start + name.utf8ByteSize + 1) rest) :=
        (same.tail (Token.take?_name named (nameEnds_openParen rest))).tail
          (Token.take?_openParen rest)
      rw [Gathered.ofTokens_error (Segment.take_scan_unclosed named stuck),
        Lexed.problemAt_scan sameRest]
  | @last start member named =>
      rw [← List.append_nil member.text] at same ⊢
      have taken := @Segment.take_scan_member start member [] named member.ends_nil
      have sameRest := same.member named member.ends_nil
      rw [Lexed.scan_nil] at taken sameRest
      rw [Gathered.ofTokens_last taken, sameRest.2]
      rfl
  | @stopped start member c rest named ends noDot =>
      have endsRest : member.Ends (c :: rest) := Member.ends_cons.mpr ends
      have taken := @Segment.take_scan_member start member (c :: rest) named endsRest
      rw [Gathered.ofTokens_scan_stopped taken (same.member named endsRest) noDot]
  | @dotted start member text gathered named _ induction =>
      have endsRest := member.ends_dot text
      have taken := @Segment.take_scan_member start member ('.' :: text) named endsRest
      have sameRest := (same.member named endsRest).tail (Token.take?_dot text)
      rw [Lexed.scan_some (Token.take?_dot text)] at taken
      rw [Gathered.ofTokens_dot taken, induction sameRest]
      rfl

theorem reads_scan {lexed : Lexed} {start : Nat} {text : List Char}
    (same : lexed.SameEnd (Lexed.scan start text)) :
    Reads start text (Gathered.ofTokens lexed (Lexed.scan start text).tokens) := by
  obtain ⟨gathered, reads⟩ := exists_reads start text
  rw [← reads.eq_ofTokens same]
  exact reads

theorem Reads.unique {start : Nat} {text : List Char} {gathered other : Gathered}
    (reads : Reads start text gathered) (otherReads : Reads start text other) :
    gathered = other := by
  have same : (Lexed.scan start text).SameEnd (Lexed.scan start text) := ⟨rfl, rfl⟩
  rw [reads.eq_ofTokens same, otherReads.eq_ofTokens same]

def Segment.dot (segment : Segment) : Span := ⟨segment.span.stop, segment.span.stop + 1⟩

def Segment.dots (segments : List Segment) : List Span := segments.dropLast.map Segment.dot

@[simp] theorem Segment.dots_singleton (segment : Segment) : dots [segment] = [] := rfl

theorem Segment.dots_cons {segments : List Segment} (nonempty : segments ≠ [])
    (segment : Segment) : dots (segment :: segments) = segment.dot :: dots segments := by
  rw [dots, List.dropLast_cons_of_ne_nil nonempty, List.map_cons, dots]

theorem Reads.separators_eq {start : Nat} {text : List Char} {gathered : Gathered}
    (reads : Reads start text gathered) :
    gathered.separators = Segment.dots gathered.segments := by
  induction reads with
  | nameless | unclosed | last | stopped => rfl
  | @dotted start member _ gathered _ _ induction =>
      rw [Gathered.separators_prepend, Gathered.segments_prepend]
      split
      · next none => rw [List.isEmpty_iff.mp none, Segment.dots_singleton]
      · next some =>
          rw [Segment.dots_cons (by simpa using some), induction]
          rfl

theorem Reads.balanced {start : Nat} {text : List Char} {gathered : Gathered}
    (reads : Reads start text gathered) :
    gathered.separators.length = gathered.segments.length - 1 := by
  rw [reads.separators_eq, Segment.dots, List.length_map, List.length_dropLast]

theorem Reads.segments_eq {start : Nat} {text : List Char} {gathered : Gathered}
    (reads : Reads start text gathered) :
    gathered.segments = Member.placeAll start (gathered.segments.map Segment.member) := by
  induction reads with
  | nameless | unclosed | last | stopped => rfl
  | @dotted start member _ gathered _ _ induction =>
      rw [Gathered.segments_prepend, List.map_cons, Member.member_placed, Member.placeAll,
        ← induction]

theorem Path.ofParts?_of_balanced {segments : List Segment} {separators : List Span}
    (balanced : separators.length = segments.length - 1) :
    Path.ofParts? segments separators = some ⟨segments, separators, balanced⟩ :=
  dif_pos balanced

def Reading.gathered (reading : Reading) : Gathered :=
  ⟨reading.path.segments, reading.path.separators, reading.problem⟩

theorem reads_ofString (source : String) :
    Reads 0 source.toList (Reading.ofString source).gathered := by
  have reads : Reads 0 source.toList
      (Gathered.ofTokens (Lexed.ofString source) (Lexed.ofString source).tokens) :=
    reads_scan ⟨rfl, rfl⟩
  have built := Path.ofParts?_of_balanced reads.balanced
  simpa only [Reading.gathered, Reading.ofString, Reading.ofLexed, built, Option.getD_some]
    using reads

end LensPath
