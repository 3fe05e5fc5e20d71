import LensPath.Proofs.Grammar.Stage
import LensPath.Proofs.Reading

/-!
A text has a problem exactly if it is no sentence. The problem stands where the text stops to be
the beginning of one, covers what stands there, and says what a sentence could go on with.
-/

namespace LensPath

structure LongestViable (source settled : List Char) : Prop where
  head : settled <+: source
  viable : Viable settled
  length_le : ∀ other, other <+: source → Viable other → other.length ≤ settled.length

/-- What is at fault where a rest of a text is not wanted: the name or the mark that it begins
with, its first character if that starts neither, or nothing at its end. -/
inductive Culprit : List Char → List Char → Prop
  | name {name after : List Char} (named : IsName name) (ends : NameEnds after) :
      Culprit name after
  | mark {c : Char} {after : List Char} (mark : Token.IsMark c) : Culprit [c] after
  | stray {c : Char} {after : List Char} (noStart : ¬ NameStart c) (noMark : ¬ Token.IsMark c) :
      Culprit [c] after
  | finish : Culprit [] []

/-- What a sentence goes on with after its last character so far, apart from more of a name. -/
def wanted : Option Char → String
  | none | some '.' => "identifier"
  | some '(' => "')'"
  | some _ => "'.' or end of path"

def complaint (wanted : String) : List Char → String
  | [] => "expected " ++ wanted ++ ", found 'end of path'"
  | c :: more =>
      if NameStart c ∨ Token.IsMark c then
        "expected " ++ wanted ++ ", found '" ++ String.ofList (c :: more) ++ "'"
      else "unexpected character: '" ++ String.singleton c ++ "'"

structure Blames (problem : Problem) (source settled culprit after : List Char) : Prop where
  spelled : source = settled ++ culprit ++ after
  longest : LongestViable source settled
  found : Culprit culprit after
  span : problem.span = ⟨Text.byteLength settled, Text.byteLength (settled ++ culprit)⟩
  message : problem.message = complaint (wanted settled.getLast?) culprit

namespace Stage

def expected : Stage → Expectation
  | beforeName => .name
  | inCall => .closeParen
  | inName | afterCall => .dotOrEnd

/-- A sentence at this stage neither goes on with the rest nor ends before it. -/
structure Stuck (stage : Stage) (rest : List Char) : Prop where
  step : ∀ c ∈ rest.head?, stage.step c = none
  final : rest = [] → ¬ stage.Final

theorem expected_after (member : Member) : (after member).expected = .dotOrEnd := by
  cases kind : member.kind <;> simp only [after, kind, expected]

theorem Stuck.of_step {stage : Stage} {c : Char} {rest : List Char}
    (stuck : stage.step c = none) : stage.Stuck (c :: rest) :=
  ⟨by simpa using stuck, by simp⟩

theorem stuck_beforeName {text : List Char} (stuck : ∀ c ∈ text.head?, ¬ NameStart c) :
    beforeName.Stuck text := by
  refine ⟨?_, fun _ => id⟩
  intro c head
  exact if_neg (stuck c head)

theorem stuck_inCall {rest : List Char} (stuck : rest.head? ≠ some ')') :
    inCall.Stuck rest := by
  refine ⟨?_, fun _ => id⟩
  intro c head
  refine if_neg ?_
  rintro rfl
  exact stuck head

theorem wanted_of_nameChar {c : Char} (nameChar : NameChar c) :
    wanted (some c) = "'.' or end of path" := by
  unfold wanted
  split
  · next equal => cases equal
  · next equal => cases equal; exact absurd nameChar (by decide)
  · next equal => cases equal; exact absurd nameChar (by decide)
  · rfl

theorem wanted_of_step {before next : Stage} {c : Char} (stepped : before.step c = some next) :
    wanted (some c) = next.expected.display := by
  cases before with
  | beforeName =>
      obtain ⟨starts, equal⟩ := Option.ite_none_right_eq_some.mp stepped
      cases equal
      exact wanted_of_nameChar starts.nameChar
  | inName =>
      simp only [step] at stepped
      split at stepped
      · next nameChar => cases stepped; exact wanted_of_nameChar nameChar
      · split at stepped
        · next opened => cases opened; cases stepped; rfl
        · obtain ⟨dot, equal⟩ := Option.ite_none_right_eq_some.mp stepped
          cases dot
          cases equal
          rfl
  | inCall =>
      obtain ⟨closed, equal⟩ := Option.ite_none_right_eq_some.mp stepped
      cases closed
      cases equal
      rfl
  | afterCall =>
      obtain ⟨dot, equal⟩ := Option.ite_none_right_eq_some.mp stepped
      cases dot
      cases equal
      rfl

theorem wanted_of_run {settled : List Char} {stage : Stage}
    (led : beforeName.run settled = some stage) :
    wanted settled.getLast? = stage.expected.display := by
  rcases List.eq_nil_or_concat settled with rfl | ⟨init, c, rfl⟩
  · cases led
    rfl
  · rw [List.concat_eq_append, run_append] at led
    obtain ⟨before, _, last⟩ := Option.bind_eq_some_iff.mp led
    obtain ⟨next, stepped, equal⟩ := Option.bind_eq_some_iff.mp last
    cases equal
    rw [List.concat_eq_append, List.getLast?_concat]
    exact wanted_of_step stepped

theorem Stuck.longestViable {stage : Stage} {settled rest : List Char}
    (stuck : stage.Stuck rest) (led : beforeName.run settled = some stage) :
    LongestViable (settled ++ rest) settled := by
  refine ⟨List.prefix_append settled rest, viable_iff_run.mpr ⟨stage, led⟩, ?_⟩
  rintro other ⟨after, spelled⟩ viable
  rcases List.append_eq_append_iff.mp spelled with ⟨more, rfl, _⟩ | ⟨more, rfl, rfl⟩
  · simp
  · cases more with
    | nil => simp
    | cons c more =>
        -- To be longer, the other text would have to take the step that is stuck.
        obtain ⟨next, reached⟩ := viable_iff_run.mp viable
        rw [run_append, led, Option.bind_some, run_cons, stuck.step c rfl] at reached
        cases reached

theorem Stuck.not_isSentence {stage : Stage} {settled rest : List Char}
    (stuck : stage.Stuck rest) (led : beforeName.run settled = some stage) :
    ¬ IsSentence (settled ++ rest) := by
  rw [isSentence_iff_run, run_append, led, Option.bind_some]
  rintro ⟨last, reached, final⟩
  cases rest with
  | nil =>
      cases reached
      exact stuck.final rfl final
  | cons c rest =>
      rw [run_cons, stuck.step c rfl] at reached
      cases reached

end Stage

theorem Reads.problem {start : Nat} {text : List Char} {gathered : Gathered}
    (reads : Reads start text gathered) :
    (gathered.problem = none ∧ IsSentence text) ∨
      ∃ settled rest stage, text = settled ++ rest ∧
        Stage.beforeName.run settled = some stage ∧ stage.Stuck rest ∧
        gathered.problem =
          some (.atHead stage.expected (start + Text.byteLength settled) rest) := by
  induction reads with
  | @nameless _ text stuck =>
      exact .inr ⟨[], text, .beforeName, rfl, rfl, Stage.stuck_beforeName stuck, rfl⟩
  | @unclosed _ name rest named stuck =>
      refine .inr ⟨name.toList ++ ['('], rest, .inCall, by simp, ?_, Stage.stuck_inCall stuck, ?_⟩
      · rw [Stage.run_opened named, Stage.run_nil]
      · simp [Nat.add_assoc]
        rfl
  | @last _ member named => exact .inl ⟨rfl, [member], .last named⟩
  | @stopped _ member c rest named ends noDot =>
      refine .inr ⟨member.text, c :: rest, .after member, rfl, Stage.run_member named,
        .of_step (Stage.step_after_stuck ends noDot), ?_⟩
      rw [Stage.expected_after]
      rfl
  | @dotted start member text gathered named _ induction =>
      rw [Gathered.problem_prepend]
      rcases induction with
        ⟨none, members, sentence⟩ | ⟨settled, rest, stage, rfl, led, stuck, found⟩
      · exact .inl ⟨none, member :: members, .dotted named sentence⟩
      · refine .inr ⟨member.text ++ '.' :: settled, rest, stage, by simp,
          (Stage.run_member_dot named settled).trans led, stuck, ?_⟩
        rw [found, Member.byteLength_dotted]
        simp only [Nat.add_assoc]

theorem complaint_of_token {c : Char} (token : NameStart c ∨ Token.IsMark c)
    (wanted : String) (more : List Char) :
    complaint wanted (c :: more) =
      "expected " ++ wanted ++ ", found '" ++ String.ofList (c :: more) ++ "'" :=
  if_pos token

theorem complaint_of_stray {c : Char} (noToken : ¬ (NameStart c ∨ Token.IsMark c))
    (wanted : String) (start : Nat) : complaint wanted [c] = StrayChar.message ⟨c, start⟩ :=
  if_neg noToken

namespace Problem

theorem atHead_token {text rest : List Char} {token : Token}
    (taken : Token.take? text = some (token, rest)) (expected : Expectation) (start : Nat) :
    atHead expected start text = .unexpected expected (token.locate start) := by
  simp only [atHead, taken]

theorem atHead_blames (expected : Expectation) (start : Nat) (text : List Char) :
    ∃ culprit after, text = culprit ++ after ∧ Culprit culprit after ∧
      (atHead expected start text).span = ⟨start, start + Text.byteLength culprit⟩ ∧
      (atHead expected start text).message = complaint expected.display culprit := by
  cases text with
  | nil =>
      refine ⟨[], [], rfl, .finish, rfl, ?_⟩
      simp only [atHead, Token.take?, message, complaint, Token.locate, Token.display,
        String.append_assoc]
      rfl
  | cons c rest =>
      by_cases mark : Token.IsMark c
      · refine ⟨[c], rest, rfl, .mark mark, ?_⟩
        rw [complaint_of_token (.inr mark)]
        rcases mark with rfl | rfl | rfl
        · rw [atHead_token (Token.take?_dot rest)]
          exact ⟨rfl, rfl⟩
        · rw [atHead_token (Token.take?_openParen rest)]
          exact ⟨rfl, rfl⟩
        · rw [atHead_token (Token.take?_closeParen rest)]
          exact ⟨rfl, rfl⟩
      · by_cases starts : NameStart c
        · obtain ⟨name, after, spelled, named, ends⟩ := exists_name starts rest
          refine ⟨name, after, spelled, .name named ends, ?_⟩
          have taken := @Token.take?_name (String.ofList name) after (by simpa using named) ends
          rw [String.toList_ofList, ← spelled] at taken
          rw [atHead_token taken]
          cases named with
          | intro first _ =>
              rw [complaint_of_token (.inl first)]
              exact ⟨by simp [span, Token.locate, Token.width, Text.byteLength_ofList], rfl⟩
        · refine ⟨[c], rest, rfl, .stray starts mark, ?_⟩
          have missed : Token.take? (c :: rest) = none := Token.take?_stray mark starts
          rw [complaint_of_stray (by simp [starts, mark]) _ start]
          simp [atHead, missed, span, message, StrayChar.span]

end Problem

theorem Reading.ofString_blames (source : String) :
    ((ofString source).problem = none ↔ IsSentence source.toList) ∧
      ∀ problem ∈ (ofString source).problem, ∃ settled culprit after,
        Blames problem source.toList settled culprit after := by
  rcases (reads_ofString source).problem with
    ⟨none, sentence⟩ | ⟨settled, rest, stage, spelled, led, stuck, found⟩
  · have none : (ofString source).problem = .none := none
    simp [none, sentence]
  · have found : (ofString source).problem = some _ := found
    obtain ⟨culprit, after, rfl, isCulprit, span, message⟩ :=
      Problem.atHead_blames stage.expected (0 + Text.byteLength settled) rest
    refine ⟨?_, ?_⟩
    · rw [found, spelled]
      simpa using stuck.not_isSentence led
    · rw [found]
      rintro problem ⟨⟩
      refine ⟨settled, culprit, after, by simpa using spelled, ?_, isCulprit, ?_, ?_⟩
      · rw [spelled]
        exact stuck.longestViable led
      · rw [span]
        simp
      · rw [message, Stage.wanted_of_run led]

theorem Reading.ofString_blames_name :
    (ofString "a.m(b").problem = some (.unexpected .closeParen ⟨.name "b", ⟨4, 5⟩⟩) ∧
      ∃ settled culprit after, Blames (.unexpected .closeParen ⟨.name "b", ⟨4, 5⟩⟩)
        "a.m(b".toList settled culprit after := by
  have found : (ofString "a.m(b").problem =
      some (.unexpected .closeParen ⟨.name "b", ⟨4, 5⟩⟩) := by decide +kernel
  exact ⟨found, (ofString_blames "a.m(b").2 _ found⟩

end LensPath
