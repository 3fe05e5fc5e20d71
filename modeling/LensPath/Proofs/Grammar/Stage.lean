import LensPath.Proofs.Grammar

/-!
Stages of a sentence, one character after the other. A text begins a sentence exactly if it leads
to a stage, and it is a sentence exactly if that stage is a final one.
-/

namespace LensPath

inductive Stage
  | beforeName
  | inName
  | inCall
  | afterCall
deriving DecidableEq, Repr

namespace Stage

def step : Stage → Char → Option Stage
  | beforeName, c => if NameStart c then some inName else none
  | inName, c =>
      if NameChar c then some inName
      else if c = '(' then some inCall
      else if c = '.' then some beforeName
      else none
  | inCall, c => if c = ')' then some afterCall else none
  | afterCall, c => if c = '.' then some beforeName else none

def run (stage : Stage) (text : List Char) : Option Stage := text.foldlM step stage

def Final : Stage → Prop
  | inName | afterCall => True
  | beforeName | inCall => False

/-- A shortest text that leads to a final stage. -/
def completion : Stage → List Char
  | beforeName => ['a']
  | inCall => [')']
  | inName | afterCall => []

@[simp] theorem run_nil (stage : Stage) : stage.run [] = some stage := rfl

@[simp] theorem run_cons (stage : Stage) (c : Char) (text : List Char) :
    stage.run (c :: text) = (stage.step c).bind (·.run text) := rfl

theorem run_append (stage : Stage) (text more : List Char) :
    stage.run (text ++ more) = (stage.run text).bind (·.run more) :=
  List.foldlM_append

theorem run_completion (stage : Stage) :
    ∃ final, stage.run stage.completion = some final ∧ final.Final := by
  cases stage with
  | beforeName => exact ⟨inName, by decide, trivial⟩
  | inName => exact ⟨inName, rfl, trivial⟩
  | inCall => exact ⟨afterCall, by decide, trivial⟩
  | afterCall => exact ⟨afterCall, rfl, trivial⟩

theorem run_inName {text : List Char} (goesOn : ∀ c ∈ text, NameChar c) :
    inName.run text = some inName := by
  induction text with
  | nil => rfl
  | cons c text induction =>
      have stepped : inName.step c = some inName := if_pos (goesOn c (by simp))
      rw [run_cons, stepped, Option.bind_some]
      exact induction fun next member => goesOn next (by simp [member])

theorem run_name {name : List Char} (named : IsName name) :
    beforeName.run name = some inName := by
  cases named with
  | intro starts goesOn =>
      rw [run_cons, step, if_pos starts, Option.bind_some]
      exact run_inName goesOn

def after (member : Member) : Stage :=
  match member.kind with
  | .property => inName
  | .method => afterCall

theorem after_final (member : Member) : (after member).Final := by
  cases kind : member.kind <;> simp [after, kind, Final]

theorem run_member {member : Member} (named : member.Named) :
    beforeName.run member.text = some (after member) := by
  rw [Member.text, run_append, run_name named, Option.bind_some]
  cases kind : member.kind with
  | property => simp [after, kind, MemberKind.mark]
  | method => simp only [after, kind, MemberKind.mark]; decide

theorem step_after_dot (member : Member) : (after member).step '.' = some beforeName := by
  cases kind : member.kind <;> simp only [after, kind] <;> decide

/-- A character that a member ends before leads nowhere, unless it is a dot. -/
theorem step_after_stuck {member : Member} {c : Char} (ends : member.EndsBefore c)
    (noDot : c ≠ '.') : (after member).step c = none := by
  cases kind : member.kind with
  | property =>
      simp only [Member.EndsBefore, kind] at ends
      simp [after, kind, step, ends.1, ends.2, noDot]
  | method => simp [after, kind, step, noDot]

theorem run_member_append {member : Member} (named : member.Named) (text : List Char) :
    beforeName.run (member.text ++ text) = (after member).run text := by
  rw [run_append, run_member named, Option.bind_some]

theorem run_member_dot {member : Member} (named : member.Named) (text : List Char) :
    beforeName.run (member.text ++ '.' :: text) = beforeName.run text := by
  rw [run_member_append named, run_cons, step_after_dot, Option.bind_some]

theorem run_stopped {member : Member} {c : Char} (named : member.Named)
    (ends : member.EndsBefore c) (noDot : c ≠ '.') (rest : List Char) :
    beforeName.run (member.text ++ c :: rest) = none := by
  rw [run_member_append named, run_cons, step_after_stuck ends noDot, Option.bind_none]

theorem run_opened {name : List Char} (named : IsName name) (rest : List Char) :
    beforeName.run (name ++ '(' :: rest) = inCall.run rest := by
  have called : inName.step '(' = some inCall := by decide
  rw [run_append, run_name named, Option.bind_some, run_cons, called, Option.bind_some]

theorem not_final_unclosed {name rest : List Char} {stage : Stage} (named : IsName name)
    (stuck : rest.head? ≠ some ')') (led : beforeName.run (name ++ '(' :: rest) = some stage) :
    ¬ stage.Final := by
  rw [run_opened named] at led
  cases rest with
  | nil =>
      cases led
      exact id
  | cons c rest =>
      have noClose : c ≠ ')' := fun equal => stuck (equal ▸ rfl)
      simp [step, noClose] at led

theorem not_final_nameless {text : List Char} {stage : Stage}
    (stuck : ∀ c ∈ text.head?, ¬ NameStart c) (led : beforeName.run text = some stage) :
    ¬ stage.Final := by
  cases text with
  | nil =>
      cases led
      exact id
  | cons c text => simp [step, stuck c rfl] at led

end Stage

theorem Sentence.run {members : List Member} {text : List Char}
    (sentence : Sentence members text) :
    ∃ stage, Stage.beforeName.run text = some stage ∧ stage.Final := by
  induction sentence with
  | @last member named => exact ⟨.after member, Stage.run_member named, Stage.after_final member⟩
  | @dotted member _ text named _ induction =>
      obtain ⟨stage, led, final⟩ := induction
      exact ⟨stage, (Stage.run_member_dot named text).trans led, final⟩

theorem Stage.isSentence_of_run {text : List Char} {stage : Stage}
    (led : beforeName.run text = some stage) (final : stage.Final) : IsSentence text := by
  -- On the length: after a dot the rest of the text leads from the same stage to the same end.
  induction length : text.length using Nat.strongRecOn generalizing text with
  | ind size induction =>
      cases opening text with
      | nameless stuck => exact absurd final (not_final_nameless stuck led)
      | unclosed named stuck => exact absurd final (not_final_unclosed named stuck led)
      | @member member rest named ends =>
          cases rest with
          | nil => exact ⟨[member], by simpa using Sentence.last named⟩
          | cons c rest =>
              by_cases dot : c = '.'
              · subst dot
                rw [run_member_dot named] at led
                obtain ⟨members, sentence⟩ :=
                  induction rest.length (by rw [← length]; simp; omega) led rfl
                exact ⟨member :: members, .dotted named sentence⟩
              · rw [run_stopped named (Member.ends_cons.mp ends) dot] at led
                cases led

theorem isSentence_iff_run {text : List Char} :
    IsSentence text ↔ ∃ stage, Stage.beforeName.run text = some stage ∧ stage.Final :=
  ⟨fun ⟨_, sentence⟩ => sentence.run, fun ⟨_, led, final⟩ => Stage.isSentence_of_run led final⟩

def Viable (text : List Char) : Prop := ∃ more, IsSentence (text ++ more)

theorem viable_iff_run {text : List Char} :
    Viable text ↔ ∃ stage, Stage.beforeName.run text = some stage := by
  constructor
  · rintro ⟨more, sentence⟩
    obtain ⟨final, led, _⟩ := isSentence_iff_run.mp sentence
    rw [Stage.run_append] at led
    obtain ⟨stage, reached, _⟩ := Option.bind_eq_some_iff.mp led
    exact ⟨stage, reached⟩
  · rintro ⟨stage, reached⟩
    obtain ⟨final, led, ends⟩ := stage.run_completion
    refine ⟨stage.completion, isSentence_iff_run.mpr ⟨final, ?_, ends⟩⟩
    rw [Stage.run_append, reached, Option.bind_some, led]

end LensPath
