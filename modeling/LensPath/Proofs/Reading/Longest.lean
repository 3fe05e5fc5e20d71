import LensPath.Proofs.Grammar.Stage
import LensPath.Proofs.Reading

/-!
The path of a text is the longest sentence at its head that does not cut a name short and does not
take the name of a call for a property.
-/

namespace LensPath

/-- A name at the end of a text ends there and is not called. -/
def CleanCut (text rest : List Char) : Prop :=
  ∀ c ∈ text.getLast?, NameChar c → ∀ next ∈ rest.head?, ¬ NameChar next ∧ next ≠ '('

structure Usable (source text : List Char) : Prop where
  sentence : IsSentence text
  cut : ∃ rest, source = text ++ rest ∧ CleanCut text rest

structure Longest (source text : List Char) : Prop where
  usable : Usable source text
  length_le : ∀ other, Usable source other → other.length ≤ text.length

theorem CleanCut.of_last {text rest : List Char} {c : Char} (last : text.getLast? = some c)
    (cut : NameChar c → ∀ next ∈ rest.head?, ¬ NameChar next ∧ next ≠ '(') :
    CleanCut text rest := by
  intro found foundLast
  rw [last] at foundLast
  cases foundLast
  exact cut

theorem cleanCut_member_dot {member : Member} {text rest : List Char} (nonempty : text ≠ []) :
    CleanCut (member.text ++ '.' :: text) rest ↔ CleanCut text rest := by
  obtain ⟨c, last⟩ : ∃ c, text.getLast? = some c :=
    ⟨_, List.getLast?_eq_some_getLast nonempty⟩
  simp [CleanCut, List.getLast?_append, List.getLast?_cons, last]

theorem not_cleanCut_name {text more : List Char} (nonempty : text ≠ [])
    (named : ∀ c ∈ text ++ more, NameChar c) (rest : List Char) :
    ¬ CleanCut text (more ++ '(' :: rest) := by
  intro cut
  have last := cut _ (List.getLast?_eq_some_getLast nonempty)
    (named _ (List.mem_append_left _ (List.getLast_mem nonempty)))
  cases more with
  | nil => exact (last '(' rfl).2 rfl
  | cons c more => exact (last c rfl).1 (named c (by simp))

theorem IsSentence.ne_nil {text : List Char} (sentence : IsSentence text) : text ≠ [] := by
  rintro rfl
  obtain ⟨stage, led, final⟩ := isSentence_iff_run.mp sentence
  cases led
  exact final

theorem isSentence_member {member : Member} (named : member.Named) : IsSentence member.text :=
  ⟨[member], .last named⟩

theorem isSentence_member_dot {member : Member} (named : member.Named) {text : List Char} :
    IsSentence (member.text ++ '.' :: text) ↔ IsSentence text := by
  rw [isSentence_iff_run, isSentence_iff_run, Stage.run_member_dot named]

theorem Member.Ends.cleanCut {member : Member} {rest : List Char}
    (ends : member.Ends rest) : CleanCut member.text rest := by
  cases kind : member.kind with
  | property =>
      intro c _ _ next head
      have ended := ends next head
      simpa only [Member.EndsBefore, kind] using ended
  | method =>
      refine .of_last (c := ')') (by simp [Member.text, kind, MemberKind.mark]) ?_
      intro nameChar
      exact absurd nameChar (by decide)

theorem usable_member {member : Member} {rest : List Char} (named : member.Named)
    (ends : member.Ends rest) : Usable (member.text ++ rest) member.text :=
  ⟨isSentence_member named, rest, rfl, ends.cleanCut⟩

/-- What can be taken from a member and a text after it: no more than the member, or all of it
and what can be taken from the rest. -/
theorem Usable.dotted {member : Member} {text other : List Char} (named : member.Named)
    (usable : Usable (member.text ++ '.' :: text) other) :
    other.length ≤ member.text.length ∨
      ∃ tail, other = member.text ++ '.' :: tail ∧ Usable text tail := by
  obtain ⟨sentence, rest, spelled, cut⟩ := usable
  rcases List.append_eq_append_iff.mp spelled with ⟨more, rfl, tails⟩ | ⟨more, equal, _⟩
  · cases more with
    | nil => exact .inl (by simp)
    | cons c tail =>
        cases tails
        have tailSentence := (isSentence_member_dot named).mp sentence
        refine .inr ⟨tail, rfl, tailSentence, rest, rfl, ?_⟩
        exact (cleanCut_member_dot tailSentence.ne_nil).mp cut
  · exact .inl (by simp [equal])

theorem Longest.dotted {member : Member} {text kept : List Char} (named : member.Named)
    (longest : Longest text kept) :
    Longest (member.text ++ '.' :: text) (member.text ++ '.' :: kept) := by
  obtain ⟨⟨sentence, rest, spelled, cut⟩, length_le⟩ := longest
  constructor
  · exact ⟨(isSentence_member_dot named).mpr sentence, rest, by simp [spelled],
      (cleanCut_member_dot sentence.ne_nil).mpr cut⟩
  · intro other usable
    rcases usable.dotted named with short | ⟨tail, rfl, tailUsable⟩
    · simp only [List.length_append]
      omega
    · have := length_le tail tailUsable
      simp only [List.length_append, List.length_cons]
      omega

theorem Longest.dotted_of_none {member : Member} {text : List Char} (named : member.Named)
    (none : ∀ other, ¬ Usable text other) :
    Longest (member.text ++ '.' :: text) member.text := by
  refine ⟨usable_member named (member.ends_dot text), ?_⟩
  intro other usable
  rcases usable.dotted named with short | ⟨tail, rfl, tailUsable⟩
  · exact short
  · exact absurd tailUsable (none tail)

theorem Longest.stopped {member : Member} {c : Char} {rest : List Char}
    (named : member.Named) (ends : member.EndsBefore c) (noDot : c ≠ '.') :
    Longest (member.text ++ c :: rest) member.text := by
  refine ⟨usable_member named (Member.ends_cons.mpr ends), ?_⟩
  rintro other ⟨sentence, after, spelled, _⟩
  rcases List.append_eq_append_iff.mp spelled with ⟨more, rfl, tails⟩ | ⟨more, equal, _⟩
  · cases more with
    | nil => simp
    | cons d tail =>
        cases tails
        obtain ⟨stage, led, _⟩ := isSentence_iff_run.mp sentence
        rw [Stage.run_stopped named ends noDot] at led
        cases led
  · simp [equal]

theorem Longest.last {member : Member} (named : member.Named) :
    Longest member.text member.text := by
  refine ⟨by simpa using usable_member named member.ends_nil, ?_⟩
  rintro other ⟨_, rest, spelled, _⟩
  simp [spelled]

theorem not_usable_nameless {text : List Char} (stuck : ∀ c ∈ text.head?, ¬ NameStart c)
    (other : List Char) : ¬ Usable text other := by
  rintro ⟨sentence, rest, rfl, _⟩
  obtain ⟨stage, led, final⟩ := isSentence_iff_run.mp sentence
  refine Stage.not_final_nameless ?_ led final
  intro c head
  exact stuck c (by simp [Option.mem_def.mp head])

/-- A call that nothing closes leaves nothing to take, not even the beginnings of its name. -/
theorem not_usable_unclosed {name rest : List Char} (named : IsName name)
    (stuck : rest.head? ≠ some ')') (other : List Char) :
    ¬ Usable (name ++ '(' :: rest) other := by
  rintro ⟨sentence, after, spelled, cut⟩
  -- A sentence that goes past the `(` needs the `)`; one that stays within the name cuts it.
  rcases List.append_eq_append_iff.mp spelled with ⟨more, rfl, tails⟩ | ⟨more, rfl, rfl⟩
  · cases more with
    | nil =>
        obtain rfl : '(' :: rest = after := tails
        rw [List.append_nil] at sentence cut
        have allNamed : ∀ c ∈ name ++ [], NameChar c := by simpa using named.nameChar
        exact not_cleanCut_name sentence.ne_nil allNamed rest cut
    | cons c tail =>
        cases tails
        obtain ⟨stage, led, final⟩ := isSentence_iff_run.mp sentence
        refine Stage.not_final_unclosed named ?_ led final
        cases tail with
        | nil => simp
        | cons d tail => exact stuck
  · exact not_cleanCut_name sentence.ne_nil named.nameChar rest cut

theorem Reads.longest {start : Nat} {text : List Char} {gathered : Gathered}
    (reads : Reads start text gathered) :
    (gathered.segments = [] ∧ ∀ other, ¬ Usable text other) ∨
      ∃ kept, Longest text kept ∧ Sentence (gathered.segments.map Segment.member) kept := by
  induction reads with
  | nameless stuck => exact .inl ⟨rfl, not_usable_nameless stuck⟩
  | unclosed named stuck => exact .inl ⟨rfl, not_usable_unclosed named stuck⟩
  | @last _ member named => exact .inr ⟨member.text, .last named, .last named⟩
  | @stopped _ member _ _ named ends noDot =>
      exact .inr ⟨member.text, .stopped named ends noDot, .last named⟩
  | @dotted _ member text gathered named _ induction =>
      rcases induction with ⟨none, unusable⟩ | ⟨kept, longest, sentence⟩
      · refine .inr ⟨member.text, .dotted_of_none named unusable, ?_⟩
        simpa [none] using Sentence.last named
      · refine .inr ⟨member.text ++ '.' :: kept, longest.dotted named, ?_⟩
        simpa using Sentence.dotted named sentence

/-- The segments of the longest usable sentence, in their places; none if nothing is usable. -/
def Kept (source : List Char) (segments : List Segment) : Prop :=
  (segments = [] ∧ ∀ text, ¬ Usable source text) ∨
    ∃ text members, Longest source text ∧ Sentence members text ∧
      segments = Member.placeAll 0 members

theorem kept_ofString (source : String) :
    Kept source.toList (Path.ofString source).segments := by
  have reads := reads_ofString source
  rcases reads.longest with nothing | ⟨text, longest, sentence⟩
  · exact .inl nothing
  · exact .inr ⟨text, _, longest, sentence, reads.segments_eq⟩

theorem Kept.ordered {source : List Char} {segments : List Segment}
    (kept : Kept source segments) : ∀ segment ∈ segments, segment.span.Ordered := by
  intro segment found
  rcases kept with ⟨rfl, _⟩ | ⟨_, members, _, _, rfl⟩
  · cases found
  · obtain ⟨offset, placed⟩ := Member.mem_placeAll found
    rw [placed]
    exact segment.member.placed_ordered offset

theorem Path.eq_empty {path : Path} (none : path.segments = []) : path = .empty := by
  obtain ⟨segments, separators, balanced⟩ := path
  cases none
  cases List.length_eq_zero_iff.mp balanced
  rfl

/-- The path of a text is empty if no sentence at its head can be taken. Otherwise it has the
members of the longest one that can, and it is written like that one. -/
theorem Path.ofString_longest (source : String) :
    (Reading.ofString source).path = ofString source ∧
      ((ofString source = .empty ∧ ∀ text, ¬ Usable source.toList text) ∨
        ∃ text, Longest source.toList text ∧
          (∀ members, Sentence members text ↔ members = (ofString source).members) ∧
          (ofString source).display = String.ofList text) := by
  refine ⟨rfl, ?_⟩
  rcases (reads_ofString source).longest with ⟨none, unusable⟩ | ⟨text, longest, sentence⟩
  · exact .inl ⟨eq_empty none, unusable⟩
  · refine .inr ⟨text, longest, ?_, display_of_sentence sentence⟩
    intro members
    constructor
    · intro other
      exact other.members_unique sentence
    · rintro rfl
      exact sentence

end LensPath
