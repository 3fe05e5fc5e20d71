import LensPath.Proofs.Token.Tiling

/-!
Tokens of texts that stand one behind the other. A text that is refused somewhere is refused there
whatever follows it. Behind any other text the next one is cut as on its own and moved to the
right, unless a name goes on where the two meet.
-/

namespace LensPath

namespace StrayChar

def translate (offset : Nat) (stray : StrayChar) : StrayChar :=
  ⟨stray.char, stray.offset + offset⟩

theorem head?_add (text : List Char) (start offset : Nat) :
    head? text (start + offset) = (head? text start).map (translate offset) := by
  cases text <;> rfl

end StrayChar

def Refusal.translate (offset : Nat) (refusal : Refusal) : Refusal :=
  ⟨refusal.message, refusal.span.translate offset⟩

theorem StrayChar.refusal_translate (offset : Nat) (stray : StrayChar) :
    (stray.translate offset).refusal = stray.refusal.translate offset := by
  have moved : (stray.translate offset).span = stray.span.translate offset := by
    simp only [translate, span, Span.translate, Nat.add_right_comm]
  rw [refusal, moved]
  rfl

/-- A name goes on from the end of a text to the beginning of the next one. -/
def MeetInName (text more : List Char) : Prop :=
  (∃ c ∈ text.getLast?, NameChar c) ∧ ∃ c ∈ more.head?, NameChar c

-- The parts are named: a search may find the instance that tries every character there is.
instance (text more : List Char) : Decidable (MeetInName text more) :=
  @instDecidableAnd _ _ (Option.decidableExistsMem text.getLast?)
    (Option.decidableExistsMem more.head?)

theorem MeetInName.append_left {text more : List Char} (meets : MeetInName text more)
    (before : List Char) : MeetInName (before ++ text) more := by
  obtain ⟨⟨c, last, named⟩, goesOn⟩ := meets
  refine ⟨⟨c, ?_, named⟩, goesOn⟩
  rw [List.getLast?_append, Option.mem_def.mp last, Option.some_or]
  exact rfl

theorem IsName.exists_getLast? {name : List Char} (named : IsName name) :
    ∃ c ∈ name.getLast?, NameChar c := by
  have nonempty : name ≠ [] := by
    cases named
    exact List.cons_ne_nil _ _
  obtain ⟨c, last⟩ := Option.ne_none_iff_exists'.mp (mt List.getLast?_eq_none_iff.mp nonempty)
  exact ⟨c, last, named.nameChar c (List.mem_of_getLast? last)⟩

namespace Token

def Located.translate (offset : Nat) (located : Located) : Located :=
  ⟨located.token, located.span.translate offset⟩

theorem translate_locate (token : Token) (start offset : Nat) :
    (token.locate start).translate offset = token.locate (start + offset) := by
  simp only [Located.translate, locate, Span.translate, Nat.add_right_comm]

theorem EndsBefore.append {token : Token} {rest more : List Char} (ends : token.EndsBefore rest)
    (endsAlone : rest = [] → token.EndsBefore more) : token.EndsBefore (rest ++ more) := by
  cases rest with
  | nil => exact endsAlone rfl
  | cons c rest =>
      cases token with
      | name text => exact ⟨ends.1, ends.2⟩
      | dot | openParen | closeParen => trivial
      | finish => exact ends

theorem EndsBefore.of_apart {token : Token} {more : List Char} (ends : token.EndsBefore [])
    (apart : ¬ MeetInName token.display.toList more) : token.EndsBefore more := by
  cases token with
  | name text =>
      refine ⟨ends.1, ?_⟩
      intro c head goesOn
      exact apart ⟨ends.1.exists_getLast?, c, head, goesOn⟩
  | dot | openParen | closeParen => trivial
  | finish => exact ends

theorem take?_longer {text rest more : List Char} {token : Token}
    (taken : take? text = some (token, rest)) (endsAlone : rest = [] → token.EndsBefore more) :
    take? (text ++ more) = some (token, rest ++ more) := by
  obtain ⟨rfl, ends⟩ := take?_eq_some_iff.mp taken
  rw [take?_eq_some_iff, List.append_assoc]
  exact ⟨rfl, ends.append endsAlone⟩

end Token

namespace Lexed

def translate (offset : Nat) (lexed : Lexed) : Lexed :=
  ⟨lexed.tokens.map (Token.Located.translate offset), lexed.stop + offset,
    lexed.stray.map (StrayChar.translate offset)⟩

def join (first second : Lexed) : Lexed := { second with tokens := first.tokens ++ second.tokens }

theorem scan_add (start offset : Nat) (text : List Char) :
    scan (start + offset) text = (scan start text).translate offset := by
  induction start, text using scan.induct with
  | case1 start text missed =>
      rw [scan_none missed, scan_none missed, StrayChar.head?_add]
      rfl
  | case2 start text token rest taken induction =>
      rw [scan_some taken, scan_some taken, Nat.add_right_comm, induction,
        ← Token.translate_locate]
      rfl

theorem scan_append_of_stray {start : Nat} {text : List Char} {stray : StrayChar}
    (stopped : (scan start text).stray = some stray) (more : List Char) :
    scan start (text ++ more) = scan start text := by
  induction start, text using scan.induct with
  | case1 start text missed =>
      cases text with
      | nil =>
          rw [scan_nil] at stopped
          cases stopped
      | cons c text =>
          obtain ⟨noMark, noStart⟩ := Token.take?_eq_none_iff.mp missed
          rw [scan_none missed, List.cons_append, scan_none (Token.take?_stray noMark noStart)]
          rfl
  | case2 start text token rest taken induction =>
      rw [scan_some taken] at stopped
      -- The stray character is still to come, so the token does not end with the text.
      have nonempty : rest ≠ [] := by
        rintro rfl
        rw [scan_nil] at stopped
        cases stopped
      rw [scan_some (Token.take?_longer taken fun none => absurd none nonempty), scan_some taken,
        induction stopped]

theorem scan_append {start : Nat} {text more : List Char}
    (complete : (scan start text).stray = none) (apart : ¬ MeetInName text more) :
    scan start (text ++ more) =
      (scan start text).join (scan (start + Text.byteLength text) more) := by
  induction start, text using scan.induct with
  | case1 start text missed =>
      cases text with
      | nil =>
          rw [scan_nil]
          rfl
      | cons c text =>
          rw [scan_none missed] at complete
          cases complete
  | case2 start text token rest taken induction =>
      rw [scan_some taken] at complete
      obtain ⟨rfl, ends⟩ := Token.take?_eq_some_iff.mp taken
      -- Only the last token meets the next text.
      have endsAlone : rest = [] → token.EndsBefore more := by
        rintro rfl
        rw [List.append_nil] at apart
        exact ends.of_apart apart
      have longer := Token.take?_longer taken endsAlone
      have length : start + Text.byteLength (token.display.toList ++ rest) =
          start + token.width + Text.byteLength rest := by
        rw [Text.byteLength_append, Text.byteLength_toList, Token.width_eq ends.notFinish,
          Nat.add_assoc]
      rw [scan_some longer, scan_some taken, length,
        induction complete (mt (MeetInName.append_left · _) apart)]
      rfl

/-- More text behind a text changes nothing if the text is refused somewhere. Otherwise the tokens
of both and what is refused in the second one are found one behind the other. -/
theorem listing_append (source more : String) :
    ((ofString source).refusal? ≠ none → ofString (source ++ more) = ofString source) ∧
    ((ofString source).refusal? = none → ¬ MeetInName source.toList more.toList →
      (ofString (source ++ more)).listing = (ofString source).tokens ++
        (ofString more).listing.map (Token.Located.translate source.utf8ByteSize) ∧
      (ofString (source ++ more)).refusal? =
        (ofString more).refusal?.map (Refusal.translate source.utf8ByteSize)) := by
  constructor
  · intro refused
    obtain ⟨stray, stopped⟩ := Option.ne_none_iff_exists'.mp (mt Option.map_eq_none_iff.mpr refused)
    rw [ofString, String.toList_append, scan_append_of_stray stopped]
    rfl
  · intro complete apart
    have whole : ofString (source ++ more) =
        (ofString source).join ((ofString more).translate source.utf8ByteSize) := by
      rw [ofString, String.toList_append, scan_append (Option.map_eq_none_iff.mp complete) apart,
        Text.byteLength_toList, scan_add]
      rfl
    rw [whole]
    constructor
    · rw [listing, listing, List.map_append, ← List.append_assoc]
      simp only [join, translate, finish, List.map_cons, List.map_nil, Token.translate_locate]
    · simp only [refusal?, join, translate, Option.map_map]
      congr 1
      funext stray
      exact stray.refusal_translate _

/-- A letter of two bytes is refused where it stands, and behind it nothing is. -/
theorem listing_append_letter :
    ((ofString "a9.é").refusal? ≠ none ∧ ofString "a9.é(" = ofString "a9.é") ∧
    (ofString "a(").refusal? = none ∧ ¬ MeetInName "a(".toList ")é".toList ∧
      (ofString "a()é").listing =
        [⟨.name "a", 0, 1⟩, ⟨.openParen, 1, 2⟩, ⟨.closeParen, 2, 3⟩, ⟨.finish, 3, 3⟩] ∧
      (ofString "a()é").refusal? = some ⟨"unexpected character: 'é'", 3, 5⟩ := by
  have refused : (ofString "a9.é").refusal? ≠ none := by decide +kernel
  have complete : (ofString "a(").refusal? = none := by decide +kernel
  have apart : ¬ MeetInName "a(".toList ")é".toList := by decide +kernel
  obtain ⟨listing, refusal⟩ := (listing_append "a(" ")é").2 complete apart
  refine ⟨⟨refused, (listing_append "a9.é" "(").1 refused⟩, complete, apart, ?_, ?_⟩
  · exact listing.trans (by decide +kernel)
  · exact refusal.trans (by decide +kernel)

end Lexed

end LensPath
