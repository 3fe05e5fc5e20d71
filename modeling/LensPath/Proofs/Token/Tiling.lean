import LensPath.Proofs.Reading
import LensPath.Proofs.Text.Bytes

/-!
The tokens of a text as a tiling of it. They lie one behind the other from the first byte on, each
of them shows the bytes that it covers, and they end where the text does or before a character
that starts no token. Only one list of tokens is like that.
-/

namespace LensPath

/-- Spans lie one behind the other, from a first offset to a last one. -/
def Contiguous : Nat → List Span → Nat → Prop
  | start, [], stop => start = stop
  | start, span :: rest, stop => span.start = start ∧ Contiguous span.stop rest stop

structure Refusal where
  message : String
  span : Span
deriving DecidableEq, Repr

def StrayChar.refusal (stray : StrayChar) : Refusal := ⟨stray.message, stray.span⟩

structure Token.Located.Fits (source : String) (located : Token.Located) : Prop where
  notFinish : located.token ≠ .finish
  nonempty : located.span.start < located.span.stop
  shown : Text.bytes source located.span = located.token.display.toByteArray
  named : ∀ name, located.token = .name name → IsName name.toList
  -- Name characters are ASCII, so the character at an offset is one exactly if the byte there is.
  longest : ∀ name, located.token = .name name →
    ∀ c ∈ Text.charAt? source located.span.stop, ¬ NameChar c

structure Refusal.Fits (source : String) (stop : Nat) (c : Char) (refusal : Refusal) : Prop where
  char : Text.charAt? source stop = some c
  noMark : ¬ Token.IsMark c
  noStart : ¬ NameStart c
  span : refusal.span = ⟨stop, stop + c.utf8Size⟩
  message : refusal.message = "unexpected character: '" ++ String.singleton c ++ "'"

/-- Tokens cover a source from one offset up to another, and the other is the end of the source
unless the character there is refused. -/
structure Tiling (source : String) (start : Nat) (tokens : List Token.Located) (stop : Nat)
    (refusal : Option Refusal) : Prop where
  fits : ∀ located ∈ tokens, located.Fits source
  contiguous : Contiguous start (tokens.map Token.Located.span) stop
  finished : refusal = none ↔ stop = source.utf8ByteSize
  refused : ∀ found ∈ refusal, ∃ c, found.Fits source stop c

namespace Token

/-- A token that is cut off before a rest goes on as far as it can. -/
def EndsBefore (rest : List Char) : Token → Prop
  | name text => IsName text.toList ∧ NameEnds rest
  | dot | openParen | closeParen => True
  | finish => False

theorem endsBefore_of_take? {text rest : List Char} {token : Token}
    (taken : take? text = some (token, rest)) : token.EndsBefore rest := by
  cases text with
  | nil => cases taken
  | cons c text =>
      by_cases mark : IsMark c
      · rcases mark with rfl | rfl | rfl <;> cases taken <;> trivial
      · by_cases starts : NameStart c
        · obtain ⟨name, after, spelled, named, ends⟩ := exists_name starts text
          rw [← String.toList_ofList (l := name)] at spelled named
          rw [spelled, take?_name named ends] at taken
          cases taken
          exact ⟨named, ends⟩
        · rw [take?_stray mark starts] at taken
          cases taken

theorem take?_eq_some_iff {text rest : List Char} {token : Token} :
    take? text = some (token, rest) ↔
      text = token.display.toList ++ rest ∧ token.EndsBefore rest := by
  constructor
  · intro taken
    exact ⟨take?_append taken, endsBefore_of_take? taken⟩
  · rintro ⟨rfl, ends⟩
    cases token with
    | name text => exact take?_name ends.1 ends.2
    | dot => exact take?_dot rest
    | openParen => exact take?_openParen rest
    | closeParen => exact take?_closeParen rest
    | finish => exact ends.elim

theorem take?_eq_none_iff {c : Char} {rest : List Char} :
    take? (c :: rest) = none ↔ ¬ IsMark c ∧ ¬ NameStart c := by
  constructor
  · intro missed
    have noMark : ¬ IsMark c := by
      rintro (rfl | rfl | rfl) <;> cases missed
    refine ⟨noMark, fun starts => ?_⟩
    rw [take?_of_not_isMark noMark, if_pos starts] at missed
    cases missed
  · intro ⟨noMark, noStart⟩
    exact take?_stray noMark noStart

theorem width_eq {token : Token} (notFinish : token ≠ .finish) :
    token.width = token.display.utf8ByteSize := by
  cases token with
  | name text => rfl
  | dot | openParen | closeParen => decide
  | finish => exact absurd rfl notFinish

theorem EndsBefore.notFinish {token : Token} {rest : List Char}
    (ends : token.EndsBefore rest) : token ≠ .finish := by
  rintro rfl
  exact ends

theorem EndsBefore.width_pos {token : Token} {rest : List Char}
    (ends : token.EndsBefore rest) : 0 < token.width := by
  cases token with
  | name text =>
      have nonempty : text ≠ "" := by
        rintro rfl
        cases ends.1
      exact Nat.pos_of_ne_zero (mt String.utf8ByteSize_eq_zero_iff.mp nonempty)
  | dot | openParen | closeParen => decide
  | finish => exact ends.elim

namespace Located

theorem fits_of_endsBefore {token : Token} {rest : List Char} (ends : token.EndsBefore rest)
    (before : String) :
    (token.locate before.utf8ByteSize).Fits
      (before ++ token.display ++ String.ofList rest) := by
  have width := width_eq ends.notFinish
  refine ⟨ends.notFinish, Nat.lt_add_of_pos_right ends.width_pos, ?_, ?_, ?_⟩
  · rw [locate, width]
    exact (Text.standsAt_append before token.display (String.ofList rest)).found
  · rintro name rfl
    exact ends.1
  · intro name named c head
    simp only [locate] at named head
    rw [width, ← String.utf8ByteSize_append, Text.charAt?_append] at head
    subst named
    exact ends.2 c head

theorem Fits.take? {before : String} {text : List Char} {located : Token.Located}
    (fits : located.Fits (before ++ String.ofList text))
    (start : located.span.start = before.utf8ByteSize)
    (inside : located.span.stop ≤ (before ++ String.ofList text).utf8ByteSize) :
    located = located.token.locate before.utf8ByteSize ∧
      ∃ rest, take? text = some (located.token, rest) := by
  obtain ⟨stop, stands⟩ :=
    Text.standsAt_of_bytes (Nat.le_of_lt fits.nonempty) inside fits.shown
  obtain ⟨token, _, _⟩ := located
  simp only at start stop
  subst start stop
  obtain ⟨after, spelled⟩ := stands.head
  have text_eq : text = token.display.toList ++ after.toList := by
    simpa using congrArg String.toList spelled
  have ends : token.EndsBefore after.toList := by
    cases token with
    | name name =>
        refine ⟨fits.named name rfl, fun c head => fits.longest name rfl c ?_⟩
        rw [spelled, ← String.ofList_toList (s := after), ← String.append_assoc,
          ← String.utf8ByteSize_append, Text.charAt?_append]
        exact head
    | dot | openParen | closeParen => trivial
    | finish => exact absurd rfl fits.notFinish
  refine ⟨?_, after.toList, take?_eq_some_iff.mpr ⟨text_eq, ends⟩⟩
  rw [locate, width_eq fits.notFinish]

end Located

end Token

theorem tiling_nil_iff {source : String} {start stop : Nat} {refusal : Option Refusal} :
    Tiling source start [] stop refusal ↔
      start = stop ∧ (refusal = none ↔ stop = source.utf8ByteSize) ∧
        ∀ found ∈ refusal, ∃ c, found.Fits source stop c := by
  constructor
  · intro tiling
    exact ⟨tiling.contiguous, tiling.finished, tiling.refused⟩
  · intro ⟨contiguous, finished, refused⟩
    exact ⟨by simp, contiguous, finished, refused⟩

theorem tiling_cons_iff {source : String} {start stop : Nat} {located : Token.Located}
    {tokens : List Token.Located} {refusal : Option Refusal} :
    Tiling source start (located :: tokens) stop refusal ↔
      located.Fits source ∧ located.span.start = start ∧
        Tiling source located.span.stop tokens stop refusal := by
  constructor
  · intro tiling
    obtain ⟨first, rest⟩ := List.forall_mem_cons.mp tiling.fits
    obtain ⟨starts, contiguous⟩ := tiling.contiguous
    exact ⟨first, starts, rest, contiguous, tiling.finished, tiling.refused⟩
  · intro ⟨first, starts, tail⟩
    exact ⟨List.forall_mem_cons.mpr ⟨first, tail.fits⟩, ⟨starts, tail.contiguous⟩,
      tail.finished, tail.refused⟩

theorem Tiling.start_le {source : String} {start stop : Nat} {tokens : List Token.Located}
    {refusal : Option Refusal} (tiling : Tiling source start tokens stop refusal) :
    start ≤ stop := by
  induction tokens generalizing start with
  | nil => exact Nat.le_of_eq (tiling_nil_iff.mp tiling).1
  | cons located tokens induction =>
      obtain ⟨fits, rfl, rest⟩ := tiling_cons_iff.mp tiling
      exact Nat.le_trans (Nat.le_of_lt fits.nonempty) (induction rest)

theorem Tiling.stop_le {source : String} {start stop : Nat} {tokens : List Token.Located}
    {refusal : Option Refusal} (tiling : Tiling source start tokens stop refusal) :
    stop ≤ source.utf8ByteSize := by
  cases refusal with
  | none => exact Nat.le_of_eq (tiling.finished.mp rfl)
  | some found =>
      obtain ⟨c, fits⟩ := tiling.refused found rfl
      exact Nat.le_of_lt (Text.lt_utf8ByteSize_of_charAt? fits.char)

namespace Lexed

def refusal? (lexed : Lexed) : Option Refusal := lexed.stray.map StrayChar.refusal

theorem tiling_scan (before : String) (text : List Char) :
    Tiling (before ++ String.ofList text) before.utf8ByteSize
      (scan before.utf8ByteSize text).tokens (scan before.utf8ByteSize text).stop
      (scan before.utf8ByteSize text).refusal? := by
  -- On the length: behind its first token a text is cut like a text of its own.
  induction length : text.length using Nat.strongRecOn generalizing before text with
  | ind size induction =>
      cases taken : Token.take? text with
      | none =>
          rw [scan_none taken]
          cases text with
          | nil => exact tiling_nil_iff.mpr ⟨rfl, iff_of_true rfl (by simp), by rintro _ ⟨⟩⟩
          | cons c rest =>
              obtain ⟨noMark, noStart⟩ := Token.take?_eq_none_iff.mp taken
              refine tiling_nil_iff.mpr ⟨rfl, iff_of_false (by rintro ⟨⟩) ?_, ?_⟩
              · have positive := c.utf8Size_pos
                simp [String.ofList_cons]
                omega
              · rintro found ⟨⟩
                exact ⟨c, Text.charAt?_append before (c :: rest), noMark, noStart, rfl, rfl⟩
      | some found =>
          obtain ⟨token, rest⟩ := found
          obtain ⟨rfl, ends⟩ := Token.take?_eq_some_iff.mp taken
          have shorter := Token.take?_shorter taken
          have tail := induction rest.length (length ▸ shorter) (before ++ token.display) rest rfl
          rw [scan_some taken, String.ofList_append, String.ofList_toList, ← String.append_assoc]
          rw [String.utf8ByteSize_append, ← Token.width_eq ends.notFinish] at tail
          exact tiling_cons_iff.mpr ⟨Token.Located.fits_of_endsBefore ends before, rfl, tail⟩

end Lexed

theorem Tiling.eq_scan {before : String} {text : List Char} {tokens : List Token.Located}
    {stop : Nat} {refusal : Option Refusal}
    (tiling : Tiling (before ++ String.ofList text) before.utf8ByteSize tokens stop refusal) :
    tokens = (Lexed.scan before.utf8ByteSize text).tokens ∧
      stop = (Lexed.scan before.utf8ByteSize text).stop ∧
      refusal = (Lexed.scan before.utf8ByteSize text).refusal? := by
  induction tokens generalizing before text with
  | nil =>
      obtain ⟨rfl, finished, refused⟩ := tiling_nil_iff.mp tiling
      cases refusal with
      | none =>
          have ends := finished.mp rfl
          obtain rfl : text = [] := by
            rw [String.utf8ByteSize_append, Nat.left_eq_add, String.utf8ByteSize_eq_zero_iff,
              String.ofList_eq_empty_iff] at ends
            exact ends
          rw [Lexed.scan_nil]
          exact ⟨rfl, rfl, rfl⟩
      | some found =>
          obtain ⟨c, fits⟩ := refused found rfl
          have head := fits.char
          rw [Text.charAt?_append] at head
          obtain ⟨rest, rfl⟩ := List.head?_eq_some_iff.mp head
          have missed := @Token.take?_stray c rest fits.noMark fits.noStart
          rw [Lexed.scan_none missed]
          refine ⟨rfl, rfl, ?_⟩
          obtain ⟨message, span⟩ := found
          cases fits.span
          cases fits.message
          rfl
  | cons located tokens induction =>
      obtain ⟨fits, start, rest⟩ := tiling_cons_iff.mp tiling
      obtain ⟨placed, after, taken⟩ := fits.take? start (Nat.le_trans rest.start_le rest.stop_le)
      obtain ⟨rfl, ends⟩ := Token.take?_eq_some_iff.mp taken
      have stop : located.span.stop = (before ++ located.token.display).utf8ByteSize := by
        rw [String.utf8ByteSize_append, ← Token.width_eq fits.notFinish]
        exact congrArg (·.span.stop) placed
      rw [String.ofList_append, String.ofList_toList, ← String.append_assoc, stop] at rest
      obtain ⟨rfl, rfl, rfl⟩ := induction rest
      rw [Lexed.scan_some taken, ← placed, String.utf8ByteSize_append,
        ← Token.width_eq fits.notFinish]
      exact ⟨rfl, rfl, rfl⟩

/-- A list of tokens, with what is refused after them, tiles a text exactly if it is what the text
is cut into. -/
theorem Lexed.tiling_iff (source : String) (listing : List Token.Located)
    (refusal : Option Refusal) :
    (∃ tokens stop, listing = tokens ++ [⟨.finish, ⟨stop, stop⟩⟩] ∧
        Tiling source 0 tokens stop refusal) ↔
      listing = (ofString source).listing ∧ refusal = (ofString source).refusal? := by
  have whole : "" ++ String.ofList source.toList = source := by simp
  constructor
  · rintro ⟨tokens, stop, rfl, tiling⟩
    rw [← whole] at tiling
    obtain ⟨rfl, rfl, rfl⟩ := @Tiling.eq_scan "" source.toList tokens stop refusal tiling
    exact ⟨rfl, rfl⟩
  · rintro ⟨rfl, rfl⟩
    have tiling := tiling_scan "" source.toList
    rw [whole] at tiling
    exact ⟨_, _, rfl, tiling⟩

end LensPath
