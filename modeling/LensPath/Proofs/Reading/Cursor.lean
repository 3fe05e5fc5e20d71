import LensPath.Proofs.Path.Tiling
import LensPath.Proofs.Span
import LensPath.Proofs.Token.Scanner

/-!
Reading with a cursor. The tokens are kept in one list, with their end as the last of them, and a
cursor goes along it. Each token is looked up by its index and each span is made from its two ends,
so that a reading may break down on the way. On the tokens of a text that is short enough it never
does, and what it takes is what `Segment.take` takes.
-/

namespace LensPath

theorem ok_bind (value : α) (next : α → Except ε β) : (Except.ok value >>= next) = next value :=
  rfl

/-! ## Tokens with checked spans -/

/-- The token at an offset, if its end is an offset. -/
def Token.place (token : Token) (offset : Nat) : Except Fault Token.Located := do
  let stop ← Offset.add offset token.width
  let span ← Span.make offset stop
  return ⟨token, span⟩

/-- The stray character at the head of a text that no token starts, if its end is an offset. -/
def StrayChar.place? (offset : Nat) : List Char → Except Fault (Option StrayChar)
  | [] => return none
  | char :: _ => do
      let stop ← Offset.add offset char.utf8Size
      let span ← Span.make offset stop
      return some ⟨char, span.start⟩

def Lexed.cut (offset : Nat) (text : List Char) : Except Fault Lexed :=
  match _ : Token.take? text with
  | none => do
      let stray ← StrayChar.place? offset text
      return ⟨[], offset, stray⟩
  | some (token, rest) => do
      let located ← token.place offset
      let run ← cut located.span.stop rest
      return { run with tokens := located :: run.tokens }
termination_by text.length
decreasing_by exact Token.take?_shorter (by assumption)

theorem Token.place_of_fits {token : Token} {offset : Nat}
    (fits : offset + token.width < offsetBound) :
    token.place offset = .ok (token.locate offset) := by
  rw [place, Offset.add_of_lt fits, ok_bind, Span.make_of_le (Nat.le_add_right _ _)]
  rfl

theorem StrayChar.place?_of_fits {text : List Char} {offset : Nat}
    (fits : offset + Text.byteLength text < offsetBound) :
    StrayChar.place? offset text = .ok (StrayChar.head? text offset) := by
  cases text with
  | nil => rfl
  | cons char rest =>
      rw [Text.byteLength_cons] at fits
      rw [place?, Offset.add_of_lt (by omega), ok_bind, Span.make_of_le (Nat.le_add_right _ _)]
      rfl

namespace Lexed

/-- A text whose end is an offset is cut as if no sum could fail. -/
theorem cut_eq_scan {offset : Nat} {text : List Char}
    (fits : offset + Text.byteLength text < offsetBound) :
    cut offset text = .ok (scan offset text) := by
  induction length : text.length using Nat.strongRecOn generalizing offset text with
  | ind size induction =>
      rw [cut]
      split
      · next missed =>
          rw [StrayChar.place?_of_fits fits, ok_bind, scan_none missed]
          rfl
      · next token rest taken =>
          have shorter := Token.take?_shorter taken
          obtain ⟨spelled, ends⟩ := Token.take?_eq_some_iff.mp taken
          have width : Text.byteLength text = token.width + Text.byteLength rest := by
            rw [spelled, Text.byteLength_append, Text.byteLength_toList,
              Token.width_eq ends.notFinish]
          rw [Token.place_of_fits (by omega), scan_some taken]
          have tail : cut (token.locate offset).span.stop rest = _ :=
            @induction rest.length (length ▸ shorter) _ _ (by simp only [Token.locate]; omega) rfl
          rw [ok_bind, tail]
          rfl

end Lexed

theorem Tiling.length_le {source : String} {start stop : Nat} {tokens : List Token.Located}
    {refusal : Option Refusal} (tiling : Tiling source start tokens stop refusal) :
    start + tokens.length ≤ stop := by
  induction tokens generalizing start with
  | nil => exact Nat.le_of_eq (tiling_nil_iff.mp tiling).1
  | cons located tokens induction =>
      obtain ⟨fits, rfl, rest⟩ := tiling_cons_iff.mp tiling
      have nonempty := fits.nonempty
      have later := induction rest
      rw [List.length_cons]
      omega

theorem Tiling.stop_le_of_mem {source : String} {start stop : Nat} {tokens : List Token.Located}
    {refusal : Option Refusal} (tiling : Tiling source start tokens stop refusal)
    {located : Token.Located} (found : located ∈ tokens) : located.span.stop ≤ stop := by
  induction tokens generalizing start with
  | nil => cases found
  | cons first tokens induction =>
      obtain ⟨fits, rfl, rest⟩ := tiling_cons_iff.mp tiling
      cases found with
      | head => exact rest.start_le
      | tail _ found => exact induction rest found

/-- Texts are shorter than this bound, which is 2⁶³. -/
def textBound : Nat := 9223372036854775808

theorem textBound_lt : textBound < offsetBound := by decide

/-- What a cursor relies on. No token but the last stands for the end of the run, and all of them
can be counted. -/
structure Lexed.Sound (lexed : Lexed) : Prop where
  notFinish : ∀ located ∈ lexed.tokens, located.token ≠ .finish
  wellFormed : ∀ located ∈ lexed.listing, located.span.WellFormed
  countable : lexed.listing.length < offsetBound

theorem Lexed.sound_ofString {source : String} (size : source.utf8ByteSize < textBound) :
    (ofString source).Sound := by
  have tiling : Tiling source 0 (ofString source).tokens (ofString source).stop
      (ofString source).refusal? := by
    have tiling := tiling_scan "" source.toList
    rwa [String.ofList_toList, String.empty_append] at tiling
  have inside := tiling.stop_le
  have bound := textBound_lt
  refine ⟨fun located found => (tiling.fits located found).notFinish, ?_, ?_⟩
  · intro located found
    rcases List.mem_append.mp found with token | finish
    · have stop := tiling.stop_le_of_mem token
      exact ⟨Nat.le_of_lt (tiling.fits located token).nonempty, by omega⟩
    · cases List.mem_singleton.mp finish
      exact ⟨Nat.le_refl _, by change (ofString source).stop < offsetBound; omega⟩
  · have length := tiling.length_le
    rw [Lexed.listing, List.length_append, List.length_singleton]
    omega

/-! ## The cursor -/

/-- A place among the tokens of a text, of which the last one stands for the end of the run. -/
structure Cursor where
  tokens : List Token.Located
  position : Nat
  stray : Option StrayChar
deriving DecidableEq, Repr

namespace Cursor

def ofString (source : String) : Except Fault Cursor := do
  let lexed ← Lexed.cut 0 source.toList
  let span ← Span.make lexed.stop lexed.stop
  return ⟨lexed.tokens ++ [⟨.finish, span⟩], 0, lexed.stray⟩

/-- The token under the cursor. Behind the last token the cursor is taken to stand at it. -/
def current (cursor : Cursor) : Except Fault Token.Located := do
  let last ← Offset.sub cursor.tokens.length 1
  Offset.item cursor.tokens (min cursor.position last)

def advance (cursor : Cursor) : Except Fault (Token.Located × Cursor) := do
  let located ← cursor.current
  if cursor.position < cursor.tokens.length then
    let position ← Offset.add cursor.position 1
    return (located, { cursor with position := position })
  else return (located, cursor)

def problem (cursor : Cursor) (expected : Expectation) : Except Fault Problem := do
  let located ← cursor.current
  match located.token, cursor.stray with
  | .finish, some char => return .stray char
  | _, _ => return .unexpected expected located

def expect (cursor : Cursor) (token : Token) (expected : Expectation) :
    Except Fault (Except Problem Token.Located × Cursor) := do
  let located ← cursor.current
  if located.token = token then
    let (located, cursor) ← cursor.advance
    return (.ok located, cursor)
  else
    let problem ← cursor.problem expected
    return (.error problem, cursor)

def expectName (cursor : Cursor) : Except Fault (Except Problem (String × Span) × Cursor) := do
  let located ← cursor.current
  match located.token with
  | .name name =>
      let (_, cursor) ← cursor.advance
      return (.ok (name, located.span), cursor)
  | _ =>
      let problem ← cursor.problem .name
      return (.error problem, cursor)

def closeSegment (cursor : Cursor) (name : String) (span : Span) :
    Except Fault (Except Problem Segment × Cursor) := do
  let located ← cursor.current
  if located.token = .openParen then
    let (_, cursor) ← cursor.advance
    let (closed, cursor) ← cursor.expect .closeParen .closeParen
    match closed with
    | .error problem => return (.error problem, cursor)
    | .ok close =>
        let whole ← span.cover close.span
        return (.ok ⟨.method, name, span, whole⟩, cursor)
  else return (.ok ⟨.property, name, span, span⟩, cursor)

def segment (cursor : Cursor) : Except Fault (Except Problem Segment × Cursor) := do
  let (named, cursor) ← cursor.expectName
  match named with
  | .error problem => return (.error problem, cursor)
  | .ok (name, span) => cursor.closeSegment name span

def ofLexed (lexed : Lexed) : Cursor := ⟨lexed.listing, 0, lexed.stray⟩

theorem ofString_eq {source : String} (size : source.utf8ByteSize < textBound) :
    ofString source = .ok (ofLexed (Lexed.ofString source)) := by
  have bound := textBound_lt
  have cut : Lexed.cut 0 source.toList = .ok (Lexed.ofString source) := by
    apply Lexed.cut_eq_scan
    rw [Text.byteLength_toList]
    omega
  rw [ofString, cut, ok_bind, Span.make_of_le (Nat.le_refl _)]
  rfl

inductive Reaches (start : Cursor) : Cursor → Prop
  | refl : Reaches start start
  | advance {cursor next : Cursor} {located : Token.Located} (reaches : Reaches start cursor)
      (advanced : cursor.advance = .ok (located, next)) : Reaches start next

theorem Reaches.trans {start cursor next : Cursor} (reaches : start.Reaches cursor)
    (further : cursor.Reaches next) : start.Reaches next := by
  induction further with
  | refl => exact reaches
  | advance _ advanced induction => exact induction.advance advanced

structure Usable (cursor : Cursor) : Prop where
  position_le : cursor.position ≤ cursor.tokens.length
  current : ∃ located ∈ cursor.tokens, cursor.current = .ok located
  advance : ∃ located ∈ cursor.tokens, ∃ next, cursor.advance = .ok (located, next)

variable {cursor next : Cursor} {located : Token.Located}

theorem current_of_getElem?
    (found : cursor.tokens[min cursor.position (cursor.tokens.length - 1)]? = some located) :
    cursor.current = .ok located := by
  obtain ⟨inside, _⟩ := List.getElem?_eq_some_iff.mp found
  have last : Offset.sub cursor.tokens.length 1 = .ok (cursor.tokens.length - 1) :=
    if_pos (by omega)
  rw [current, last]
  exact Offset.item_eq_ok_iff.mpr found

theorem exists_current (nonempty : cursor.tokens ≠ []) :
    ∃ located ∈ cursor.tokens, cursor.current = .ok located := by
  have positive := List.length_pos_iff.mpr nonempty
  have inside : min cursor.position (cursor.tokens.length - 1) < cursor.tokens.length := by omega
  exact ⟨_, List.getElem_mem inside, current_of_getElem? (List.getElem?_eq_getElem inside)⟩

theorem advance_of_lt (looked : cursor.current = .ok located)
    (before : cursor.position < cursor.tokens.length)
    (countable : cursor.tokens.length < offsetBound) :
    cursor.advance = .ok (located, { cursor with position := cursor.position + 1 }) := by
  have further : Offset.add cursor.position 1 = .ok (cursor.position + 1) :=
    Offset.add_of_lt (by omega)
  rw [advance, looked, ok_bind, if_pos before, further]
  rfl

theorem advance_of_ge (looked : cursor.current = .ok located)
    (past : cursor.tokens.length ≤ cursor.position) :
    cursor.advance = .ok (located, cursor) := by
  rw [advance, looked, ok_bind, if_neg (Nat.not_lt.mpr past)]
  rfl

theorem usable_of_position_le (nonempty : cursor.tokens ≠ [])
    (countable : cursor.tokens.length < offsetBound)
    (inside : cursor.position ≤ cursor.tokens.length) : cursor.Usable := by
  obtain ⟨located, found, looked⟩ := exists_current nonempty
  refine ⟨inside, ⟨located, found, looked⟩, located, found, ?_⟩
  by_cases before : cursor.position < cursor.tokens.length
  · exact ⟨_, advance_of_lt looked before countable⟩
  · exact ⟨_, advance_of_ge looked (Nat.le_of_not_lt before)⟩

theorem advance_keeps (nonempty : cursor.tokens ≠ [])
    (countable : cursor.tokens.length < offsetBound)
    (inside : cursor.position ≤ cursor.tokens.length)
    (advanced : cursor.advance = .ok (located, next)) :
    next.tokens = cursor.tokens ∧ next.position ≤ cursor.tokens.length := by
  obtain ⟨_, _, looked⟩ := exists_current nonempty
  by_cases before : cursor.position < cursor.tokens.length
  · cases (advance_of_lt looked before countable).symm.trans advanced
    exact ⟨rfl, before⟩
  · cases (advance_of_ge looked (Nat.le_of_not_lt before)).symm.trans advanced
    exact ⟨rfl, inside⟩

theorem Reaches.usable {lexed : Lexed} (sound : lexed.Sound)
    (reaches : (ofLexed lexed).Reaches cursor) : cursor.Usable := by
  have nonempty : lexed.listing ≠ [] := List.concat_ne_nil _ _
  have kept : cursor.tokens = lexed.listing ∧ cursor.position ≤ lexed.listing.length := by
    induction reaches with
    | refl => exact ⟨rfl, Nat.zero_le _⟩
    | advance _ advanced induction =>
        obtain ⟨tokens, inside⟩ := induction
        rw [← tokens] at nonempty inside ⊢
        exact advance_keeps nonempty (tokens ▸ sound.countable) inside advanced
  obtain ⟨tokens, inside⟩ := kept
  rw [← tokens] at nonempty inside
  exact usable_of_position_le nonempty (tokens ▸ sound.countable) inside

structure Before (cursor : Cursor) (lexed : Lexed) (left : List Token.Located) : Prop where
  tokens : cursor.tokens = lexed.listing
  stray : cursor.stray = lexed.stray
  read : ∃ read, lexed.tokens = read ++ left ∧ cursor.position = read.length

theorem before_ofLexed (lexed : Lexed) : (ofLexed lexed).Before lexed lexed.tokens :=
  ⟨rfl, rfl, [], rfl, rfl⟩

namespace Before

variable {lexed : Lexed} {left : List Token.Located}

theorem position_add (before : cursor.Before lexed left) :
    cursor.position + left.length = lexed.tokens.length := by
  obtain ⟨read, spelled, position⟩ := before.read
  rw [spelled, position, List.length_append]

theorem position_lt (before : cursor.Before lexed left) :
    cursor.position < cursor.tokens.length := by
  have counted := before.position_add
  rw [before.tokens, Lexed.listing, List.length_append, List.length_singleton]
  omega

theorem current (before : cursor.Before lexed left) :
    cursor.current = .ok (left.headD lexed.finish) := by
  have inside := before.position_lt
  obtain ⟨read, spelled, position⟩ := before.read
  apply current_of_getElem?
  rw [Nat.min_eq_left (by omega), before.tokens, Lexed.listing, spelled, position,
    List.append_assoc, List.getElem?_append_right (Nat.le_refl _), Nat.sub_self]
  cases left <;> rfl

theorem advance (before : cursor.Before lexed (located :: left)) (sound : lexed.Sound) :
    ∃ next, cursor.advance = .ok (located, next) ∧ next.Before lexed left := by
  have countable := sound.countable
  rw [← before.tokens] at countable
  refine ⟨_, advance_of_lt before.current before.position_lt countable, ?_⟩
  obtain ⟨read, spelled, position⟩ := before.read
  refine ⟨before.tokens, before.stray, read ++ [located], ?_, ?_⟩
  · rw [spelled, List.append_assoc]
    rfl
  · rw [List.length_append, ← position]
    rfl

theorem head_notFinish (before : cursor.Before lexed (located :: left)) (sound : lexed.Sound) :
    located.token ≠ .finish := by
  obtain ⟨read, spelled, _⟩ := before.read
  exact sound.notFinish located (by simp [spelled])

theorem problem (before : cursor.Before lexed left) (sound : lexed.Sound)
    (expected : Expectation) : cursor.problem expected = .ok (lexed.problemAt expected left) := by
  rw [Cursor.problem, before.current, ok_bind, before.stray]
  cases left with
  | nil =>
      rw [Lexed.problemAt]
      cases lexed.stray <;> rfl
  | cons located left =>
      have notFinish := before.head_notFinish sound
      simp only [List.headD_cons]
      split
      · next isFinish _ => exact absurd isFinish notFinish
      · rfl

theorem head_ne {token : Token} (avoids : Lexed.HeadAvoids left token)
    (notFinish : token ≠ .finish) : (left.headD lexed.finish).token ≠ token := by
  cases left with
  | nil => exact notFinish.symm
  | cons located left => exact avoids located rfl

theorem exists_or_avoids (left : List Token.Located) (token : Token) :
    (∃ span more, left = ⟨token, span⟩ :: more) ∨ Lexed.HeadAvoids left token := by
  cases left with
  | nil => exact .inr nofun
  | cons located more =>
      obtain ⟨found, span⟩ := located
      by_cases same : found = token
      · exact .inl ⟨span, more, same ▸ rfl⟩
      · right
        rintro _ ⟨⟩
        exact same

inductive Takes (lexed : Lexed) (left : List Token.Located) :
    Except Problem Segment → List Token.Located → Prop
  | segment {segment : Segment} {after : List Token.Located}
      (taken : Segment.take left = .ok (segment, after)) : Takes lexed left (.ok segment) after
  | problem {expected : Expectation} {after : List Token.Located}
      (missed : Segment.take left = .error (expected, after)) :
      Takes lexed left (.error (lexed.problemAt expected after)) after

theorem expect_of_cons {token : Token} {span : Span} {expected : Expectation}
    (before : cursor.Before lexed (⟨token, span⟩ :: left)) (sound : lexed.Sound) :
    ∃ next, cursor.expect token expected = .ok (.ok ⟨token, span⟩, next) ∧
      next.Before lexed left ∧ cursor.Reaches next := by
  obtain ⟨next, advanced, behind⟩ := before.advance sound
  refine ⟨next, ?_, behind, Reaches.refl.advance advanced⟩
  rw [expect, before.current, ok_bind, List.headD_cons, if_pos rfl, advanced]
  rfl

theorem expect_of_avoids {token : Token} {expected : Expectation}
    (before : cursor.Before lexed left) (sound : lexed.Sound)
    (avoids : Lexed.HeadAvoids left token) (notFinish : token ≠ .finish) :
    cursor.expect token expected = .ok (.error (lexed.problemAt expected left), cursor) := by
  rw [expect, before.current, ok_bind, if_neg (head_ne avoids notFinish),
    before.problem sound]
  rfl

theorem expectName_of_cons {name : String} {span : Span}
    (before : cursor.Before lexed (⟨.name name, span⟩ :: left)) (sound : lexed.Sound) :
    ∃ next, cursor.expectName = .ok (.ok (name, span), next) ∧ next.Before lexed left ∧
      cursor.Reaches next := by
  obtain ⟨next, advanced, behind⟩ := before.advance sound
  refine ⟨next, ?_, behind, Reaches.refl.advance advanced⟩
  rw [expectName, before.current, ok_bind, List.headD_cons]
  simp only [advanced, ok_bind]
  rfl

theorem expectName_of_avoids (before : cursor.Before lexed left) (sound : lexed.Sound)
    (avoids : ∀ name, Lexed.HeadAvoids left (.name name)) :
    cursor.expectName = .ok (.error (lexed.problemAt .name left), cursor) := by
  rw [expectName, before.current, ok_bind]
  split
  · next name isName => exact absurd isName (head_ne (avoids name) nofun)
  · rw [before.problem sound]
    rfl

theorem closeSegment (before : cursor.Before lexed left) (sound : lexed.Sound) {name : String}
    {span : Span} (ordered : span.Ordered) :
    ∃ taken next after, cursor.closeSegment name span = .ok (taken, next) ∧
      Takes lexed (⟨.name name, span⟩ :: left) taken after ∧ next.Before lexed after ∧
      cursor.Reaches next := by
  rw [Cursor.closeSegment, before.current, ok_bind]
  rcases exists_or_avoids left .openParen with ⟨opening, more, rfl⟩ | noCall
  · obtain ⟨opened, advanced, behind⟩ := before.advance sound
    have reaches := Reaches.refl.advance advanced
    rw [List.headD_cons, if_pos rfl, advanced, ok_bind]
    simp only
    rcases exists_or_avoids more .closeParen with ⟨close, more, rfl⟩ | noClose
    · obtain ⟨closed, expected, behind, further⟩ :=
        @expect_of_cons _ _ _ _ _ .closeParen behind sound
      have covered := Span.cover_of_ordered ordered close
      rw [expected, ok_bind]
      simp only [covered]
      exact ⟨_, closed, more, rfl, .segment rfl, behind, reaches.trans further⟩
    · rw [behind.expect_of_avoids sound noClose nofun, ok_bind]
      exact ⟨_, opened, more, rfl, .problem (Segment.take_unclosed noClose), behind, reaches⟩
  · rw [if_neg (head_ne noCall nofun)]
    exact ⟨_, cursor, left, rfl, .segment (Segment.take_property noCall), before, .refl⟩

theorem segment (before : cursor.Before lexed left) (sound : lexed.Sound) :
    ∃ taken next after, cursor.segment = .ok (taken, next) ∧ Takes lexed left taken after ∧
      next.Before lexed after ∧ cursor.Reaches next := by
  rw [Cursor.segment]
  -- what `Segment.take` finds is told by the first tokens that are left
  by_cases named : ∃ name span more, left = ⟨.name name, span⟩ :: more
  · obtain ⟨name, span, more, rfl⟩ := named
    obtain ⟨behind, expected, left, reaches⟩ := before.expectName_of_cons sound
    obtain ⟨read, spelled, _⟩ := before.read
    have ordered : span.Ordered := (sound.wellFormed ⟨.name name, span⟩
      (by simp [Lexed.listing, spelled])).ordered
    obtain ⟨taken, next, after, closed, takes, left, further⟩ := left.closeSegment sound ordered
    rw [expected, ok_bind]
    exact ⟨taken, next, after, closed, takes, left, reaches.trans further⟩
  · have avoids : ∀ name, Lexed.HeadAvoids left (.name name) := by
      intro name
      rcases exists_or_avoids left (.name name) with ⟨span, more, spelled⟩ | avoids
      · exact absurd ⟨name, span, more, spelled⟩ named
      · exact avoids
    rw [before.expectName_of_avoids sound avoids, ok_bind]
    exact ⟨_, cursor, left, rfl, .problem (Segment.take_nameless avoids), before, .refl⟩

end Before

end Cursor

end LensPath
