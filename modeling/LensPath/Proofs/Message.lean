import LensPath.Proofs.Highlight.Tokens
import LensPath.Proofs.Inspection.Offence

/-!
Messages with their placeholders filled. The arguments go in one after the other, and as long as
none of them has the placeholder of a later one in it, they might as well go in all at once.
-/

namespace LensPath

namespace Message

/-! ## Replacing -/

variable {pattern value : List Char}

theorem replaceFrom_eq (skip : Nat) (text : List Char) :
    replaceFrom pattern value skip text = replace pattern value (text.drop skip) := by
  induction text generalizing skip with
  | nil => cases skip <;> rfl
  | cons c rest induction =>
      cases skip with
      | zero => rfl
      | succ skip => exact induction skip

theorem replace_pattern (nonempty : pattern ≠ []) (rest : List Char) :
    replace pattern value (pattern ++ rest) = value ++ replace pattern value rest := by
  obtain ⟨c, more, rfl⟩ := List.exists_cons_of_ne_nil nonempty
  have found : (c :: more).isPrefixOf (c :: (more ++ rest)) = true :=
    List.isPrefixOf_iff_prefix.mpr ⟨rest, rfl⟩
  rw [replace, List.cons_append, replaceFrom, if_pos found, replaceFrom_eq]
  simp

theorem replace_cons {c : Char} {rest : List Char} (absent : ¬ pattern <+: c :: rest) :
    replace pattern value (c :: rest) = c :: replace pattern value rest := by
  rw [replace, replaceFrom, if_neg (mt List.isPrefixOf_iff_prefix.mp absent)]
  rfl

/-- A piece without the pattern stays as it is, unless what is behind it completes the pattern. -/
theorem replace_append {piece rest : List Char} (absent : ¬ pattern <:+: piece)
    (apart : ∀ c ∈ rest.head?, c ∉ pattern) :
    replace pattern value (piece ++ rest) = piece ++ replace pattern value rest := by
  induction piece with
  | nil => rfl
  | cons c piece induction =>
      have here : ¬ pattern <+: c :: (piece ++ rest) := by
        intro found
        obtain ⟨after, spelled⟩ := found
        rw [← List.cons_append] at spelled
        rcases List.append_eq_append_iff.mp spelled with ⟨more, whole, _⟩ | ⟨more, whole, behind⟩
        · exact absent ⟨[], more, whole.symm⟩
        · cases more with
          | nil =>
              rw [List.append_nil] at whole
              exact absent (whole ▸ List.infix_rfl)
          | cons next more =>
              rw [behind] at apart
              rw [whole] at apart
              exact apart next rfl (by simp)
      rw [List.cons_append, replace_cons here, induction, List.cons_append]
      exact fun found => absent (List.infix_cons found)

/-! ## Placeholders -/

/-- A character that no placeholder has in it. -/
def Outside (c : Char) : Prop := c ≠ '\x7b' ∧ c ≠ '\x7d' ∧ c.isDigit = false

instance (c : Char) : Decidable (Outside c) := inferInstanceAs (Decidable (_ ∧ _ ∧ _))

theorem placeholder_eq (number : Nat) :
    placeholder number = '\x7b' :: (Nat.toDigits 10 number ++ ['\x7d']) := by
  rw [placeholder, Nat.toList_repr, List.cons_append]

theorem isDigit_of_mem_digits {number : Nat} {c : Char} (found : c ∈ Nat.toDigits 10 number) :
    c.isDigit = true :=
  Nat.isDigit_of_mem_toDigits (by decide) (by decide) found

theorem Outside.not_mem_placeholder {c : Char} (outside : Outside c) (number : Nat) :
    c ∉ placeholder number := by
  obtain ⟨noOpen, noClose, noDigit⟩ := outside
  intro found
  rw [placeholder_eq, List.mem_cons, List.mem_append, List.mem_singleton] at found
  rcases found with opened | digit | closed
  · exact noOpen opened
  · rw [isDigit_of_mem_digits digit] at noDigit
    cases noDigit
  · exact noClose closed

theorem takeWhile_digits (number : Nat) (rest : List Char) :
    (Nat.toDigits 10 number ++ '\x7d' :: rest).takeWhile Char.isDigit =
      Nat.toDigits 10 number := by
  rw [List.takeWhile_append_of_pos fun _ => isDigit_of_mem_digits,
    List.takeWhile_cons_of_neg (by decide), List.append_nil]

theorem placeholder_append_inj {number other : Nat} {rest after : List Char}
    (equal : placeholder number ++ rest = placeholder other ++ after) :
    number = other ∧ rest = after := by
  simp only [placeholder_eq, List.cons_append, List.append_assoc, List.nil_append] at equal
  have behind := (List.cons.inj equal).2
  have digits := congrArg (List.takeWhile Char.isDigit) behind
  rw [takeWhile_digits, takeWhile_digits] at digits
  have numbers := congrArg (Nat.ofDigitChars 10 · 0) digits
  simp only [Nat.ofDigitChars_ten_toDigits] at numbers
  rw [digits] at behind
  exact ⟨numbers, (List.cons.inj (List.append_cancel_left behind)).2⟩

theorem not_prefix_placeholder {number other : Nat} (ne : number ≠ other) (rest : List Char) :
    ¬ placeholder number <+: placeholder other ++ rest := by
  intro found
  obtain ⟨after, spelled⟩ := found
  exact ne (placeholder_append_inj spelled).1

theorem ne_of_mem_digits {number : Nat} {c : Char}
    (found : c ∈ Nat.toDigits 10 number ++ ['\x7d']) : c ≠ '\x7b' := by
  intro opened
  subst opened
  rcases List.mem_append.mp found with digit | closed
  · exact absurd (isDigit_of_mem_digits digit) (by decide)
  · exact absurd (List.mem_singleton.mp closed) (by decide)

theorem not_infix_placeholder {number other : Nat} (ne : number ≠ other) :
    ¬ placeholder number <:+: placeholder other := by
  intro found
  rw [placeholder_eq other] at found
  rcases List.infix_cons_iff.mp found with here | later
  · apply not_prefix_placeholder ne []
    rwa [List.append_nil, placeholder_eq other]
  · exact ne_of_mem_digits (later.subset List.mem_cons_self) rfl

theorem not_prefix_of_ne {c : Char} (ne : c ≠ '\x7b') (number : Nat) (rest : List Char) :
    ¬ placeholder number <+: c :: rest := by
  intro found
  obtain ⟨after, spelled⟩ := found
  exact ne (List.cons.inj spelled).1.symm

/-! ## Filling at once -/

/-- A text with each placeholder that has an argument given up for it, all of them in one go. -/
inductive Fills (arguments : List String) : List Char → List Char → Prop
  | finish : Fills arguments [] []
  | argument {number : Nat} {argument : String} {rest text : List Char}
      (given : arguments[number]? = some argument) (later : Fills arguments rest text) :
      Fills arguments (placeholder number ++ rest) (argument.toList ++ text)
  | character {c : Char} {rest text : List Char}
      (plain : ∀ number < arguments.length, ¬ placeholder number <+: c :: rest)
      (later : Fills arguments rest text) : Fills arguments (c :: rest) (c :: text)

variable {arguments : List String} {template rest text : List Char}

theorem Fills.of_placeholder {number : Nat} {argument : String}
    (given : arguments[number]? = some argument)
    (fills : Fills arguments (placeholder number ++ rest) text) :
    ∃ later, Fills arguments rest later ∧ text = argument.toList ++ later := by
  generalize spelled : placeholder number ++ rest = template at fills
  cases fills with
  | finish => cases spelled
  | argument otherGiven later =>
      obtain ⟨rfl, rfl⟩ := placeholder_append_inj spelled
      cases given.symm.trans otherGiven
      exact ⟨_, later, rfl⟩
  | character plain later =>
      have bound := (List.getElem?_eq_some_iff.mp given).1
      exact absurd ⟨rest, spelled⟩ (plain number bound)

theorem Fills.of_character {c : Char}
    (plain : ∀ number < arguments.length, ¬ placeholder number <+: c :: rest)
    (fills : Fills arguments (c :: rest) text) :
    ∃ later, Fills arguments rest later ∧ text = c :: later := by
  generalize spelled : c :: rest = template at fills
  cases fills with
  | finish => cases spelled
  | @argument number _ after _ given later =>
      have bound := (List.getElem?_eq_some_iff.mp given).1
      exact absurd ⟨after, spelled.symm⟩ (plain number bound)
  | character _ later =>
      cases spelled
      exact ⟨_, later, rfl⟩

theorem Fills.unique {other : List Char} (fills : Fills arguments template text)
    (otherFills : Fills arguments template other) : text = other := by
  induction fills generalizing other with
  | finish =>
      cases otherFills
      rfl
  | argument given later induction =>
      obtain ⟨rest, restFills, rfl⟩ := otherFills.of_placeholder given
      rw [induction restFills]
  | character plain later induction =>
      obtain ⟨rest, restFills, rfl⟩ := otherFills.of_character plain
      rw [induction restFills]

theorem Fills.append {piece : List Char} (plain : ∀ c ∈ piece, c ≠ '\x7b')
    (fills : Fills arguments rest text) : Fills arguments (piece ++ rest) (piece ++ text) := by
  induction piece with
  | nil => exact fills
  | cons c piece induction =>
      obtain ⟨first, later⟩ := List.forall_mem_cons.mp plain
      exact .character (fun number _ => not_prefix_of_ne first number _) (induction later)

/-! ## Templates -/

inductive Piece
  | character (c : Char)
  | hole (number : Nat)
deriving DecidableEq, Repr

namespace Piece

def ofText (text : String) : List Piece := text.toList.map character

def isHole : Piece → Bool
  | character _ => false
  | hole _ => true

def fill (arguments : List String) : Piece → List Char
  | character c => [c]
  | hole number =>
      match arguments[number]? with
      | some argument => argument.toList
      | none => placeholder number

def fillAll (arguments : List String) (pieces : List Piece) : List Char :=
  pieces.flatMap (fill arguments)

/-- No character can be taken for part of a placeholder, and no hole stands right behind
another. -/
def Clear : List Piece → Prop
  | [] => True
  | character c :: rest => Outside c ∧ Clear rest
  | hole _ :: rest => (∀ next ∈ rest.head?, next.isHole = false) ∧ Clear rest

instance decidableClear : (pieces : List Piece) → Decidable (Clear pieces)
  | [] => .isTrue trivial
  | character c :: rest =>
      have := decidableClear rest
      inferInstanceAs (Decidable (Outside c ∧ Clear rest))
  | hole _ :: rest =>
      have := decidableClear rest
      inferInstanceAs (Decidable ((∀ next ∈ rest.head?, next.isHole = false) ∧ Clear rest))

@[simp] theorem fillAll_character (arguments : List String) (c : Char) (rest : List Piece) :
    fillAll arguments (character c :: rest) = c :: fillAll arguments rest := rfl

@[simp] theorem fillAll_hole (arguments : List String) (number : Nat) (rest : List Piece) :
    fillAll arguments (hole number :: rest) =
      (hole number).fill arguments ++ fillAll arguments rest := rfl

@[simp] theorem fillAll_append (arguments : List String) (pieces rest : List Piece) :
    fillAll arguments (pieces ++ rest) = fillAll arguments pieces ++ fillAll arguments rest :=
  List.flatMap_append

@[simp] theorem fillAll_ofText (arguments : List String) (text : String) :
    fillAll arguments (ofText text) = text.toList := by
  rw [fillAll, ofText, List.flatMap_map]
  simp [fill]

theorem fill_hole_of_some {arguments : List String} {number : Nat} {argument : String}
    (given : arguments[number]? = some argument) :
    (hole number).fill arguments = argument.toList := by
  simp only [fill, given]

theorem fill_hole_of_none {arguments : List String} {number : Nat}
    (missing : arguments[number]? = none) :
    (hole number).fill arguments = placeholder number := by
  simp only [fill, missing]

variable {arguments : List String} {pieces : List Piece}

theorem Clear.head?_not_mem {number : Nat} (clear : Clear (hole number :: pieces)) (other : Nat) :
    ∀ c ∈ (fillAll arguments pieces).head?, c ∉ placeholder other := by
  obtain ⟨apart, later⟩ := clear
  cases pieces with
  | nil => exact nofun
  | cons next rest =>
      cases next with
      | character c =>
          intro first head
          cases head
          exact later.1.not_mem_placeholder other
      | hole next => cases apart _ rfl

theorem fill_hole_append {number : Nat} (ne : number ≠ arguments.length) (argument : String) :
    (hole number).fill (arguments ++ [argument]) = (hole number).fill arguments := by
  have same : (arguments ++ [argument])[number]? = arguments[number]? := by
    grind
  simp only [fill, same]

theorem not_infix_fill {number : Nat} (ne : number ≠ arguments.length)
    (absent : ∀ earlier ∈ arguments, ¬ placeholder arguments.length <:+: earlier.toList) :
    ¬ placeholder arguments.length <:+: (hole number).fill arguments := by
  cases given : arguments[number]? with
  | some earlier =>
      rw [fill_hole_of_some given]
      exact absent earlier (List.mem_of_getElem? given)
  | none =>
      rw [fill_hole_of_none given]
      exact not_infix_placeholder ne.symm

/-- To put in one more argument is to fill its holes, unless its placeholder is in an argument
before it. -/
theorem Clear.replace_fillAll (clear : Clear pieces) (argument : String)
    (absent : ∀ earlier ∈ arguments, ¬ placeholder arguments.length <:+: earlier.toList) :
    replace (placeholder arguments.length) argument.toList (fillAll arguments pieces) =
      fillAll (arguments ++ [argument]) pieces := by
  induction pieces with
  | nil => rfl
  | cons piece rest induction =>
      cases piece with
      | character c =>
          rw [fillAll_character, replace_cons (not_prefix_of_ne clear.1.1 _ _), induction clear.2,
            fillAll_character]
      | hole number =>
          rw [fillAll_hole, fillAll_hole, ← induction clear.2]
          by_cases same : number = arguments.length
          · subst same
            rw [fill_hole_of_none (List.getElem?_eq_none (Nat.le_refl _)),
              fill_hole_of_some List.getElem?_concat_length]
            exact replace_pattern (List.cons_ne_nil _ _) _
          · rw [fill_hole_append same]
            exact replace_append (not_infix_fill same absent) (clear.head?_not_mem _)

theorem Clear.fills (clear : Clear pieces) (arguments : List String) :
    Fills arguments (fillAll [] pieces) (fillAll arguments pieces) := by
  induction pieces with
  | nil => exact .finish
  | cons piece rest induction =>
      cases piece with
      | character c =>
          exact .character (fun number _ => not_prefix_of_ne clear.1.1 number _)
            (induction clear.2)
      | hole number =>
          rw [fillAll_hole, fillAll_hole, fill_hole_of_none List.getElem?_nil]
          cases given : arguments[number]? with
          | some argument =>
              rw [fill_hole_of_some given]
              exact .argument given (induction clear.2)
          | none =>
              have past := List.getElem?_eq_none_iff.mp given
              rw [fill_hole_of_none given, placeholder_eq]
              refine .character ?_ ((induction clear.2).append fun c => ne_of_mem_digits)
              intro other bound
              have differs : other ≠ number := by omega
              have missed := not_prefix_placeholder differs (fillAll [] rest)
              rwa [placeholder_eq number] at missed

end Piece

/-- No argument has the placeholder of a later one in it. -/
def Independent (arguments : List String) : Prop :=
  ∀ later < arguments.length, ∀ earlier < later, ∀ argument ∈ arguments[earlier]?,
    ¬ placeholder later <:+: argument.toList

instance : DecidablePred Independent := fun arguments =>
  inferInstanceAs (Decidable (∀ later < arguments.length, _))

theorem Independent.absent {given rest : List String} {argument : String}
    (independent : Independent (given ++ argument :: rest)) :
    ∀ earlier ∈ given, ¬ placeholder given.length <:+: earlier.toList := by
  intro earlier found
  obtain ⟨number, bound, rfl⟩ := List.mem_iff_getElem.mp found
  apply independent given.length (by simp) number bound
  rw [List.getElem?_append_left bound, List.getElem?_eq_getElem bound]
  exact Option.mem_some_self _

theorem Piece.Clear.fillFrom_eq {pieces : List Piece} (clear : Clear pieces)
    (given : List String) {rest : List String} (independent : Independent (given ++ rest)) :
    fillFrom given.length (fillAll given pieces) rest = fillAll (given ++ rest) pieces := by
  -- The arguments that are in already move from `rest` to `given`.
  induction rest generalizing given with
  | nil => rw [List.append_nil, fillFrom]
  | cons argument rest induction =>
      have length : given.length + 1 = (given ++ [argument]).length := by simp
      rw [fillFrom, clear.replace_fillAll argument independent.absent, length]
      rw [List.append_cons given argument rest] at independent ⊢
      exact induction _ independent

def Key.pieces : Key → List Piece
  | pathBlank => Piece.ofText "Lens path is blank"
  | propertyMissing =>
      Piece.ofText "Property '" ++ .hole 0 ::
        (Piece.ofText "' does not exist in type '" ++ .hole 1 :: Piece.ofText "'")
  | methodMissing =>
      Piece.ofText "Method '" ++ .hole 0 ::
        (Piece.ofText "()' does not exist in type '" ++ .hole 1 :: Piece.ofText "'")
  | methodWritten =>
      Piece.ofText "Method '" ++ .hole 0 ::
        Piece.ofText "()' cannot be used as the target of a write lens"

theorem Key.clear_pieces (key : Key) : Piece.Clear key.pieces := by
  cases key <;> decide +kernel

theorem Key.fillAll_pieces (key : Key) : Piece.fillAll [] key.pieces = key.template.toList := by
  cases key <;> decide +kernel

theorem Key.ofText?_text (key : Key) : ofText? key.text = some key := by
  cases key <;> decide

theorem toList_render (key : Key) {arguments : List String}
    (independent : Independent arguments) :
    (render key.text arguments).toList = Piece.fillAll arguments key.pieces := by
  simp only [render, Key.ofText?_text, fill, String.toList_ofList]
  rw [← key.fillAll_pieces]
  exact key.clear_pieces.fillFrom_eq [] independent

theorem fills_render (key : Key) {arguments : List String}
    (independent : Independent arguments) :
    Fills arguments key.template.toList (render key.text arguments).toList := by
  rw [toList_render key independent, ← key.fillAll_pieces]
  exact key.clear_pieces.fills arguments

theorem independent_nil : Independent [] := fun _ bound => absurd bound (Nat.not_lt_zero _)

theorem independent_singleton (argument : String) : Independent [argument] := by
  intro later bound earlier before
  rw [List.length_singleton] at bound
  omega

theorem independent_pair {first : String} (unopened : '\x7b' ∉ first.toList) (second : String) :
    Independent [first, second] := by
  intro later bound earlier before argument given found
  have numbers : earlier = 0 := by
    rw [List.length_cons, List.length_singleton] at bound
    omega
  subst numbers
  cases given
  exact unopened (found.subset List.mem_cons_self)

end Message

namespace Diagnostic

/-- The words of a diagnostic, with the names in it as they are. -/
def sentence : Diagnostic → String
  | blankPath => "Lens path is blank"
  | propertyNotFound name _ type =>
      "Property '" ++ name ++ "' does not exist in type '" ++ type ++ "'"
  | methodNotFound name _ type =>
      "Method '" ++ name ++ "()' does not exist in type '" ++ type ++ "'"
  | methodWritten name _ =>
      "Method '" ++ name ++ "()' cannot be used as the target of a write lens"

variable {diagnostic : Diagnostic}

theorem message_eq_sentence (independent : Message.Independent diagnostic.arguments) :
    diagnostic.message = diagnostic.sentence := by
  rw [← String.toList_inj, message, Message.toList_render _ independent]
  cases diagnostic with
  | blankPath => decide
  | propertyNotFound name span type | methodNotFound name span type | methodWritten name span =>
      simp [key, arguments, sentence, Message.Key.pieces, Message.Piece.fill]

@[simp] theorem translate_arguments (diagnostic : Diagnostic) (offset : Nat) :
    (diagnostic.translate offset).arguments = diagnostic.arguments := by
  cases diagnostic <;> rfl

end Diagnostic

theorem Path.not_mem_name_ofString {source : String} {segment : Segment}
    (kept : segment ∈ (ofString source).segments) : '\x7b' ∉ segment.name.toList := by
  obtain ⟨named, _⟩ := exists_named_ofString source
  have spelled : segment.member.Named := named _ (List.mem_map_of_mem kept)
  intro opened
  exact absurd (IsName.nameChar spelled _ opened) (by decide)

namespace TypeModel

theorem Offends.independent {model : TypeModel τ} {root : τ} {source : String} {mode : Lens.Mode}
    {segment : Segment} {diagnostic : Diagnostic}
    (offends : model.Offends root (Path.ofString source).segments mode segment diagnostic) :
    Message.Independent diagnostic.arguments := by
  have unopened := Path.not_mem_name_ofString offends.mem
  cases offends with
  | property fails kind | method fails kind => exact Message.independent_pair unopened _
  | written whole writes => exact Message.independent_singleton _

/-- Arguments are put in as they are unless one of them has the placeholder of a later one in it,
and those of the diagnostics of a check never do, whatever the types are called. -/
theorem messages_exact (model : TypeModel τ) (root : τ) :
    (∀ (key : Message.Key) arguments, Message.Independent arguments → ∀ text,
      Message.Fills arguments key.template.toList text ↔
        text = (Message.render key.text arguments).toList) ∧
    ∀ lens found, model.check root lens = .ok found → ∀ diagnostic ∈ found,
      ((Blank lens.path ∧ diagnostic = .blankPath) ∨
        ∃ segment unmoved, model.Offends root (Path.ofString lens.path).segments lens.mode segment
          unmoved ∧ diagnostic = unmoved.translate lens.offset) ∧
      Message.Fills diagnostic.arguments diagnostic.key.template.toList
        diagnostic.message.toList ∧
      diagnostic.message = diagnostic.sentence := by
  constructor
  · intro key arguments independent text
    have fills := Message.fills_render key independent
    constructor
    · exact fun other => other.unique fills
    · intro same
      rwa [same]
  · intro lens found checked diagnostic reported
    have cause := exists_of_mem_check checked reported
    have independent : Message.Independent diagnostic.arguments := by
      rcases cause with ⟨_, blank⟩ | ⟨segment, unmoved, offends, moved⟩
      · rw [blank]
        exact Message.independent_nil
      · rw [moved, Diagnostic.translate_arguments]
        exact offends.independent
    exact ⟨cause, Message.fills_render _ independent, Diagnostic.message_eq_sentence independent⟩

/-- Arguments with placeholders of themselves and of earlier ones, one of them without a place, and
a type with a name of placeholders. -/
theorem messages_exact_braces :
    (Message.Independent ["a\x7b0\x7db", "\x7b0\x7d\x7b1\x7dx", "c"] ∧
      Message.Fills ["a\x7b0\x7db", "\x7b0\x7d\x7b1\x7dx", "c"]
        "Property '\x7b0\x7d' does not exist in type '\x7b1\x7d'".toList
        "Property 'a\x7b0\x7db' does not exist in type '\x7b0\x7d\x7b1\x7dx'".toList) ∧
    ((TypeTable.ofList [("\x7b1\x7d\x7b0\x7d", {})]).model.check "\x7b1\x7d\x7b0\x7d"
        ⟨"zip", .read, 2⟩ = .ok [.propertyNotFound "zip" ⟨2, 5⟩ "\x7b1\x7d\x7b0\x7d"] ∧
      (Diagnostic.propertyNotFound "zip" ⟨2, 5⟩ "\x7b1\x7d\x7b0\x7d").message =
        "Property 'zip' does not exist in type '\x7b1\x7d\x7b0\x7d'") := by
  obtain ⟨filled, reported⟩ :=
    messages_exact (TypeTable.ofList [("\x7b1\x7d\x7b0\x7d", {})]).model "\x7b1\x7d\x7b0\x7d"
  have independent :
      Message.Independent ["a\x7b0\x7db", "\x7b0\x7d\x7b1\x7dx", "c"] := by decide +kernel
  have checked : (TypeTable.ofList [("\x7b1\x7d\x7b0\x7d", {})]).model.check
      "\x7b1\x7d\x7b0\x7d" ⟨"zip", .read, 2⟩ =
        .ok [.propertyNotFound "zip" ⟨2, 5⟩ "\x7b1\x7d\x7b0\x7d"] :=
    eq_ok_of_toOption (by decide +kernel)
  refine ⟨⟨independent, ?_⟩, checked, ?_⟩
  · apply (filled .propertyMissing _ independent _).mpr
    decide +kernel
  · obtain ⟨_, _, message⟩ := reported _ _ checked _ (List.mem_singleton_self _)
    rw [message]
    decide +kernel

end TypeModel

end LensPath
