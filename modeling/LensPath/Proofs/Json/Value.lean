import LensPath.Proofs.Json.Numbers
import LensPath.Proofs.Json.Strings
import Mathlib.Data.List.DropRight

/-!
Reading values that are kept as they are: where a value stands in a text, and that every text of a
value is read as long as the value is not nested too deep.
-/

namespace LensPath.Json

open Text (isDigit)

variable {room : Nat} {input rest : List Char} {value : Value}

/-! ## Where a value stands -/

inductive ValueAt : Nat → List Char → Value → List Char → Prop
  | null {room : Nat} {input start rest : List Char} (head : skipSpace input = 'n' :: start)
      (word : scanWord ['u', 'l', 'l'] start = .ok ((), rest)) : ValueAt room input .null rest
  | true {room : Nat} {input start rest : List Char} (head : skipSpace input = 't' :: start)
      (word : scanWord ['r', 'u', 'e'] start = .ok ((), rest)) :
      ValueAt room input (.flag true) rest
  | false {room : Nat} {input start rest : List Char} (head : skipSpace input = 'f' :: start)
      (word : scanWord ['a', 'l', 's', 'e'] start = .ok ((), rest)) :
      ValueAt room input (.flag false) rest
  | negative {room : Nat} {input start rest : List Char} {numeral : Numeral}
      (head : skipSpace input = '-' :: start)
      (number : scanNumber true start = .ok (numeral, rest)) :
      ValueAt room input (.number numeral) rest
  | natural {room : Nat} {input start rest : List Char} {digit : Char} {numeral : Numeral}
      (head : skipSpace input = digit :: start) (isDigit : isDigit digit = true)
      (number : scanNumber false (digit :: start) = .ok (numeral, rest)) :
      ValueAt room input (.number numeral) rest
  | text {room : Nat} {input start rest : List Char} {string : String}
      (head : skipSpace input = '"' :: start)
      (scanned : scanString [] start = .ok (string, rest)) : ValueAt room input (.text string) rest
  | list {room : Nat} {input start rest : List Char} {items : List Value}
      (head : skipSpace input = '[' :: start)
      (each : ItemsAt (fun start item after =>
        (Value.read room).run? start = some (item, after)) true start items rest) :
      ValueAt (room + 1) input (.list items) rest
  | object {room : Nat} {input start rest : List Char} {members : List (String × Value)}
      (head : skipSpace input = '{' :: start)
      (each : MembersAt (fun start item after =>
        (Value.read room).run? start = some (item, after)) true start members rest) :
      ValueAt (room + 1) input (.object members) rest

theorem run?_members {item : Reader α} {members : List (String × α)}
    (object : MembersAt (fun start value after => item.run? start = some (value, after)) true
      input members rest) :
    (Reader.members (Reader.member item) []).run? input = some (members.reverse, rest) := by
  have kept : members.mapM (fun entry => (some entry.2).map (entry.1, ·)) = some members := by
    simpa using List.mapM_pure (m := Option) (l := members) (f := id)
  have read := object.run?_members fun _ value after found =>
    found.trans (Option.map_some (f := (·, after)) (a := value)).symm
  rw [kept] at read
  exact read

theorem membersAt_of_run? {item : Reader α} {collected : List (String × α)}
    (read : (Reader.members (Reader.member item) []).run? input = some (collected, rest)) :
    MembersAt (fun start value after => item.run? start = some (value, after)) true input
      collected.reverse rest := by
  obtain ⟨members, object⟩ := exists_membersAt
    (fun _ _ _ _ _ => exists_of_run?_member) read
  rw [run?_members object] at read
  cases read
  simpa using object

theorem run?_items {item : Reader α} {items : List α}
    (list : ItemsAt (fun start value after => item.run? start = some (value, after)) true
      input items rest) : item.items.run? input = some (items, rest) := by
  have kept : items.mapM some = some items := by
    simpa using List.mapM_pure (m := Option) (l := items) (f := id)
  have read := list.run?_eq (f := some) fun _ _ _ found => found
  rwa [kept] at read

theorem valueAt_of_run? (read : (Value.read room).run? input = some (value, rest)) :
    ValueAt room input value rest := by
  cases head : skipSpace input with
  | nil =>
      rw [Value.read.eq_def, Reader.run?_peek_bind_nil _ _ head] at read
      cases read
  | cons c start =>
      rw [Value.read.eq_def, Reader.run?_peek_bind _ _ head] at read
      split at read
      case h_6 | h_7 =>
        split at read
        · cases read
        · simp only [Reader.run?_bind, Reader.run?_advance, Option.bind_some,
            Option.bind_eq_some_iff] at read
          obtain ⟨⟨found, after⟩, contents, same⟩ := read
          cases same
          first
          | exact .list head (itemsAt_of_run? contents)
          | exact .object head (membersAt_of_run? contents)
      case h_8 =>
        split at read
        · next isDigit =>
            simp only [Reader.run?_bind, Reader.run?_number, Option.bind_eq_some_iff,
              toOption_eq_some_iff] at read
            obtain ⟨⟨found, after⟩, scanned, same⟩ := read
            cases same
            exact .natural head isDigit scanned
        · cases read
      all_goals
        simp only [Reader.run?_bind, Reader.run?_advance, Option.bind_some,
          Reader.run?_word, Reader.run?_number, Reader.run?_string,
          Option.bind_eq_some_iff, toOption_eq_some_iff] at read
        obtain ⟨⟨found, after⟩, scanned, same⟩ := read
        cases same
      · exact .null head scanned
      · exact .true head scanned
      · exact .false head scanned
      · exact .negative head scanned
      · exact .text head scanned

theorem ValueAt.run? (found : ValueAt room input value rest) :
    (Value.read room).run? input = some (value, rest) := by
  cases found with
  | null head scanned | true head scanned | false head scanned | negative head scanned
  | text head scanned =>
      rw [Value.read.eq_def, Reader.run?_peek_bind _ _ head]
      simp [scanned, Except.toOption]
  | natural head isDigit scanned =>
      rw [Value.read.eq_def, Reader.run?_peek_bind _ _ head]
      split
      case h_8 => simp [isDigit, scanned, Except.toOption]
      all_goals exact absurd isDigit (by decide)
  | list head each =>
      rw [Value.read.eq_def, Reader.run?_peek_bind _ _ head]
      simp [run?_items each]
  | object head each =>
      rw [Value.read.eq_def, Reader.run?_peek_bind _ _ head]
      simp [run?_members each]

/-! ## Blanks around values -/

theorem Blanks.nil : Blanks [] := by simp [Blanks]

theorem Blanks.append {before after : List Char} (first : Blanks before) (second : Blanks after) :
    Blanks (before ++ after) := by
  simpa [Blanks, or_imp, forall_and] using ⟨first, second⟩

theorem skipSpace_blanks {blanks : List Char} (isBlank : Blanks blanks) (input : List Char) :
    skipSpace (blanks ++ input) = skipSpace input :=
  List.dropWhile_append_of_pos isBlank

theorem skipSpace_cons {c : Char} (noSpace : isSpace c = false) (rest : List Char) :
    skipSpace (c :: rest) = c :: rest := by
  simp [skipSpace, noSpace]

theorem skipSpace_idem (input : List Char) : skipSpace (skipSpace input) = skipSpace input :=
  List.dropWhile_idempotent isSpace input

theorem exists_blanks (input : List Char) :
    ∃ blanks, Blanks blanks ∧ input = blanks ++ skipSpace input :=
  ⟨input.takeWhile isSpace, List.all_eq_true.mp List.all_takeWhile,
    List.takeWhile_append_dropWhile.symm⟩

theorem Padded.self (core : List Char) : Padded core core := by
  simpa using @Padded.intro core _ _ .nil .nil

theorem Padded.blanks_append {core text blanks : List Char} (padded : Padded core text)
    (isBlank : Blanks blanks) : Padded core (blanks ++ text) := by
  obtain ⟨before, after⟩ := padded
  simpa using Padded.intro (isBlank.append before) after

theorem Padded.append_blanks {core text blanks : List Char} (padded : Padded core text)
    (isBlank : Blanks blanks) : Padded core (text ++ blanks) := by
  obtain ⟨before, after⟩ := padded
  simpa using Padded.intro before (after.append isBlank)

theorem Value.SpelledBy.of_padded {text around : List Char} (spelled : value.SpelledBy text)
    (wider : ∀ core, Padded core text → Padded core around) : value.SpelledBy around := by
  cases spelled with
  | null padded => exact .null (wider _ padded)
  | true padded => exact .true (wider _ padded)
  | false padded => exact .false (wider _ padded)
  | number number padded => exact .number number (wider _ padded)
  | text spelled padded => exact .text spelled (wider _ padded)
  | list layout each =>
      obtain ⟨separated, padded⟩ := layout
      exact .list ⟨separated, wider _ padded⟩ each
  | object layout keys each =>
      obtain ⟨pieces, separated, padded⟩ := layout
      exact .object ⟨pieces, separated, wider _ padded⟩ keys each

/-! ## Places behind blanks and before other texts -/

theorem ValueAt.of_skipSpace {start : List Char} (found : ValueAt room input value rest)
    (same : skipSpace start = skipSpace input) : ValueAt room start value rest := by
  cases found with
  | null head word => exact .null (same.trans head) word
  | true head word => exact .true (same.trans head) word
  | false head word => exact .false (same.trans head) word
  | negative head number => exact .negative (same.trans head) number
  | natural head isDigit number => exact .natural (same.trans head) isDigit number
  | text head scanned => exact .text (same.trans head) scanned
  | list head each => exact .list (same.trans head) each
  | object head each => exact .object (same.trans head) each

theorem ValueAt.head (found : ValueAt room input value rest) :
    ∃ c start, skipSpace input = c :: start ∧ c ≠ ']' := by
  cases found with
  | natural head isDigit _ =>
      refine ⟨_, _, head, ?_⟩
      rintro rfl
      cases isDigit
  | null head _ | true head _ | false head _ | negative head _ | text head _ | list head _
  | object head _ => exact ⟨_, _, head, by decide⟩

theorem numberEnds_cons (c : Char) (rest : List Char)
    (ends : isDigit c = false ∧ c ≠ '.' ∧ ¬ ExponentMark c) : NumberEnds (c :: rest) := by
  simpa [NumberEnds] using ends

/-- Where a text says a value, the value is read wherever the text stands, up to blanks behind
it. -/
def ReadAs (room : Nat) (value : Value) (text : List Char) : Prop :=
  ∀ rest, NumberEnds rest →
    ∃ blanks, Blanks blanks ∧ ValueAt room (text ++ rest) value (blanks ++ rest)

theorem scanWord_append (word rest : List Char) :
    scanWord word (word ++ rest) = .ok ((), rest) := by
  induction word with
  | nil => rfl
  | cons c word induction => simp [scanWord, induction]

theorem NumberEnds.blanks_append {blanks : List Char} (isBlank : Blanks blanks)
    (ends : NumberEnds rest) : NumberEnds (blanks ++ rest) := by
  cases blanks with
  | nil => exact ends
  | cons c blanks =>
      have space := isBlank c (by simp)
      simp only [isSpace, Bool.or_eq_true, beq_iff_eq] at space
      refine numberEnds_cons _ _ ?_
      rcases space with ((rfl | rfl) | rfl) | rfl <;> decide

theorem skipSpace_padded {core before : List Char} {c : Char} (isBlank : Blanks before)
    (noSpace : isSpace c = false) : skipSpace (before ++ c :: core) = c :: core := by
  rw [skipSpace_blanks isBlank, skipSpace_cons noSpace]

/-! ## Lists that are written are read -/

section

variable {blanks behind start : List Char} {first : Bool} {c : Char}

theorem scanItem_first (head : skipSpace input = c :: start) (noEnd : c ≠ ']') :
    scanItem true input = .ok (true, c :: start) := by
  simp [scanItem, head, noEnd]

theorem scanItem_comma (isBlank : Blanks blanks) (head : skipSpace behind = c :: start)
    (noEnd : c ≠ ']') : scanItem false (blanks ++ ',' :: behind) = .ok (true, behind) := by
  simp only [scanItem, skipSpace_padded isBlank (by decide : isSpace ',' = false), head,
    beq_iff_eq, Char.reduceEq, ↓reduceIte, Bool.false_eq_true]
  split
  · next same => cases same
  · next same =>
      cases same
      exact absurd rfl noEnd
  · rfl

theorem scanItem_closing (isBlank : Blanks blanks) :
    scanItem first (blanks ++ ']' :: rest) = .ok (false, rest) := by
  simp [scanItem, skipSpace_padded isBlank (by decide : isSpace ']' = false)]

theorem scanKey_first (head : skipSpace input = '"' :: start) :
    scanKey true input = .ok (true, start) := by
  simp [scanKey, head]

theorem scanKey_comma (isBlank : Blanks blanks) (head : skipSpace behind = '"' :: start) :
    scanKey false (blanks ++ ',' :: behind) = .ok (true, start) := by
  simp [scanKey, skipSpace_padded isBlank (by decide : isSpace ',' = false), head]

theorem scanKey_closing (isBlank : Blanks blanks) :
    scanKey first (blanks ++ '}' :: rest) = .ok (false, rest) := by
  simp [scanKey, skipSpace_padded isBlank (by decide : isSpace '}' = false)]

end

theorem exists_head_of_separated {items : List Value} {pieces : List (List Char)}
    {inner : List Char} (rest : List Char) (separated : Separated pieces inner)
    (each : List.Forall₂ (ReadAs room) items pieces) (nonempty : pieces ≠ []) :
    ∃ c start, skipSpace (inner ++ ']' :: rest) = c :: start ∧ c ≠ ']' := by
  cases separated with
  | none => exact absurd rfl nonempty
  | last piece =>
      cases each with
      | cons read _ =>
          obtain ⟨_, _, found⟩ := read _ (numberEnds_cons ']' rest (by decide))
          exact found.head
  | @more piece pieces inner _ separated =>
      cases each with
      | cons read _ =>
          obtain ⟨_, _, found⟩ := read _ (numberEnds_cons ',' (inner ++ ']' :: rest) (by decide))
          rw [List.append_assoc]
          exact found.head

theorem itemsAt_of_separated {items : List Value} {pieces : List (List Char)}
    {inner input start : List Char} {first : Bool} (separated : Separated pieces inner)
    (each : List.Forall₂ (ReadAs room) items pieces) (nonempty : pieces ≠ [])
    (opened : scanItem first input = .ok (true, start))
    (same : skipSpace start = skipSpace (inner ++ ']' :: rest)) :
    ItemsAt (fun start item after => (Value.read room).run? start = some (item, after)) first input
      items rest := by
  induction separated generalizing items first input start with
  | none => exact absurd rfl nonempty
  | last piece =>
      cases each with
      | cons read others =>
          cases others
          obtain ⟨blanks, isBlank, found⟩ := read _ (numberEnds_cons ']' rest (by decide))
          exact .item opened (found.of_skipSpace same).run? (.finish (scanItem_closing isBlank))
  | @more piece pieces text others_nonempty later induction =>
      cases each with
      | cons read others =>
          obtain ⟨blanks, isBlank, found⟩ :=
            read _ (numberEnds_cons ',' (text ++ ']' :: rest) (by decide))
          rw [List.append_assoc] at same
          obtain ⟨c, behind, head, noEnd⟩ :=
            exists_head_of_separated rest later others others_nonempty
          exact .item opened (found.of_skipSpace same).run?
            (induction others others_nonempty (scanItem_comma isBlank head noEnd) rfl)

/-! ## Objects that are written are read -/

theorem forall₂_entries_iff {R : α → β → Prop} {entries : List (String × α)}
    {pieces : List (String × β)} :
    List.Forall₂ (fun entry piece => entry.1 = piece.1 ∧ R entry.2 piece.2) entries pieces ↔
      entries.map Prod.fst = pieces.map Prod.fst ∧
        List.Forall₂ R (entries.map Prod.snd) (pieces.map Prod.snd) := by
  induction entries generalizing pieces with
  | nil => cases pieces <;> simp
  | cons entry entries induction =>
      cases pieces with
      | nil => simp
      | cons piece pieces => simp only [List.forall₂_cons, induction, List.map_cons,
          List.cons.injEq, and_and_and_comm]

theorem exists_key_of_member {key : String} {piece text : List Char}
    (member : MemberText (key, piece) text) (rest : List Char) :
    ∃ start behind, skipSpace (text ++ rest) = '"' :: start ∧
      scanString [] start = .ok (key, behind) ∧ skipSpace behind = ':' :: (piece ++ rest) := by
  cases member with
  | intro named =>
      obtain ⟨spelled, before, after⟩ := named
      rename_i core blanksBefore blanksAfter
      have behind := scanString_append spelled [] (blanksAfter ++ ':' :: (piece ++ rest))
      refine ⟨_, _, ?_, by simpa using behind, skipSpace_padded after (by decide)⟩
      simpa using @skipSpace_padded _ blanksBefore '"' before (by decide)

theorem exists_head_of_separated_members {pieces : List (String × List Char)}
    {members : List (List Char)} {inner : List Char} (rest : List Char)
    (separated : Separated members inner) (texts : List.Forall₂ MemberText pieces members)
    (nonempty : members ≠ []) : ∃ start, skipSpace (inner ++ '}' :: rest) = '"' :: start := by
  cases separated with
  | none => exact absurd rfl nonempty
  | last member =>
      cases texts with
      | cons text _ =>
          obtain ⟨start, _, head, _⟩ := exists_key_of_member text ('}' :: rest)
          exact ⟨start, head⟩
  | @more member members inner _ _ =>
      cases texts with
      | cons text _ =>
          obtain ⟨start, _, head, _⟩ := exists_key_of_member text (',' :: (inner ++ '}' :: rest))
          rw [List.append_assoc]
          exact ⟨start, head⟩

theorem membersAt_of_separated {entries : List (String × Value)}
    {pieces : List (String × List Char)} {members : List (List Char)}
    {inner input start : List Char} {first : Bool} (separated : Separated members inner)
    (texts : List.Forall₂ MemberText pieces members)
    (each : List.Forall₂ (fun entry piece => entry.1 = piece.1 ∧ ReadAs room entry.2 piece.2)
      entries pieces)
    (nonempty : members ≠ []) (opened : scanKey first input = .ok (true, start))
    (quoted : skipSpace (inner ++ '}' :: rest) = '"' :: start) :
    MembersAt (fun start item after => (Value.read room).run? start = some (item, after)) first
      input entries rest := by
  induction separated generalizing entries pieces first input start with
  | none => exact absurd rfl nonempty
  | last member =>
      obtain ⟨⟩ | ⟨text, ⟨⟩⟩ := texts
      obtain ⟨⟩ | ⟨⟨same, read⟩, ⟨⟩⟩ := each
      obtain ⟨_, behind, head, named, colon⟩ := exists_key_of_member text ('}' :: rest)
      cases head.symm.trans quoted
      obtain ⟨blanks, isBlank, found⟩ := read _ (numberEnds_cons '}' rest (by decide))
      exact .member opened (same ▸ named) colon found.run? (.finish (scanKey_closing isBlank))
  | @more member members inner others_nonempty later induction =>
      obtain ⟨⟩ | ⟨text, texts⟩ := texts
      obtain ⟨⟩ | ⟨⟨same, read⟩, each⟩ := each
      obtain ⟨_, behind, head, named, colon⟩ :=
        exists_key_of_member text (',' :: (inner ++ '}' :: rest))
      rw [List.append_assoc] at quoted
      cases head.symm.trans quoted
      obtain ⟨blanks, isBlank, found⟩ :=
        read _ (numberEnds_cons ',' (inner ++ '}' :: rest) (by decide))
      obtain ⟨next, quoted⟩ := exists_head_of_separated_members rest later texts others_nonempty
      exact .member opened (same ▸ named) colon found.run?
        (induction texts each others_nonempty (scanKey_comma isBlank quoted) quoted)

/-! ## Values that are written are read -/

theorem forall₂_imp_of_mem {R S : α → β → Prop} {values : List α} {others : List β}
    (each : List.Forall₂ R values others)
    (imp : ∀ value ∈ values, ∀ other, R value other → S value other) :
    List.Forall₂ S values others :=
  ((List.forall₂_and_left values others).mpr ⟨imp, each⟩).imp fun _ other entry =>
    entry.1 other entry.2

theorem readAs_of_padded {core text : List Char} (padded : Padded core text)
    (read : ∀ rest, NumberEnds rest → ValueAt room (core ++ rest) value rest) :
    ReadAs room value text := by
  intro rest ends
  obtain ⟨before, isBlank⟩ := padded
  rename_i leading trailing
  refine ⟨trailing, isBlank, ?_⟩
  refine (read (trailing ++ rest) (ends.blanks_append isBlank)).of_skipSpace ?_
  rw [List.append_assoc, List.append_assoc, skipSpace_blanks before]

theorem not_isSpace_of_isDigit {c : Char} (digit : isDigit c = true) : isSpace c = false := by
  by_contra space
  simp only [isSpace, Bool.not_eq_false, Bool.or_eq_true, beq_iff_eq] at space
  rcases space with ((rfl | rfl) | rfl) | rfl <;> cases digit

theorem readAs_number {numeral : Numeral} {core : List Char} (number : NumberText numeral core)
    (ends : NumberEnds rest) : ValueAt room (core ++ rest) (.number numeral) rest := by
  cases number with
  | negative number =>
      exact .negative (skipSpace_cons (by decide) _) (scanNumber_append number ends)
  | unsigned number =>
      have scanned := scanNumber_append number ends
      obtain ⟨digit, behind, same, isDigit⟩ : ∃ digit behind, core ++ rest = digit :: behind ∧
          isDigit digit = true := by
        obtain ⟨isWhole, _, _, _⟩ := number
        cases isWhole with
        | zero => exact ⟨'0', _, rfl, by decide⟩
        | other isDigits _ =>
            obtain ⟨first, others, rfl⟩ := List.exists_cons_of_ne_nil isDigits.nonempty
            exact ⟨first, _, rfl, isDigits.each first (by simp)⟩
      rw [same] at scanned ⊢
      exact .natural (skipSpace_cons (not_isSpace_of_isDigit isDigit) _) isDigit scanned

theorem valueAt_list {items : List Value} {pieces : List (List Char)} {inner : List Char}
    (separated : Separated pieces inner) (each : List.Forall₂ (ReadAs room) items pieces)
    (rest : List Char) : ValueAt (room + 1) ('[' :: inner ++ [']'] ++ rest) (.list items) rest := by
  simp only [List.cons_append, List.append_assoc, List.nil_append]
  refine .list (skipSpace_cons (by decide) _) ?_
  cases pieces with
  | nil =>
      cases each
      cases separated with
      | none blanks => exact .finish (scanItem_closing blanks)
  | cons piece pieces =>
      obtain ⟨c, behind, head, noEnd⟩ := exists_head_of_separated rest separated each (by simp)
      refine itemsAt_of_separated separated each (by simp) (scanItem_first head noEnd) ?_
      rw [← head, skipSpace_idem]

theorem valueAt_object {entries : List (String × Value)} {pieces : List (String × List Char)}
    {members : List (List Char)} {inner : List Char} (separated : Separated members inner)
    (texts : List.Forall₂ MemberText pieces members)
    (each : List.Forall₂ (fun entry piece => entry.1 = piece.1 ∧ ReadAs room entry.2 piece.2)
      entries pieces) (rest : List Char) :
    ValueAt (room + 1) ('{' :: inner ++ ['}'] ++ rest) (.object entries) rest := by
  simp only [List.cons_append, List.append_assoc, List.nil_append]
  refine .object (skipSpace_cons (by decide) _) ?_
  cases members with
  | nil =>
      cases texts
      cases each
      cases separated with
      | none blanks => exact .finish (scanKey_closing blanks)
  | cons member members =>
      obtain ⟨start, quoted⟩ := exists_head_of_separated_members rest separated texts (by simp)
      exact membersAt_of_separated separated texts each (by simp) (scanKey_first quoted) quoted

theorem Value.SpelledBy.readAs {text : List Char} (spelled : value.SpelledBy text)
    (fits : value.Fits room) : ReadAs room value text := by
  induction value generalizing room text with
  | null =>
      cases spelled with
      | null padded =>
          exact readAs_of_padded padded fun rest _ =>
            .null (skipSpace_cons (by decide) _) (scanWord_append _ rest)
  | flag value =>
      cases spelled with
      | true padded =>
          exact readAs_of_padded padded fun rest _ =>
            .true (skipSpace_cons (by decide) _) (scanWord_append _ rest)
      | false padded =>
          exact readAs_of_padded padded fun rest _ =>
            .false (skipSpace_cons (by decide) _) (scanWord_append _ rest)
  | number numeral =>
      cases spelled with
      | number number padded =>
          exact readAs_of_padded padded fun rest ends => readAs_number number ends
  | text string =>
      cases spelled with
      | text spelled padded =>
          refine readAs_of_padded padded fun rest _ => ?_
          refine .text (skipSpace_cons (by decide) _) ?_
          simpa using scanString_append spelled [] rest
  | list items induction =>
      cases spelled with
      | list layout each =>
          cases fits with
          | list fits =>
              obtain ⟨separated, padded⟩ := layout
              exact readAs_of_padded padded fun rest _ =>
                valueAt_list separated (forall₂_imp_of_mem each fun item member _ spelled =>
                  induction item member spelled (fits item member)) rest
  | object members induction =>
      cases spelled with
      | object layout keys each =>
          cases fits with
          | object fits =>
              obtain ⟨texts, separated, padded⟩ := layout
              have read := forall₂_imp_of_mem (forall₂_entries_iff.mpr ⟨keys, each⟩)
                fun entry member piece both =>
                  And.intro both.1 (induction entry member both.2 (fits entry member))
              exact readAs_of_padded padded fun rest _ => valueAt_object separated texts read rest

end LensPath.Json
