import LensPath.Proofs.Json.Value

/-!
Values are read from their own texts only, so no text says two values.
-/

namespace LensPath.Json

variable {room : Nat} {input rest : List Char} {value : Value}

/-! ## Lists and objects that are read are written -/

theorem exists_blanks_of_head {c : Char} {start : List Char}
    (head : skipSpace input = c :: start) :
    ∃ blanks, Blanks blanks ∧ input = blanks ++ c :: start := by
  rw [← head]
  exact exists_blanks input

theorem Value.SpelledBy.append_blanks {text blanks : List Char} (spelled : value.SpelledBy text)
    (isBlank : Blanks blanks) : value.SpelledBy (text ++ blanks) :=
  spelled.of_padded fun _ padded => padded.append_blanks isBlank

theorem Value.SpelledBy.blanks_append {text blanks : List Char} (spelled : value.SpelledBy text)
    (isBlank : Blanks blanks) : value.SpelledBy (blanks ++ text) :=
  spelled.of_padded fun _ padded => padded.blanks_append isBlank

section

variable {place : List Char → Value → List Char → Prop}

theorem separated_of_later {items : List Value} {after own : List Char} {item : Value}
    (later : ItemsAt place false after items rest)
    (each : ∀ item ∈ items, ∀ start after, place start item after →
      ∃ own, start = own ++ after ∧ item.SpelledBy own)
    (spelled : item.SpelledBy own) :
    ∃ pieces inner, Separated pieces inner ∧
      List.Forall₂ Value.SpelledBy (item :: items) pieces ∧
      own ++ after = inner ++ ']' :: rest := by
  induction items generalizing item own after with
  | nil =>
      cases later with
      | finish closed =>
          obtain ⟨blanks, isBlank, rfl⟩ := exists_blanks_of_head (head_of_closed closed)
          exact ⟨_, _, .last _, .cons (spelled.append_blanks isBlank) .nil, by simp⟩
  | cons next items induction =>
      cases later with
      | item opened found later =>
          obtain ⟨blanks, isBlank, rfl⟩ := exists_blanks_of_head (head_of_comma opened)
          obtain ⟨nextOwn, rfl, nextSpelled⟩ := each next (by simp) _ _ found
          obtain ⟨pieces, inner, separated, texts, same⟩ :=
            induction later (fun item member => each item (by simp [member])) nextSpelled
          have nonempty : pieces ≠ [] := by
            rintro rfl
            cases texts
          exact ⟨_, _, .more _ nonempty separated, .cons (spelled.append_blanks isBlank) texts,
            by simp [same]⟩

theorem separated_of_itemsAt {items : List Value} (found : ItemsAt place true input items rest)
    (each : ∀ item ∈ items, ∀ start after, place start item after →
      ∃ own, start = own ++ after ∧ item.SpelledBy own) :
    ∃ pieces inner, Separated pieces inner ∧ List.Forall₂ Value.SpelledBy items pieces ∧
      input = inner ++ ']' :: rest := by
  cases found with
  | finish closed =>
      obtain ⟨blanks, isBlank, rfl⟩ := exists_blanks_of_head (head_of_closed closed)
      exact ⟨[], blanks, .none isBlank, .nil, rfl⟩
  | item opened found later =>
      obtain ⟨c, tail, rfl, head, _⟩ := head_of_opened opened
      obtain ⟨blanks, isBlank, rfl⟩ := exists_blanks_of_head head
      obtain ⟨own, same, spelled⟩ := each _ List.mem_cons_self _ _ found
      rw [same, ← List.append_assoc]
      exact separated_of_later later (fun item member => each item (by simp [member]))
        (spelled.blanks_append isBlank)

end

theorem exists_keyText {key : String} {blanks start behind before : List Char}
    (isBlank : Blanks blanks) (named : scanString [] start = .ok (key, behind))
    (colon : skipSpace behind = ':' :: before) :
    ∃ keyText, KeyText key keyText ∧ blanks ++ '"' :: start = keyText ++ ':' :: before := by
  obtain ⟨decoded, core, rfl, rfl, spelled⟩ := stringText_of_scanString named
  obtain ⟨after, isAfter, rfl⟩ := exists_blanks_of_head colon
  exact ⟨_, ⟨by simpa using spelled, .intro isBlank isAfter⟩, by simp⟩

section

variable {place : List Char → Value → List Char → Prop}

def SpelledMembers (entries : List (String × Value)) (pieces : List (String × List Char)) : Prop :=
  List.Forall₂ (fun entry piece => entry.1 = piece.1 ∧ entry.2.SpelledBy piece.2) entries pieces

theorem separated_of_laterMembers {entries : List (String × Value)} {after keyText own : List Char}
    {key : String} (later : MembersAt place false after entries rest)
    (each : ∀ entry ∈ entries, ∀ start after, place start entry.2 after →
      ∃ own, start = own ++ after ∧ entry.2.SpelledBy own)
    (named : KeyText key keyText) (spelled : value.SpelledBy own) :
    ∃ pieces members inner, Separated members inner ∧ List.Forall₂ MemberText pieces members ∧
      SpelledMembers ((key, value) :: entries) pieces ∧
      keyText ++ ':' :: (own ++ after) = inner ++ '}' :: rest := by
  induction entries generalizing key keyText value own after with
  | nil =>
      cases later with
      | finish closed =>
          obtain ⟨blanks, isBlank, rfl⟩ := exists_blanks_of_head (head_of_keyClosed closed)
          exact ⟨_, _, _, .last _, .cons (.intro named) .nil,
            .cons ⟨rfl, spelled.append_blanks isBlank⟩ .nil, by simp⟩
  | cons next entries induction =>
      cases later with
      | member opened nextNamed colon found later =>
          obtain ⟨behind, comma, quoted⟩ := head_of_laterKey opened
          obtain ⟨blanks, isBlank, rfl⟩ := exists_blanks_of_head comma
          obtain ⟨before, isBefore, rfl⟩ := exists_blanks_of_head quoted
          obtain ⟨nextKey, isKey, same⟩ := exists_keyText isBefore nextNamed colon
          obtain ⟨nextOwn, rfl, nextSpelled⟩ := each _ List.mem_cons_self _ _ found
          obtain ⟨pieces, members, inner, separated, texts, entries, whole⟩ :=
            induction later (fun entry member => each entry (by simp [member])) isKey nextSpelled
          have nonempty : members ≠ [] := by
            rintro rfl
            cases texts
            cases entries
          exact ⟨_, _, _, .more _ nonempty separated, .cons (.intro named) texts,
            .cons ⟨rfl, spelled.append_blanks isBlank⟩ entries, by simp [same, whole]⟩

theorem separated_of_membersAt {entries : List (String × Value)}
    (found : MembersAt place true input entries rest)
    (each : ∀ entry ∈ entries, ∀ start after, place start entry.2 after →
      ∃ own, start = own ++ after ∧ entry.2.SpelledBy own) :
    ∃ pieces members inner, Separated members inner ∧ List.Forall₂ MemberText pieces members ∧
      SpelledMembers entries pieces ∧ input = inner ++ '}' :: rest := by
  cases found with
  | finish closed =>
      obtain ⟨blanks, isBlank, rfl⟩ := exists_blanks_of_head (head_of_keyClosed closed)
      exact ⟨[], [], blanks, .none isBlank, .nil, .nil, rfl⟩
  | member opened named colon found later =>
      obtain ⟨blanks, isBlank, rfl⟩ := exists_blanks_of_head (head_of_key opened)
      obtain ⟨keyText, isKey, same⟩ := exists_keyText isBlank named colon
      obtain ⟨own, rfl, spelled⟩ := each _ List.mem_cons_self _ _ found
      rw [same]
      exact separated_of_laterMembers later (fun entry member => each entry (by simp [member]))
        isKey spelled

end

/-! ## Values that are read are written -/

theorem eq_append_of_scanWord {word : List Char} {found : Unit}
    (scanned : scanWord word input = .ok (found, rest)) : input = word ++ rest := by
  induction word generalizing input with
  | nil =>
      cases scanned
      rfl
  | cons letter word induction =>
      cases input with
      | nil => cases scanned
      | cons c tail =>
          unfold scanWord at scanned
          split at scanned
          · next same =>
              rw [beq_iff_eq] at same
              rw [← same, induction scanned, List.cons_append]
          · cases scanned

theorem exists_padded {core : List Char} (head : skipSpace input = core ++ rest) :
    ∃ own, input = own ++ rest ∧ Padded core own := by
  obtain ⟨blanks, isBlank, same⟩ := exists_blanks input
  exact ⟨blanks ++ core, by rw [same, head, List.append_assoc],
    (Padded.self core).blanks_append isBlank⟩

theorem exists_spelledBy (found : ValueAt room input value rest) :
    ∃ own, input = own ++ rest ∧ value.SpelledBy own ∧ value.Fits room := by
  induction value generalizing room input rest with
  | null =>
      cases found with
      | null head word =>
          obtain rfl := eq_append_of_scanWord word
          obtain ⟨own, same, padded⟩ := @exists_padded _ _ ['n', 'u', 'l', 'l'] head
          exact ⟨own, same, .null padded, .null⟩
  | flag value =>
      cases found with
      | true head word =>
          obtain rfl := eq_append_of_scanWord word
          obtain ⟨own, same, padded⟩ := @exists_padded _ _ ['t', 'r', 'u', 'e'] head
          exact ⟨own, same, .true padded, .flag true⟩
      | false head word =>
          obtain rfl := eq_append_of_scanWord word
          obtain ⟨own, same, padded⟩ := @exists_padded _ _ ['f', 'a', 'l', 's', 'e'] head
          exact ⟨own, same, .false padded, .flag false⟩
  | number numeral =>
      cases found with
      | negative head number =>
          obtain ⟨core, rfl, unsigned⟩ := unsignedText_of_scanNumber number
          obtain ⟨own, same, padded⟩ := @exists_padded _ _ ('-' :: core) head
          exact ⟨own, same, .number (.negative unsigned) padded, .number numeral⟩
      | natural head isDigit number =>
          obtain ⟨core, behind, unsigned⟩ := unsignedText_of_scanNumber number
          obtain ⟨own, same, padded⟩ := exists_padded (head.trans behind)
          exact ⟨own, same, .number (.unsigned unsigned) padded, .number numeral⟩
  | text string =>
      cases found with
      | text head scanned =>
          obtain ⟨decoded, core, rfl, rfl, spelled⟩ := stringText_of_scanString scanned
          obtain ⟨own, same, padded⟩ :=
            @exists_padded _ rest ('"' :: core ++ ['"']) (by simpa using head)
          exact ⟨own, same, .text (by simpa using spelled) padded, .text _⟩
  | list items induction =>
      cases found with
      | @list room _ start _ _ head items =>
          obtain ⟨pieces, inner, separated, texts, rfl⟩ := separated_of_itemsAt items
            fun item member start after found => by
              obtain ⟨own, same, spelled, _⟩ := induction item member (valueAt_of_run? found)
              exact ⟨own, same, spelled⟩
          obtain ⟨own, same, padded⟩ :=
            @exists_padded _ rest ('[' :: inner ++ [']']) (by simpa using head)
          refine ⟨own, same, .list ⟨separated, padded⟩ texts, .list fun item member => ?_⟩
          obtain ⟨start, after, found⟩ := items.exists_place member
          obtain ⟨_, _, _, fits⟩ := induction item member (valueAt_of_run? found)
          exact fits
  | object entries induction =>
      cases found with
      | @object room _ start _ _ head members =>
          obtain ⟨pieces, texts, inner, separated, layout, spelled, rfl⟩ :=
            separated_of_membersAt members fun entry member start after found => by
              obtain ⟨own, same, spelled, _⟩ := induction entry member (valueAt_of_run? found)
              exact ⟨own, same, spelled⟩
          obtain ⟨own, same, padded⟩ :=
            @exists_padded _ rest ('{' :: inner ++ ['}']) (by simpa using head)
          obtain ⟨keys, each⟩ := forall₂_entries_iff.mp spelled
          refine ⟨own, same, .object ⟨layout, separated, padded⟩ keys each,
            .object fun entry member => ?_⟩
          obtain ⟨start, after, found⟩ := members.exists_place member
          obtain ⟨_, _, _, fits⟩ := induction entry member (valueAt_of_run? found)
          exact fits

/-! ## Whole texts -/

theorem Value.Fits.mono {wider : Nat} (fits : value.Fits room) (le : room ≤ wider) :
    value.Fits wider := by
  induction value generalizing room wider with
  | null => exact .null
  | flag value => exact .flag value
  | number numeral => exact .number numeral
  | text string => exact .text string
  | list items induction =>
      cases fits with
      | list fits =>
          obtain ⟨wider, rfl⟩ : ∃ inner, wider = inner + 1 := ⟨wider - 1, by omega⟩
          exact .list fun item member => induction item member (fits item member) (by omega)
  | object members induction =>
      cases fits with
      | object fits =>
          obtain ⟨wider, rfl⟩ : ∃ inner, wider = inner + 1 := ⟨wider - 1, by omega⟩
          exact .object fun item member => induction item member (fits item member) (by omega)

theorem exists_room (content : α → Value) {entries : List α}
    (each : ∀ entry ∈ entries, ∃ room, (content entry).Fits room) :
    ∃ room, ∀ entry ∈ entries, (content entry).Fits room := by
  induction entries with
  | nil => exact ⟨0, by simp⟩
  | cons entry entries induction =>
      obtain ⟨first, here⟩ := each entry (by simp)
      obtain ⟨others, later⟩ := induction fun entry member => each entry (by simp [member])
      refine ⟨max first others, List.forall_mem_cons.mpr ⟨?_, fun entry member => ?_⟩⟩
      · exact here.mono (Nat.le_max_left _ _)
      · exact (later entry member).mono (Nat.le_max_right _ _)

theorem Value.exists_fits (value : Value) : ∃ room, value.Fits room := by
  induction value with
  | null => exact ⟨0, .null⟩
  | flag value => exact ⟨0, .flag value⟩
  | number numeral => exact ⟨0, .number numeral⟩
  | text string => exact ⟨0, .text string⟩
  | list items induction =>
      obtain ⟨room, fits⟩ := exists_room id induction
      exact ⟨room + 1, .list fits⟩
  | object members induction =>
      obtain ⟨room, fits⟩ := exists_room Prod.snd induction
      exact ⟨room + 1, .object fits⟩

theorem Value.SpelledBy.run? {text : List Char} (spelled : value.SpelledBy text)
    (fits : value.Fits room) :
    ∃ rest, Blanks rest ∧ (Value.read room).run? text = some (value, rest) := by
  obtain ⟨rest, isBlank, found⟩ := spelled.readAs fits [] (by simp [NumberEnds])
  rw [List.append_nil, List.append_nil] at found
  exact ⟨rest, isBlank, found.run?⟩

theorem Value.SpelledBy.unique {other : Value} {text : List Char} (spelled : value.SpelledBy text)
    (also : other.SpelledBy text) : value = other := by
  obtain ⟨first, fits⟩ := value.exists_fits
  obtain ⟨second, otherFits⟩ := other.exists_fits
  obtain ⟨_, _, read⟩ := spelled.run? (fits.mono (Nat.le_max_left first second))
  obtain ⟨_, _, again⟩ := also.run? (otherFits.mono (Nat.le_max_right first second))
  cases read.symm.trans again
  rfl

end LensPath.Json
