import LensPath.Proofs.Json.Stream

/-!
Shapes that pass nothing over: what they are read from is the text of a value.
-/

namespace LensPath.Json

variable {room : Nat} {input start rest : List Char}

mutual

/-- A shape with which every value in a text is read. Records pass over what they do not know. -/
def Shape.ReadsAll : Shape α → Prop
  | .text | .flag | .offset | .choice _ => True
  | .list item => item.ReadsAll
  | .table entry => entry.ReadsAll
  | .record .. => False
  | .split _ direct _ _ => direct.ReadsAll

def Members.ReadsAll : Members σ γ → Prop
  | .nil => True
  | .member _ shape _ rest => shape.ReadsAll ∧ rest.ReadsAll

end

def Valid (reader : Nat → Reader α) : Prop :=
  ∀ {room : Nat} {input rest : List Char} {found : α},
    (reader room).run? input = some (found, rest) → ∃ value, ValueAt room input value rest

/-! ## Scalars -/

theorem exists_head {next : Char → Reader α} {atEnd : Error} {found : α × List Char}
    (read : (Reader.peek atEnd >>= next).run? input = some found) :
    ∃ c start, skipSpace input = c :: start ∧ (next c).run? (c :: start) = some found := by
  cases head : skipSpace input with
  | nil =>
      rw [Reader.run?_peek_bind_nil _ _ head] at read
      cases read
  | cons c start =>
      rw [Reader.run?_peek_bind _ _ head] at read
      exact ⟨c, start, rfl, read⟩

theorem valid_text : Valid fun _ => Reader.text := by
  intro room input rest found read
  obtain ⟨c, start, head, _⟩ := exists_head read
  rw [Reader.run?_text head, Option.ite_none_right_eq_some] at read
  obtain ⟨rfl, scanned⟩ := read
  exact ⟨_, .text head (toOption_eq_some_iff.mp scanned)⟩

theorem valid_flag : Valid fun _ => Reader.flag := by
  intro room input rest found read
  obtain ⟨c, start, head, _⟩ := exists_head read
  rw [Reader.run?_flag head] at read
  split at read
  · next isTrue =>
      obtain ⟨word, scanned, same⟩ := Option.map_eq_some_iff.mp read
      cases same
      exact ⟨_, .true (isTrue ▸ head) (toOption_eq_some_iff.mp scanned)⟩
  · split at read
    · next isFalse =>
        obtain ⟨word, scanned, same⟩ := Option.map_eq_some_iff.mp read
        cases same
        exact ⟨_, .false (isFalse ▸ head) (toOption_eq_some_iff.mp scanned)⟩
    · cases read

theorem valid_offset : Valid fun _ => Reader.offset := by
  intro room input rest found read
  obtain ⟨c, start, head, _⟩ := exists_head read
  rw [Reader.run?_offset head] at read
  split at read
  · next isMinus =>
      obtain ⟨number, scanned, offset⟩ := Option.bind_eq_some_iff.mp read
      obtain ⟨_, _, same⟩ := Option.map_eq_some_iff.mp offset
      cases same
      exact ⟨_, .negative (isMinus ▸ head) (toOption_eq_some_iff.mp scanned)⟩
  · split at read
    · next isDigit =>
        obtain ⟨number, scanned, offset⟩ := Option.bind_eq_some_iff.mp read
        obtain ⟨_, _, same⟩ := Option.map_eq_some_iff.mp offset
        cases same
        exact ⟨_, .natural head isDigit (toOption_eq_some_iff.mp scanned)⟩
    · cases read

theorem Valid.exists_read {reader : Nat → Reader α} (valid : Valid reader) (room : Nat) :
    ∀ start found after, (reader room).run? start = some (found, after) →
      ∃ value, (Value.read room).run? start = some (value, after) := by
  intro start found after read
  obtain ⟨value, placed⟩ := valid read
  exact ⟨value, placed.run?⟩

theorem valid_null : Valid fun _ => Reader.null := by
  intro room input rest found read
  obtain ⟨c, start, head, _⟩ := exists_head read
  rw [Reader.run?_null head, Option.ite_none_right_eq_some] at read
  obtain ⟨rfl, scanned⟩ := read
  exact ⟨_, .null head (toOption_eq_some_iff.mp scanned)⟩

theorem valid_choice (options : List (String × α)) : Valid (Reader.choice options) := by
  intro room input rest found read
  obtain ⟨c, start, head, dispatched⟩ := exists_head read
  split at dispatched
  · simp only [Reader.run?_bind, Reader.run?_advance, Option.bind_some, Reader.run?_string,
      Reader.run?_ofExcept] at dispatched
    obtain ⟨name, scanned, chosen⟩ := Option.bind_eq_some_iff.mp dispatched
    obtain ⟨_, _, same⟩ := Option.map_eq_some_iff.mp chosen
    cases same
    exact ⟨_, .text head (toOption_eq_some_iff.mp scanned)⟩
  · cases room with
    | zero => cases dispatched
    | succ room =>
        -- An object that chooses has one key, with `null` behind it, and nothing else.
        rw [Reader.enter, Reader.run?_bind, Reader.run?_advance, Option.bind_some] at dispatched
        obtain ⟨c, key, quoted, entered⟩ := exists_head dispatched
        split at entered
        · rw [Reader.run?_bind, Reader.run?_advance, Option.bind_some, Reader.run?_bind,
            Reader.run?_string] at entered
          obtain ⟨⟨name, behind⟩, scanned, named⟩ := Option.bind_eq_some_iff.mp entered
          rw [Reader.run?_bind, Reader.run?_ofExcept] at named
          obtain ⟨_, chosen, known⟩ := Option.bind_eq_some_iff.mp named
          obtain ⟨_, _, rfl⟩ := Option.map_eq_some_iff.mp chosen
          obtain ⟨before, colon, separated⟩ := Reader.exists_colon known
          rw [Reader.run?_bind] at separated
          obtain ⟨⟨_, after⟩, isNull, nulled⟩ := Option.bind_eq_some_iff.mp separated
          obtain ⟨value, placed⟩ := @valid_null room _ _ _ isNull
          obtain ⟨c, tail, closed, ended⟩ := exists_head nulled
          split at ended
          · cases ended
            have opened := scanKey_first quoted
            have finished : scanKey false after = .ok (false, tail) := by simp [scanKey, closed]
            exact ⟨_, .object head (.member opened (toOption_eq_some_iff.mp scanned) colon
              placed.run? (.finish finished))⟩
          · cases ended
        · cases entered
        · cases entered
  · cases dispatched

/-! ## Lists and objects -/

theorem valid_listOf {reader : Nat → Reader α} (each : Valid reader) :
    Valid (Reader.listOf reader) := by
  intro room input rest found read
  obtain ⟨c, start, head, dispatched⟩ := exists_head read
  split at dispatched
  · cases room with
    | zero => cases dispatched
    | succ room =>
        rw [Reader.enter, Reader.run?_bind, Reader.run?_advance, Option.bind_some] at dispatched
        obtain ⟨items, list⟩ :=
          (itemsAt_of_run? dispatched).exists_of_places (each.exists_read room)
        exact ⟨_, .list head list⟩
  · rw [Reader.run?_mistyped] at dispatched
    cases dispatched

theorem valid_tableOf {reader : Nat → Reader α} (each : Valid reader) :
    Valid (Reader.tableOf reader) := by
  intro room input rest found read
  obtain ⟨c, start, head, dispatched⟩ := exists_head read
  split at dispatched
  · cases room with
    | zero => cases dispatched
    | succ room =>
        rw [Reader.enter, Reader.run?_bind, Reader.run?_advance, Option.bind_some,
          Reader.run?_map] at dispatched
        obtain ⟨collected, entered, same⟩ := Option.map_eq_some_iff.mp dispatched
        cases same
        obtain ⟨members, object⟩ :=
          (membersAt_of_run? entered).exists_of_places (each.exists_read room)
        exact ⟨_, .object head object⟩
  · rw [Reader.run?_mistyped] at dispatched
    cases dispatched

def ValidKeys (members : Members σ γ) : Prop :=
  ∀ {room : Nat} {key : String} {seen next : σ} {behind after : List Char} {reader : Reader σ},
    members.readMember room key seen = some reader → reader.run? behind = some (next, after) →
    ∃ before value, skipSpace behind = ':' :: before ∧
      (Value.read room).run? before = some (value, after)

theorem validKeys_nil : ValidKeys Members.nil := by
  intro _ _ _ _ _ _ _ known
  cases known

theorem validKeys_member {key : String} {shape : Shape α} {fallback : Option α}
    {rest : Members σ γ} (first : Valid shape.read) (later : ValidKeys rest) :
    ValidKeys (Members.member key shape fallback rest) := by
  intro room name ⟨seen, others⟩ next behind after reader known read
  cases same : key == name with
  | true =>
      cases seen with
      | some _ =>
          rw [Members.readMember, if_pos same] at known
          cases known
          cases read
      | none =>
          rw [Members.readMember, if_pos same] at known
          cases known
          obtain ⟨before, colon, found⟩ := Reader.exists_colon read
          rw [Reader.run?_bind] at found
          obtain ⟨⟨value, ended⟩, placed, same⟩ := Option.bind_eq_some_iff.mp found
          cases same
          obtain ⟨value, valid⟩ := first.exists_read room _ _ _ placed
          exact ⟨before, value, colon, valid⟩
  | false =>
      rw [readMember_of_ne room same] at known
      obtain ⟨inner, found, rfl⟩ := Option.map_eq_some_iff.mp known
      rw [Reader.run?_map] at read
      obtain ⟨⟨final, ended⟩, placed, same⟩ := Option.map_eq_some_iff.mp read
      cases same
      exact later found placed

theorem ValidKeys.exists_place_of_split {direct : Members σ γ} (keys : ValidKeys direct)
    {key : String} {state next : σ × List (String × Value)} {behind after : List Char}
    (read : (((direct.readMember room key state.1).map fun reader =>
        (·, state.2) <$> reader).getD
      ((state.1, ·) <$> Reader.member (Value.read room) key state.2)).run? behind =
        some (next, after)) :
    ∃ before value, skipSpace behind = ':' :: before ∧
      (Value.read room).run? before = some (value, after) := by
  cases known : direct.readMember room key state.1 with
  | some reader =>
      rw [known, Option.map_some, Option.getD_some, Reader.run?_map] at read
      obtain ⟨⟨final, ended⟩, placed, same⟩ := Option.map_eq_some_iff.mp read
      cases same
      exact keys known placed
  | none =>
      rw [known, Option.map_none, Option.getD_none, Reader.run?_map] at read
      obtain ⟨⟨final, ended⟩, placed, same⟩ := Option.map_eq_some_iff.mp read
      cases same
      exact exists_of_run?_member placed

theorem valid_split {direct : Members σ γ} (keys : ValidKeys direct) (name : String)
    (kept : Members ρ δ) (build : γ → δ → α) :
    Valid (Shape.split name direct kept build).read := by
  intro room input rest found read
  rw [Shape.read] at read
  obtain ⟨c, start, head, dispatched⟩ := exists_head read
  split at dispatched
  · cases room with
    | zero => cases dispatched
    | succ room =>
        rw [Reader.run?_bind] at dispatched
        obtain ⟨⟨state, behind⟩, entered, completed⟩ := Option.bind_eq_some_iff.mp dispatched
        have ended : behind = rest := by
          rw [Reader.run?_bind, Reader.run?_ofExcept] at completed
          obtain ⟨_, values, built⟩ := Option.bind_eq_some_iff.mp completed
          obtain ⟨_, _, rfl⟩ := Option.map_eq_some_iff.mp values
          rw [Reader.run?_map, Reader.run?_ofExcept] at built
          obtain ⟨_, others, same⟩ := Option.map_eq_some_iff.mp built
          obtain ⟨_, _, rfl⟩ := Option.map_eq_some_iff.mp others
          cases same
          rfl
        rw [ended, Reader.objectOf, Reader.enter, Reader.run?_bind, Reader.run?_advance,
          Option.bind_some] at entered
        obtain ⟨members, object⟩ :=
          exists_membersAt (fun _ _ _ _ _ => keys.exists_place_of_split) entered
        exact ⟨_, .object head object⟩
  · rw [Reader.run?_mistyped] at dispatched
    cases dispatched

/-! ## All shapes -/

mutual

theorem valid_of_readsAll : ∀ {α : Type} (shape : Shape α), shape.ReadsAll → Valid shape.read
  | _, .text, _ => by simpa only [Shape.read] using valid_text
  | _, .flag, _ => by simpa only [Shape.read] using valid_flag
  | _, .offset, _ => by simpa only [Shape.read] using valid_offset
  | _, .choice options, _ => by simpa only [Shape.read] using valid_choice options
  | _, .list item, reads => by
      simpa only [Shape.read] using valid_listOf (valid_of_readsAll item reads)
  | _, .table entry, reads => by
      simpa only [Shape.read] using valid_tableOf (valid_of_readsAll entry reads)
  | _, .split name direct kept build, reads =>
      valid_split (validKeys_of_readsAll direct reads) name kept build

theorem validKeys_of_readsAll : ∀ {σ γ : Type} (members : Members σ γ), members.ReadsAll →
    ValidKeys members
  | _, _, .nil, _ => validKeys_nil
  | _, _, .member _ shape _ rest, reads =>
      validKeys_member (valid_of_readsAll shape reads.1) (validKeys_of_readsAll rest reads.2)

end

/-- With a shape that passes nothing over, a text is only read if it says a value, and then as what
that value means. -/
theorem exists_value_of_decode {shape : Shape α} (reads : shape.ReadsAll) {text : List Char}
    {found : α} (decoded : decode shape (String.ofList text) = .ok found) :
    ∃ value : Value, value.SpelledBy text ∧ value.Fits maxDepth ∧
      shape.meaning value = some found := by
  obtain ⟨rest, read, ended⟩ := decode_eq_ok_iff.mp decoded
  rw [String.toList_ofList] at read
  obtain ⟨value, placed⟩ := valid_of_readsAll shape reads read
  obtain ⟨own, rfl, spelled, fits⟩ := exists_spelledBy placed
  obtain ⟨blanks, isBlank, same⟩ := exists_blanks rest
  rw [ended, List.append_nil] at same
  subst same
  have whole := spelled.append_blanks isBlank
  exact ⟨value, whole, fits, meaning_of_decode whole fits decoded⟩

end LensPath.Json
