import LensPath.Json.Shape.Stream

/-!
Readers as partial functions on texts: what a reader finds and the text after it, without the words
of the error and without the bound on the length. Lists and objects become relations between the
places where their items stand.
-/

namespace LensPath.Json

@[simp] theorem toOption_ok (value : α) :
    (Except.ok value : Except ε α).toOption = some value := rfl

theorem toOption_eq_some_iff {result : Except ε α} {value : α} :
    result.toOption = some value ↔ result = .ok value := by
  cases result <;> simp [Except.toOption]

namespace Reader

/-- What a reader finds, and the text after it; `none` for a text that it refuses. -/
def run? (reader : Reader α) (input : List Char) : Option (α × List Char) :=
  match reader input with
  | .ok read => some (read.value, read.rest)
  | .error _ => none

@[simp] theorem run?_pure (value : α) (input : List Char) :
    run? (pure value) input = some (value, input) := rfl

@[simp] theorem run?_bind (reader : Reader α) (next : α → Reader β) (input : List Char) :
    run? (reader >>= next) input =
      (run? reader input).bind fun found => run? (next found.1) found.2 := by
  simp only [run?, bind]
  cases reader input with
  | error error => rfl
  | ok read =>
      simp only [Option.bind_some]
      cases next read.value read.rest <;> rfl

@[simp] theorem run?_map (f : α → β) (reader : Reader α) (input : List Char) :
    run? (f <$> reader) input = (run? reader input).map fun found => (f found.1, found.2) := by
  change run? (reader >>= fun value => pure (f value)) input = _
  rw [run?_bind]
  cases run? reader input <;> rfl

@[simp] theorem run?_fail (error : Error) (input : List Char) :
    run? (fail error : Reader α) input = none := rfl

@[simp] theorem run?_ofExcept (result : Except Error α) (input : List Char) :
    run? (ofExcept result) input = result.toOption.map (·, input) := by
  cases result <;> rfl

@[simp] theorem run?_advance (c : Char) (rest : List Char) :
    run? advance (c :: rest) = some ((), rest) := rfl

theorem length_le_of_run? {reader : Reader α} {input rest : List Char} {value : α}
    (read : reader.run? input = some (value, rest)) : rest.length ≤ input.length := by
  unfold run? at read
  split at read
  · next found _ =>
      cases read
      exact found.shrinks
  · cases read

theorem run?_ofScan (scan : List Char → Scan α)
    (bounded : ∀ {input rest : List Char} {value : α},
      scan input = .ok (value, rest) → rest.length ≤ input.length) (input : List Char) :
    run? (ofScan scan bounded) input = (scan input).toOption := by
  unfold run? ofScan
  split
  · next found =>
      split at found
      · cases found
      · next scanned =>
          cases found
          exact (congrArg Except.toOption scanned).symm
  · next found =>
      split at found
      · next scanned => exact (congrArg Except.toOption scanned).symm
      · cases found

@[simp] theorem run?_word (letters input : List Char) :
    run? (word letters) input = (scanWord letters input).toOption :=
  run?_ofScan (scanWord letters) scanWord_length_le input

@[simp] theorem run?_number (isNegative : Bool) (input : List Char) :
    run? (number isNegative) input = (scanNumber isNegative input).toOption :=
  run?_ofScan (scanNumber isNegative) scanNumber_length_le input

@[simp] theorem run?_string (input : List Char) :
    run? string input = (scanString [] input).toOption :=
  run?_ofScan (scanString []) scanString_length_le input

@[simp] theorem run?_nextItem (first : Bool) (input : List Char) :
    run? (nextItem first) input = (scanItem first input).toOption := by
  refine run?_ofScan (scanItem first) (fun scanned => ?_) input
  have := scanItem_length_le scanned
  have := first.toNat_le
  omega

@[simp] theorem run?_listEnd (input : List Char) :
    run? listEnd input = (scanListEnd input).toOption :=
  run?_ofScan scanListEnd scanListEnd_length_le input

@[simp] theorem run?_skip (input : List Char) :
    run? skip input = (skipValue input).toOption.map ((), ·) := by
  unfold run? skip ofPass
  split
  · next found =>
      split at found
      · cases found
      · next rest passed =>
          cases found
          exact (congrArg (fun result => (Except.toOption result).map ((), ·)) passed).symm
  · next found =>
      split at found
      · next passed =>
          exact (congrArg (fun result => (Except.toOption result).map ((), ·)) passed).symm
      · cases found

variable {input rest : List Char} {c : Char}

theorem run?_peek (atEnd : Error) (head : skipSpace input = c :: rest) :
    run? (peek atEnd) input = some (c, c :: rest) := by
  unfold run? peek
  split
  · next found =>
      split at found
      · cases found
      · next skipped =>
          rw [head] at skipped
          cases skipped
          cases found
          rfl
  · next found =>
      split at found
      · next skipped =>
          rw [head] at skipped
          cases skipped
      · cases found

theorem run?_peek_bind (atEnd : Error) (next : Char → Reader α)
    (head : skipSpace input = c :: rest) :
    run? (peek atEnd >>= next) input = run? (next c) (c :: rest) := by
  rw [run?_bind, run?_peek atEnd head, Option.bind_some]

theorem run?_peek_bind_nil (atEnd : Error) (next : Char → Reader α)
    (ended : skipSpace input = []) : run? (peek atEnd >>= next) input = none := by
  have missed : run? (peek atEnd) input = none := by
    unfold run? peek
    split
    · next found =>
        split at found
        · cases found
        · next skipped =>
            rw [ended] at skipped
            cases skipped
    · rfl
  rw [run?_bind, missed, Option.bind_none]

@[simp] theorem run?_mistyped (expected : String) (input : List Char) :
    run? (mistyped expected : Reader α) input = none := by
  rw [mistyped, run?_bind]
  cases run? found input <;> rfl

theorem run?_text (head : skipSpace input = c :: rest) :
    run? text input = if c = '"' then (scanString [] rest).toOption else none := by
  rw [text, run?_peek_bind _ _ head]
  split
  · simp
  · next other => rw [if_neg other, run?_mistyped]

theorem run?_flag (head : skipSpace input = c :: rest) :
    run? flag input =
      if c = 't' then ((scanWord ['r', 'u', 'e'] rest).toOption).map fun word => (true, word.2)
      else if c = 'f' then
        ((scanWord ['a', 'l', 's', 'e'] rest).toOption).map fun word => (false, word.2)
      else none := by
  rw [flag, run?_peek_bind _ _ head]
  split
  · cases found : (scanWord ['r', 'u', 'e'] rest).toOption <;> simp [found]
  · cases found : (scanWord ['a', 'l', 's', 'e'] rest).toOption <;> simp [found]
  · next notTrue notFalse => rw [if_neg notTrue, if_neg notFalse, run?_mistyped]

theorem run?_null (head : skipSpace input = c :: rest) :
    run? null input = if c = 'n' then (scanWord ['u', 'l', 'l'] rest).toOption else none := by
  rw [null, run?_peek_bind _ _ head]
  split
  · simp
  · next other => rw [if_neg other, run?_mistyped]

theorem run?_offset (head : skipSpace input = c :: rest) :
    run? offset input =
      if c = '-' then (scanNumber true rest).toOption.bind fun found =>
        found.1.toOffset.toOption.map (·, found.2)
      else if Text.isDigit c then (scanNumber false (c :: rest)).toOption.bind fun found =>
        found.1.toOffset.toOption.map (·, found.2)
      else none := by
  rw [offset, run?_peek_bind _ _ head]
  split
  · simp
  · next other =>
      rw [if_neg other]
      split
      · simp
      · rw [run?_mistyped]

theorem run?_colon (head : skipSpace input = c :: rest) :
    run? colon input = if c = ':' then some ((), rest) else none := by
  rw [colon, run?_peek_bind _ _ head]
  split
  · simp
  · next other => rw [if_neg other, run?_fail]

theorem run?_colon_bind {next : Unit → Reader α} {behind before : List Char}
    (head : skipSpace behind = ':' :: before) :
    run? (colon >>= next) behind = (next ()).run? before := by
  rw [run?_bind, run?_colon head, if_pos rfl, Option.bind_some]

theorem exists_colon {next : Unit → Reader α} {behind : List Char} {found : α × List Char}
    (read : run? (colon >>= next) behind = some found) :
    ∃ before, skipSpace behind = ':' :: before ∧ (next ()).run? before = some found := by
  cases head : skipSpace behind with
  | nil =>
      rw [run?_bind, colon, run?_peek_bind_nil _ _ head] at read
      cases read
  | cons c before =>
      rw [run?_bind, run?_colon head] at read
      split at read
      · next isColon => exact ⟨before, by rw [isColon], read⟩
      · cases read

end Reader

/-! ## Lists -/

section

variable {input rest start : List Char}

theorem head_of_closed {first : Bool} (closed : scanItem first input = .ok (false, rest)) :
    skipSpace input = ']' :: rest := by
  unfold scanItem at closed
  split at closed
  · cases closed
  · next c tail head =>
      split at closed
      · next isEnd =>
          cases closed
          rw [head, beq_iff_eq.mp isEnd]
      · split at closed
        · cases closed
        · split at closed
          · split at closed <;> cases closed
          · cases closed

theorem head_of_opened (opened : scanItem true input = .ok (true, start)) :
    ∃ c tail, start = c :: tail ∧ skipSpace input = c :: tail ∧ c ≠ ']' := by
  unfold scanItem at opened
  split at opened
  · cases opened
  · next c tail head =>
      split at opened
      · cases opened
      · next noEnd =>
          cases opened
          exact ⟨c, tail, rfl, head, by simpa using noEnd⟩

theorem head_of_comma (opened : scanItem false input = .ok (true, start)) :
    skipSpace input = ',' :: start := by
  unfold scanItem at opened
  split at opened
  · cases opened
  · next c tail head =>
      simp only [Bool.false_eq_true, ↓reduceIte] at opened
      split at opened
      · cases opened
      · split at opened
        · next isComma =>
            split at opened
            · cases opened
            · cases opened
            · cases opened
              rw [head, beq_iff_eq.mp isComma]
        · cases opened

end

/-- The items of a list from some place in it on, each at a place of its own. -/
inductive ItemsAt (place : List Char → α → List Char → Prop) :
    Bool → List Char → List α → List Char → Prop
  | finish {first : Bool} {input rest : List Char}
      (closed : scanItem first input = .ok (false, rest)) : ItemsAt place first input [] rest
  | item {first : Bool} {input start after rest : List Char} {value : α} {values : List α}
      (opened : scanItem first input = .ok (true, start)) (found : place start value after)
      (later : ItemsAt place false after values rest) :
      ItemsAt place first input (value :: values) rest

theorem run?_itemsFrom (item : Reader α) (first : Bool) (input : List Char) :
    Reader.run? (itemsFrom item first) input =
      (scanItem first input).toOption.bind fun next =>
        if next.1 then
          (item.run? next.2).bind fun found =>
            (Reader.run? (itemsFrom item false) found.2).map fun later =>
              (found.1 :: later.1, later.2)
        else some ([], next.2) := by
  conv => lhs; unfold Reader.run? itemsFrom
  split
  · next found =>
      split at found
      · cases found
      · next scanned =>
          cases found
          simp [scanned, Except.toOption]
      · next scanned =>
          simp only [scanned, Except.toOption, Option.bind_some, Reader.run?]
          split at found
          · cases found
          · next read =>
              split at found
              · cases found
              · next later =>
                  cases found
                  simp [read, later]
  · next found =>
      split at found
      · next scanned => simp [scanned, Except.toOption]
      · cases found
      · next scanned =>
          simp only [scanned, Except.toOption, Option.bind_some, Reader.run?]
          split at found
          · next read => simp [read]
          · next read =>
              split at found
              · next later => simp [read, later]
              · cases found

theorem run?_itemsFrom_of_closed (item : Reader α) {first : Bool} {input rest : List Char}
    (closed : scanItem first input = .ok (false, rest)) :
    Reader.run? (itemsFrom item first) input = some ([], rest) := by
  rw [run?_itemsFrom, closed]
  rfl

theorem run?_itemsFrom_of_opened (item : Reader α) {first : Bool} {input start : List Char}
    (opened : scanItem first input = .ok (true, start)) :
    Reader.run? (itemsFrom item first) input =
      (item.run? start).bind fun found =>
        (Reader.run? (itemsFrom item false) found.2).map fun later =>
          (found.1 :: later.1, later.2) := by
  rw [run?_itemsFrom, opened]
  rfl

/-- Where a list stands for one reader, another reader that agrees with it on the items finds what
the items stand for. -/
theorem ItemsAt.run?_eq {place : List Char → α → List Char → Prop} {item : Reader β}
    {f : α → Option β} {first : Bool} {input rest : List Char} {values : List α}
    (items : ItemsAt place first input values rest)
    (agrees : ∀ start value after, place start value after →
      item.run? start = (f value).map (·, after)) :
    Reader.run? (itemsFrom item first) input = (values.mapM f).map (·, rest) := by
  induction items with
  | finish closed =>
      rw [run?_itemsFrom_of_closed item closed]
      rfl
  | @item _ _ _ _ _ value values opened found _ induction =>
      rw [run?_itemsFrom_of_opened item opened, agrees _ _ _ found, List.mapM_cons]
      cases f value with
      | none => rfl
      | some one =>
          simp only [Option.map_some, Option.bind_some, induction]
          cases values.mapM f <;> rfl

theorem run?_itemsFrom_cases {item : Reader α} {first : Bool} {input rest : List Char}
    {values : List α} (read : Reader.run? (itemsFrom item first) input = some (values, rest)) :
    (scanItem first input = .ok (false, rest) ∧ values = []) ∨
      ∃ start value after others, scanItem first input = .ok (true, start) ∧
        item.run? start = some (value, after) ∧
        Reader.run? (itemsFrom item false) after = some (others, rest) ∧
        values = value :: others := by
  cases scanned : scanItem first input with
  | error error =>
      rw [run?_itemsFrom, scanned] at read
      cases read
  | ok next =>
      obtain ⟨more, start⟩ := next
      cases more with
      | false =>
          rw [run?_itemsFrom_of_closed item scanned] at read
          cases read
          exact .inl ⟨rfl, rfl⟩
      | true =>
          rw [run?_itemsFrom_of_opened item scanned] at read
          obtain ⟨⟨value, after⟩, found, read⟩ := Option.bind_eq_some_iff.mp read
          obtain ⟨⟨others, behind⟩, later, same⟩ := Option.map_eq_some_iff.mp read
          cases same
          exact .inr ⟨start, value, after, others, rfl, found, later, rfl⟩

theorem itemsAt_of_run? {item : Reader α} {first : Bool} {input rest : List Char}
    {values : List α} (read : Reader.run? (itemsFrom item first) input = some (values, rest)) :
    ItemsAt (fun start value after => item.run? start = some (value, after)) first input values
      rest := by
  induction values generalizing first input with
  | nil =>
      rcases run?_itemsFrom_cases read with ⟨closed, _⟩ | ⟨_, _, _, _, _, _, _, contra⟩
      · exact .finish closed
      · cases contra
  | cons value values induction =>
      rcases run?_itemsFrom_cases read with ⟨_, contra⟩ | ⟨_, _, _, _, opened, found, later, same⟩
      · cases contra
      · cases same
        exact .item opened found (induction later)

theorem ItemsAt.exists_of_places {place : List Char → α → List Char → Prop}
    {other : List Char → β → List Char → Prop} {first : Bool} {input rest : List Char}
    {values : List α} (items : ItemsAt place first input values rest)
    (each : ∀ start value after, place start value after → ∃ found, other start found after) :
    ∃ others, ItemsAt other first input others rest := by
  induction items with
  | finish closed => exact ⟨[], .finish closed⟩
  | item opened found _ induction =>
      obtain ⟨one, placed⟩ := each _ _ _ found
      obtain ⟨others, later⟩ := induction
      exact ⟨one :: others, .item opened placed later⟩

theorem ItemsAt.exists_place {place : List Char → α → List Char → Prop} {first : Bool}
    {input rest : List Char} {values : List α} {value : α}
    (items : ItemsAt place first input values rest) (member : value ∈ values) :
    ∃ start after, place start value after := by
  induction items with
  | finish _ => cases member
  | item _ found _ induction =>
      rcases List.mem_cons.mp member with rfl | member
      · exact ⟨_, _, found⟩
      · exact induction member

/-! ## Objects -/

section

variable {input rest start : List Char}

theorem head_of_keyClosed {first : Bool} (closed : scanKey first input = .ok (false, rest)) :
    skipSpace input = '}' :: rest := by
  unfold scanKey at closed
  split at closed
  · cases closed
  · next c tail head =>
      split at closed
      · next isEnd =>
          cases closed
          rw [head, beq_iff_eq.mp isEnd]
      · split at closed
        · split at closed <;> cases closed
        · split at closed
          · split at closed <;> cases closed
          · cases closed

theorem head_of_key (opened : scanKey true input = .ok (true, start)) :
    skipSpace input = '"' :: start := by
  unfold scanKey at opened
  split at opened
  · cases opened
  · next c tail head =>
      simp only [↓reduceIte] at opened
      split at opened
      · cases opened
      · split at opened
        · next isQuote =>
            cases opened
            rw [head, beq_iff_eq.mp isQuote]
        · cases opened

theorem head_of_laterKey (opened : scanKey false input = .ok (true, start)) :
    ∃ behind, skipSpace input = ',' :: behind ∧ skipSpace behind = '"' :: start := by
  unfold scanKey at opened
  split at opened
  · cases opened
  · next c tail head =>
      simp only [Bool.false_eq_true, ↓reduceIte] at opened
      split at opened
      · cases opened
      · split at opened
        · next isComma =>
            split at opened
            · cases opened
            · next quoted =>
                cases opened
                exact ⟨tail, by rw [head, beq_iff_eq.mp isComma], quoted⟩
            · cases opened
            · cases opened
        · cases opened

end

/-- The members of an object from some place in it on, each value at a place of its own behind its
key and a colon. -/
inductive MembersAt (place : List Char → α → List Char → Prop) :
    Bool → List Char → List (String × α) → List Char → Prop
  | finish {first : Bool} {input rest : List Char}
      (closed : scanKey first input = .ok (false, rest)) : MembersAt place first input [] rest
  | member {first : Bool} {input start behind before after rest : List Char} {key : String}
      {value : α} {members : List (String × α)}
      (opened : scanKey first input = .ok (true, start))
      (named : scanString [] start = .ok (key, behind))
      (colon : skipSpace behind = ':' :: before) (found : place before value after)
      (later : MembersAt place false after members rest) :
      MembersAt place first input ((key, value) :: members) rest

theorem MembersAt.exists_of_places {place : List Char → α → List Char → Prop}
    {other : List Char → β → List Char → Prop} {first : Bool} {input rest : List Char}
    {members : List (String × α)} (object : MembersAt place first input members rest)
    (each : ∀ start value after, place start value after → ∃ found, other start found after) :
    ∃ others, MembersAt other first input others rest := by
  induction object with
  | finish closed => exact ⟨[], .finish closed⟩
  | member opened named colon found _ induction =>
      obtain ⟨one, placed⟩ := each _ _ _ found
      obtain ⟨others, later⟩ := induction
      exact ⟨_, .member opened named colon placed later⟩

theorem run?_membersFrom (member : String → σ → Reader σ) (first : Bool) (state : σ)
    (input : List Char) :
    Reader.run? (membersFrom member first state) input =
      (scanKey first input).toOption.bind fun next =>
        if next.1 then
          (scanString [] next.2).toOption.bind fun key =>
            ((member key.1 state).run? key.2).bind fun found =>
              Reader.run? (membersFrom member false found.1) found.2
        else some (state, next.2) := by
  simp only [← Reader.run?_string]
  conv => lhs; unfold Reader.run? membersFrom
  split
  · next found =>
      split at found
      · cases found
      · next scanned =>
          cases found
          simp [scanned, Except.toOption]
      · next scanned =>
          simp only [scanned, Except.toOption, Option.bind_some, Reader.run?]
          split at found
          · cases found
          · next key =>
              split at found
              · cases found
              · next read =>
                  split at found
                  · cases found
                  · next later =>
                      cases found
                      simp [key, read, later]
  · next found =>
      split at found
      · next scanned => simp [scanned, Except.toOption]
      · cases found
      · next scanned =>
          simp only [scanned, Except.toOption, Option.bind_some, Reader.run?]
          split at found
          · next key => simp [key]
          · next key =>
              split at found
              · next read => simp [key, read]
              · next read =>
                  split at found
                  · next later => simp [key, read, later]
                  · cases found

theorem run?_membersFrom_of_closed (member : String → σ → Reader σ) (state : σ) {first : Bool}
    {input rest : List Char} (closed : scanKey first input = .ok (false, rest)) :
    Reader.run? (membersFrom member first state) input = some (state, rest) := by
  rw [run?_membersFrom, closed]
  rfl

theorem run?_membersFrom_of_opened (member : String → σ → Reader σ) (state : σ) {first : Bool}
    {input start behind : List Char} {key : String}
    (opened : scanKey first input = .ok (true, start))
    (named : scanString [] start = .ok (key, behind)) :
    Reader.run? (membersFrom member first state) input =
      ((member key state).run? behind).bind fun found =>
        Reader.run? (membersFrom member false found.1) found.2 := by
  rw [run?_membersFrom, opened]
  change (scanString [] start).toOption.bind _ = _
  rw [named]
  rfl

theorem MembersAt.run?_eq {place : List Char → α → List Char → Prop}
    {member : String → σ → Reader σ} {step : String → α → σ → Option σ} {first : Bool}
    {input rest : List Char} {members : List (String × α)}
    (object : MembersAt place first input members rest)
    (agrees : ∀ key behind before value after state, skipSpace behind = ':' :: before →
      place before value after →
      (member key state).run? behind = (step key value state).map (·, after)) (state : σ) :
    Reader.run? (membersFrom member first state) input =
      (members.foldlM (fun state entry => step entry.1 entry.2 state) state).map (·, rest) := by
  induction object generalizing state with
  | finish closed =>
      rw [run?_membersFrom_of_closed member state closed]
      rfl
  | @member _ _ _ _ _ _ _ key value _ opened named colon found _ induction =>
      rw [run?_membersFrom_of_opened member state opened named,
        agrees _ _ _ _ _ _ colon found, List.foldlM_cons]
      cases step key value state with
      | none => rfl
      | some next => exact induction next

theorem run?_member (item : Reader α) {key : String} {collected : List (String × α)}
    {behind before : List Char} (colon : skipSpace behind = ':' :: before) :
    (Reader.member item key collected).run? behind =
      (item.run? before).map fun found => ((key, found.1) :: collected, found.2) := by
  rw [Reader.member, Reader.run?_colon_bind colon, Reader.run?_bind]
  cases item.run? before <;> rfl

theorem exists_of_run?_member {item : Reader α} {key : String}
    {collected final : List (String × α)} {behind after : List Char}
    (read : (Reader.member item key collected).run? behind = some (final, after)) :
    ∃ before value, skipSpace behind = ':' :: before ∧
      item.run? before = some (value, after) := by
  obtain ⟨before, colon, found⟩ := Reader.exists_colon read
  rw [Reader.run?_bind] at found
  obtain ⟨⟨value, ended⟩, placed, same⟩ := Option.bind_eq_some_iff.mp found
  cases same
  exact ⟨before, value, colon, placed⟩

theorem foldlM_collect (f : α → Option β) (members : List (String × α))
    (collected : List (String × β)) :
    members.foldlM (fun collected entry => (f entry.2).map fun found =>
        (entry.1, found) :: collected) collected =
      (members.mapM fun entry => (f entry.2).map (entry.1, ·)).map (·.reverse ++ collected) := by
  induction members generalizing collected with
  | nil => rfl
  | cons entry members induction =>
      rw [List.foldlM_cons, List.mapM_cons]
      cases f entry.2 with
      | none => rfl
      | some found =>
          simp only [Option.map_some, Option.bind_eq_bind, Option.bind_some, induction]
          cases members.mapM fun entry => (f entry.2).map (entry.1, ·) <;> simp

theorem MembersAt.run?_members {place : List Char → α → List Char → Prop} {item : Reader β}
    {f : α → Option β} {input rest : List Char} {members : List (String × α)}
    (object : MembersAt place true input members rest)
    (agrees : ∀ start value after, place start value after →
      item.run? start = (f value).map (·, after)) :
    (Reader.members (Reader.member item) []).run? input =
      (members.mapM fun entry => (f entry.2).map (entry.1, ·)).map (·.reverse, rest) := by
  have collects : ∀ key behind before value after (collected : List (String × β)),
      skipSpace behind = ':' :: before → place before value after →
      (Reader.member item key collected).run? behind =
        ((f value).map fun found => (key, found) :: collected).map (·, after) := by
    intro key behind before value after collected colon found
    rw [run?_member item colon, agrees _ _ _ found]
    cases f value <;> rfl
  refine (object.run?_eq collects []).trans ?_
  rw [foldlM_collect f members []]
  simp [Function.comp_def]

theorem MembersAt.exists_place {place : List Char → α → List Char → Prop} {first : Bool}
    {input rest : List Char} {members : List (String × α)} {entry : String × α}
    (object : MembersAt place first input members rest) (member : entry ∈ members) :
    ∃ start after, place start entry.2 after := by
  induction object with
  | finish _ => cases member
  | member _ _ _ found _ induction =>
      rcases List.mem_cons.mp member with rfl | member
      · exact ⟨_, _, found⟩
      · exact induction member

theorem run?_membersFrom_cases {member : String → σ → Reader σ} {first : Bool} {state final : σ}
    {input rest : List Char}
    (read : Reader.run? (membersFrom member first state) input = some (final, rest)) :
    scanKey first input = .ok (false, rest) ∨
      ∃ start key behind next after, scanKey first input = .ok (true, start) ∧
        scanString [] start = .ok (key, behind) ∧
        (member key state).run? behind = some (next, after) ∧
        Reader.run? (membersFrom member false next) after = some (final, rest) := by
  rw [run?_membersFrom] at read
  cases scanned : scanKey first input with
  | error error =>
      rw [scanned] at read
      cases read
  | ok opened =>
      obtain ⟨more, start⟩ := opened
      rw [scanned] at read
      cases more with
      | false =>
          cases read
          exact .inl rfl
      | true =>
          change (scanString [] start).toOption.bind _ = _ at read
          cases named : scanString [] start with
          | error error =>
              rw [named] at read
              cases read
          | ok found =>
              obtain ⟨key, behind⟩ := found
              rw [named] at read
              change ((member key state).run? behind).bind _ = _ at read
              obtain ⟨⟨next, after⟩, found, later⟩ := Option.bind_eq_some_iff.mp read
              exact .inr ⟨start, key, behind, next, after, rfl, named, found, later⟩

theorem exists_membersAt {place : List Char → α → List Char → Prop}
    {member : String → σ → Reader σ} {first : Bool} {state final : σ} {input rest : List Char}
    (each : ∀ key state behind next after, (member key state).run? behind = some (next, after) →
      ∃ before value, skipSpace behind = ':' :: before ∧ place before value after)
    (read : Reader.run? (membersFrom member first state) input = some (final, rest)) :
    ∃ members, MembersAt place first input members rest := by
  -- On the length: what is left behind a member is shorter than the text before its key.
  induction length : input.length using Nat.strongRecOn generalizing first state input with
  | ind size induction =>
      rcases run?_membersFrom_cases read with
        closed | ⟨start, key, behind, next, after, opened, named, found, later⟩
      · exact ⟨[], .finish closed⟩
      · obtain ⟨before, value, colon, placed⟩ := each key state behind next after found
        have := scanKey_length_lt opened
        have := scanString_length_le named
        have := Reader.length_le_of_run? found
        obtain ⟨members, object⟩ := induction after.length (by omega) later rfl
        exact ⟨(key, value) :: members, .member opened named colon placed object⟩

/-! ## Whole texts -/

theorem decode_eq_ok_iff {shape : Shape α} {text : String} {value : α} :
    decode shape text = .ok value ↔
      ∃ rest, (shape.read maxDepth).run? text.toList = some (value, rest) ∧
        skipSpace rest = [] := by
  unfold decode Reader.run?
  split
  · next failed => simp [failed]
  · next read found =>
      simp only [found, List.isEmpty_iff]
      constructor
      · intro decoded
        split at decoded
        · next ended =>
            cases decoded
            exact ⟨read.rest, rfl, ended⟩
        · cases decoded
      · rintro ⟨rest, same, ended⟩
        cases same
        rw [if_pos ended]

end LensPath.Json
