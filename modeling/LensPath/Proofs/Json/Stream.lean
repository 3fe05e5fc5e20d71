import LensPath.Proofs.Json.Meaning
import LensPath.Proofs.Json.Skip
import LensPath.Proofs.Json.Written

/-!
Reading a value of a shape as the text goes by: where the text says a value, the reader of a shape
finds what the value means for the shape.
-/

namespace LensPath.Json

variable {room : Nat} {input start rest : List Char} {value : Value}

/-- Where a value can be read, a reader finds what the value means. -/
def Follows (reader : Nat → Reader α) (meaning : Value → Option α) : Prop :=
  ∀ {room : Nat} {input rest : List Char} {value : Value},
    (Value.read room).run? input = some (value, rest) →
    (reader room).run? input = (meaning value).map (·, rest)

/-! ## Scalars -/

theorem follows_text : Follows (fun _ => Reader.text) Shape.text.meaning := by
  intro room input rest value read
  rw [Shape.meaning.eq_def]
  cases valueAt_of_run? read with
  | text head scanned =>
      rw [Reader.run?_text head, if_pos rfl, scanned]
      rfl
  | natural head isDigit _ =>
      rw [Reader.run?_text head, if_neg (by rintro rfl; cases isDigit)]
      rfl
  | null head _ | true head _ | false head _ | negative head _ | list head _ | object head _ =>
      rw [Reader.run?_text head, if_neg (by decide)]
      rfl

theorem follows_flag : Follows (fun _ => Reader.flag) Shape.flag.meaning := by
  intro room input rest value read
  rw [Shape.meaning.eq_def]
  cases valueAt_of_run? read with
  | true head word | false head word =>
      rw [Reader.run?_flag head]
      simp [word, Except.toOption]
  | natural head isDigit _ =>
      rw [Reader.run?_flag head, if_neg (by rintro rfl; cases isDigit),
        if_neg (by rintro rfl; cases isDigit)]
      rfl
  | null head _ | text head _ | negative head _ | list head _ | object head _ =>
      rw [Reader.run?_flag head, if_neg (by decide), if_neg (by decide)]
      rfl

theorem follows_offset : Follows (fun _ => Reader.offset) Shape.offset.meaning := by
  intro room input rest value read
  rw [Shape.meaning.eq_def]
  cases valueAt_of_run? read with
  | negative head number =>
      rw [Reader.run?_offset head, if_pos rfl, number]
      rfl
  | natural head isDigit number =>
      rw [Reader.run?_offset head, if_neg (by rintro rfl; cases isDigit), if_pos isDigit, number]
      rfl
  | null head _ | true head _ | false head _ | text head _ | list head _ | object head _ =>
      rw [Reader.run?_offset head, if_neg (by decide), if_neg (by decide)]
      rfl

theorem run?_null_of_read (read : (Value.read room).run? input = some (value, rest)) :
    Reader.null.run? input = match value with
      | .null => some ((), rest)
      | _ => none := by
  cases valueAt_of_run? read with
  | null head word =>
      rw [Reader.run?_null head, if_pos rfl, word]
      rfl
  | natural head isDigit _ => rw [Reader.run?_null head, if_neg (by rintro rfl; cases isDigit)]
  | true head _ | false head _ | text head _ | negative head _ | list head _ | object head _ =>
      rw [Reader.run?_null head, if_neg (by decide)]

theorem run?_choice_text {options : List (String × α)} (head : skipSpace input = '"' :: start) :
    (Reader.choice options room).run? input =
      (scanString [] start).toOption.bind fun name =>
        (option options name.1).toOption.map (·, name.2) := by
  rw [Reader.choice, Reader.run?_peek_bind _ _ head]
  simp

theorem run?_choice_other {options : List (String × α)} {c : Char}
    (head : skipSpace input = c :: start) (noText : c ≠ '"') (noObject : c ≠ '{') :
    (Reader.choice options room).run? input = none := by
  rw [Reader.choice, Reader.run?_peek_bind _ _ head]
  simp

theorem meaning_choice_object (options : List (String × α)) (name : String) (chosen : Value)
    (others : List (String × Value)) :
    (Shape.choice options).meaning (.object ((name, chosen) :: others)) =
      match chosen, others with
      | .null, [] => (option options name).toOption
      | _, _ => none := by
  cases chosen <;> cases others <;> simp [Shape.meaning]

theorem run?_choice_object {options : List (String × α)} {entries : List (String × Value)}
    (head : skipSpace input = '{' :: start)
    (object : MembersAt (fun start item after =>
      (Value.read room).run? start = some (item, after)) true start entries rest) :
    (Reader.choice options (room + 1)).run? input =
      ((Shape.choice options).meaning (.object entries)).map (·, rest) := by
  rw [Reader.choice, Reader.run?_peek_bind _ _ head]
  simp only [Reader.enter, Reader.run?_bind, Reader.run?_advance, Option.bind_some]
  cases object with
  | finish closed =>
      rw [Reader.run?_peek _ (head_of_keyClosed closed)]
      simp [Shape.meaning]
  | member opened named colon found later =>
      rw [Reader.run?_peek _ (head_of_key opened), meaning_choice_object]
      simp only [Option.bind_some, Reader.run?_bind, Reader.run?_advance, Reader.run?_string, named,
        Reader.run?_ofExcept, toOption_ok]
      rename_i key chosen others
      cases option options key with
      | error _ => cases chosen <;> cases others <;> rfl
      | ok choice =>
          simp only [toOption_ok, Option.map_some, Option.bind_some, Reader.run?_colon colon,
            ↓reduceIte, run?_null_of_read found]
          cases chosen with
          | null =>
              cases later with
              | finish closed =>
                  rw [Option.bind_some, Reader.run?_peek _ (head_of_keyClosed closed)]
                  simp
              | member opened _ _ _ _ =>
                  obtain ⟨behind, comma, _⟩ := head_of_laterKey opened
                  rw [Option.bind_some, Reader.run?_peek _ comma]
                  simp
          | flag _ | number _ | text _ | list _ | object _ => rfl

theorem follows_choice (options : List (String × α)) :
    Follows (Reader.choice options) (Shape.choice options).meaning := by
  intro room input rest value read
  cases valueAt_of_run? read with
  | text head scanned =>
      rw [run?_choice_text head, scanned, Shape.meaning]
      rfl
  | object head object => exact run?_choice_object head object
  | natural head isDigit _ =>
      rw [run?_choice_other head (by rintro rfl; cases isDigit) (by rintro rfl; cases isDigit)]
      simp [Shape.meaning]
  | null head _ | true head _ | false head _ | negative head _ | list head _ =>
      rw [run?_choice_other head (by decide) (by decide)]
      simp [Shape.meaning]

/-! ## Lists and tables -/

theorem follows_listOf {item : Shape α} {reader : Nat → Reader α}
    (each : Follows reader item.meaning) :
    Follows (Reader.listOf reader) (Shape.list item).meaning := by
  intro room input rest value read
  rw [Shape.meaning.eq_def]
  cases valueAt_of_run? read with
  | list head items =>
      rw [Reader.listOf, Reader.run?_peek_bind _ _ head]
      simp only [Reader.enter, Reader.run?_bind, Reader.run?_advance, Option.bind_some]
      exact items.run?_eq fun _ _ _ found => each found
  | natural head isDigit _ =>
      rw [Reader.listOf, Reader.run?_peek_bind _ _ head]
      split
      · cases isDigit
      · exact Reader.run?_mistyped _ _
  | null head _ | true head _ | false head _ | negative head _ | text head _ | object head _ =>
      rw [Reader.listOf, Reader.run?_peek_bind _ _ head]
      exact Reader.run?_mistyped _ _

theorem follows_tableOf {entry : Shape α} {reader : Nat → Reader α}
    (each : Follows reader entry.meaning) :
    Follows (Reader.tableOf reader) (Shape.table entry).meaning := by
  intro room input rest value read
  rw [Shape.meaning.eq_def]
  cases valueAt_of_run? read with
  | object head members =>
      rw [Reader.tableOf, Reader.run?_peek_bind _ _ head]
      simp only [Reader.enter, Reader.run?_bind, Reader.run?_advance, Option.bind_some,
        Reader.run?_map]
      rw [members.run?_members fun _ _ _ found => each found]
      simp [Function.comp_def]
  | natural head isDigit _ =>
      rw [Reader.tableOf, Reader.run?_peek_bind _ _ head]
      split
      · cases isDigit
      · exact Reader.run?_mistyped _ _
  | null head _ | true head _ | false head _ | negative head _ | text head _ | list head _ =>
      rw [Reader.tableOf, Reader.run?_peek_bind _ _ head]
      exact Reader.run?_mistyped _ _

/-! ## Members -/

def FollowsKeys (members : Members σ γ) : Prop :=
  ∀ (seen : σ) {room : Nat} {key : String} {behind before rest : List Char} {value : Value},
    members.knows key = true → skipSpace behind = ':' :: before →
    (Value.read room).run? before = some (value, rest) →
    ∃ reader, members.readMember room key seen = some reader ∧
      reader.run? behind = (members.put? key value seen).map (·, rest)

def FollowsItems (members : Members σ γ) : Prop :=
  ∀ {name : String} {count index room : Nat} {input rest : List Char} {items : List Value},
    ItemsAt (fun start item after => (Value.read room).run? start = some (item, after))
      (index == 0) input items rest →
    (members.readItems name count index room).run? input =
      (members.meaningOfItems items).map (·, rest)

theorem readMember_of_ne {key name : String} {shape : Shape α} {fallback seen : Option α}
    {rest : Members σ γ} {others : σ} (room : Nat) (other : (key == name) = false) :
    (Members.member key shape fallback rest).readMember room name (seen, others) =
      (rest.readMember room name others).map fun reader => (seen, ·) <$> reader := by
  cases seen <;> rw [Members.readMember, if_neg (by simp [other])]

theorem readMember_of_not_knows : ∀ {members : Members σ γ} {key : String} (room : Nat) (seen : σ),
    members.knows key = false → members.readMember room key seen = none
  | .nil, _, _, _, _ => rfl
  | .member name shape fallback rest, key, room, (seen, others), unknown => by
      obtain ⟨other, unknown⟩ := Bool.or_eq_false_iff.mp unknown
      rw [readMember_of_ne room other, readMember_of_not_knows room others unknown]
      rfl

theorem followsKeys_nil : FollowsKeys Members.nil := by
  intro _ _ _ _ _ _ _ known
  cases known

theorem followsKeys_member {key : String} {shape : Shape α} {fallback : Option α}
    {rest : Members σ γ} (first : Follows shape.read shape.meaning) (later : FollowsKeys rest) :
    FollowsKeys (Members.member key shape fallback rest) := by
  intro ⟨seen, others⟩ room name behind before after value known colon read
  cases same : key == name with
  | true =>
      rw [put?_of_eq same]
      cases seen with
      | some _ =>
          refine ⟨_, by rw [Members.readMember, if_pos same], ?_⟩
          rfl
      | none =>
          refine ⟨_, by rw [Members.readMember, if_pos same], ?_⟩
          rw [Reader.run?_colon_bind colon, Reader.run?_bind, first read]
          simp only [see?]
          cases shape.meaning value <;> rfl
  | false =>
      rw [Members.knows, same, Bool.false_or] at known
      obtain ⟨reader, found, follows⟩ := later others known colon read
      refine ⟨_, by rw [readMember_of_ne room same, found]; rfl, ?_⟩
      rw [put?_of_ne same, Reader.run?_map, follows]
      cases rest.put? name value others <;> rfl

theorem toOption_scanListEnd {c : Char} (head : skipSpace input = c :: start) :
    (scanListEnd input).toOption = if c = ']' then some ((), start) else none := by
  rw [scanListEnd, head]
  split
  · next same => cases same
  · next same =>
      cases same
      rfl
  · next same =>
      cases same
      split <;> rfl
  · next noEnd _ =>
      rw [if_neg]
      · rfl
      · rintro rfl
        exact noEnd _ rfl

theorem followsItems_nil : FollowsItems Members.nil := by
  intro name count index room input rest items list
  rw [Members.readItems, Members.meaningOfItems, Reader.run?_listEnd]
  cases list with
  | finish closed =>
      rw [toOption_scanListEnd (head_of_closed closed), if_pos rfl]
      rfl
  | item opened _ _ =>
      rw [List.isEmpty_cons]
      cases first : index == 0 with
      | true =>
          rw [first] at opened
          obtain ⟨c, tail, _, head, noEnd⟩ := head_of_opened opened
          rw [toOption_scanListEnd head, if_neg noEnd]
          rfl
      | false =>
          rw [first] at opened
          rw [toOption_scanListEnd (head_of_comma opened), if_neg (by decide)]
          rfl

theorem followsItems_member {key : String} {shape : Shape α} {fallback : Option α}
    {rest : Members σ γ} (first : Follows shape.read shape.meaning) (later : FollowsItems rest) :
    FollowsItems (Members.member key shape fallback rest) := by
  intro name count index room input behind items list
  rw [Members.readItems, Reader.run?_bind, Reader.run?_nextItem]
  cases list with
  | finish closed =>
      rw [closed, Members.meaningOfItems]
      simp [toOption_fallbacks]
  | item opened found more =>
      rw [opened, Members.meaningOfItems]
      simp only [toOption_ok, Option.bind_some, ↓reduceIte, Reader.run?_bind, first found]
      rename_i value items
      cases shape.meaning value with
      | none => rfl
      | some value =>
          have others := @later name count (index + 1) room _ _ _ more
          simp only [Option.map_some, Option.bind_some, others]
          cases rest.meaningOfItems items <;> rfl

/-! ## Records -/

theorem run?_known_of_follows {members : Members σ γ} (keys : FollowsKeys members)
    {entries : List (String × Value)}
    (object : MembersAt (fun start item after =>
      (Value.read room).run? start = some (item, after)) true start entries rest) (seen : σ) :
    (Reader.members (fun key seen => (members.readMember room key seen).getD
        (do Reader.colon; Reader.skip; return seen)) seen).run? start =
      (entries.foldlM (fun seen entry => members.put? entry.1 entry.2 seen) seen).map
        (·, rest) := by
  refine object.run?_eq (fun key behind before value after seen colon read => ?_) seen
  cases known : members.knows key with
  | true =>
      obtain ⟨reader, found, follows⟩ := keys seen known colon read
      rw [found, Option.getD_some, follows]
  | false =>
      rw [readMember_of_not_knows room seen known, Option.getD_none, Reader.run?_colon_bind colon,
        Reader.run?_bind, run?_skip_of_read read, put?_of_not_knows value seen known]
      rfl

theorem follows_record {members : Members σ γ} (keys : FollowsKeys members)
    (items : FollowsItems members) (name : String) (build : γ → α) :
    Follows (Shape.record name members build).read (Shape.record name members build).meaning := by
  intro room input rest value read
  rw [Shape.meaning.eq_def, Shape.read]
  cases valueAt_of_run? read with
  | list head list =>
      rw [Reader.run?_peek_bind _ _ head]
      simp only [Reader.enter, Reader.run?_bind, Reader.run?_advance, Option.bind_some,
        Reader.run?_map]
      rw [@items name members.count 0 _ _ _ _ list, Option.map_map, Option.map_map]
      rfl
  | object head object =>
      rw [Reader.run?_peek_bind _ _ head]
      simp only [Reader.objectOf, Reader.enter, Reader.run?_bind, Reader.run?_advance,
        Option.bind_some, run?_known_of_follows keys object, Reader.run?_map, Reader.run?_ofExcept,
        ← foldlM_put?_complete]
      rename_i entries
      cases entries.foldlM (fun seen entry => members.put? entry.1 entry.2 seen) members.unseen with
      | none => rfl
      | some seen =>
          simp only [Option.map_some, Option.bind_some]
          cases members.complete seen <;> rfl
  | natural head isDigit _ =>
      rw [Reader.run?_peek_bind _ _ head]
      split
      · cases isDigit
      · cases isDigit
      · exact Reader.run?_mistyped _ _
  | null head _ | true head _ | false head _ | negative head _ | text head _ =>
      rw [Reader.run?_peek_bind _ _ head]
      exact Reader.run?_mistyped _ _

/-! ## Objects that are split -/

/-- Where the members of an object go that is split: those that are known to their places, all
others in front of those before them. -/
def splitStep (direct : Members σ γ) (key : String) (value : Value)
    (state : σ × List (String × Value)) : Option (σ × List (String × Value)) :=
  if direct.knows key then (direct.put? key value state.1).map (·, state.2)
  else some (state.1, (key, value) :: state.2)

theorem foldlM_splitStep (direct : Members σ γ) (entries : List (String × Value)) (seen : σ)
    (others : List (String × Value)) :
    entries.foldlM (fun state entry => splitStep direct entry.1 entry.2 state) (seen, others) =
      (entries.foldlM (fun seen entry => direct.put? entry.1 entry.2 seen) seen).map
        (·, (entries.filter fun entry => !direct.knows entry.1).reverse ++ others) := by
  induction entries generalizing seen others with
  | nil => rfl
  | cons entry entries induction =>
      rw [List.foldlM_cons, List.foldlM_cons, splitStep]
      cases known : direct.knows entry.1 with
      | true =>
          rw [List.filter_cons_of_neg (by simp [known]), if_pos rfl]
          cases direct.put? entry.1 entry.2 seen with
          | none => rfl
          | some next => exact induction next others
      | false =>
          rw [List.filter_cons_of_pos (by simp [known]), if_neg (by simp),
            put?_of_not_knows entry.2 seen known]
          simp [induction]

theorem run?_split_of_follows {direct : Members σ γ} (keys : FollowsKeys direct)
    {entries : List (String × Value)}
    (object : MembersAt (fun start item after =>
      (Value.read room).run? start = some (item, after)) true start entries rest)
    (state : σ × List (String × Value)) :
    (Reader.members (fun key (state : σ × List (String × Value)) =>
        ((direct.readMember room key state.1).map fun reader => (·, state.2) <$> reader).getD
          ((state.1, ·) <$> Reader.member (Value.read room) key state.2)) state).run? start =
      (entries.foldlM (fun state entry => splitStep direct entry.1 entry.2 state) state).map
        (·, rest) := by
  refine object.run?_eq (fun key behind before value after state colon read => ?_) state
  rw [splitStep]
  cases known : direct.knows key with
  | true =>
      obtain ⟨reader, found, follows⟩ := keys state.1 known colon read
      rw [found, Option.map_some, Option.getD_some, Reader.run?_map, follows, if_pos rfl]
      cases direct.put? key value state.1 <;> rfl
  | false =>
      rw [readMember_of_not_knows room state.1 known, Option.map_none, Option.getD_none,
        Reader.run?_map, run?_member _ colon, read, if_neg (by simp)]
      rfl

theorem follows_split {direct : Members σ γ} (keys : FollowsKeys direct) (name : String)
    (kept : Members ρ δ) (build : γ → δ → α) :
    Follows (Shape.split name direct kept build).read
      (Shape.split name direct kept build).meaning := by
  intro room input rest value read
  rw [Shape.meaning.eq_def, Shape.read]
  cases valueAt_of_run? read with
  | object head object =>
      rw [Reader.run?_peek_bind _ _ head]
      simp only [Reader.objectOf, Reader.enter, Reader.run?_bind, Reader.run?_advance,
        Option.bind_some, run?_split_of_follows keys object, foldlM_splitStep, Reader.run?_map,
        Reader.run?_ofExcept, ← foldlM_put?_complete, List.append_nil]
      rename_i entries
      cases entries.foldlM (fun seen entry => direct.put? entry.1 entry.2 seen) direct.unseen with
      | none => rfl
      | some seen =>
          simp only [Option.map_some, Option.bind_some, List.reverse_reverse]
          cases direct.complete seen with
          | error _ => rfl
          | ok values =>
              cases kept.ofKept (entries.filter fun entry => !direct.knows entry.1) <;> rfl
  | natural head isDigit _ =>
      rw [Reader.run?_peek_bind _ _ head]
      split
      · cases isDigit
      · exact Reader.run?_mistyped _ _
  | null head _ | true head _ | false head _ | negative head _ | text head _ | list head _ =>
      rw [Reader.run?_peek_bind _ _ head]
      exact Reader.run?_mistyped _ _

/-! ## All shapes -/

mutual

theorem follows_meaning : ∀ (shape : Shape α), Follows shape.read shape.meaning
  | .text => by simpa only [Shape.read] using follows_text
  | .flag => by simpa only [Shape.read] using follows_flag
  | .offset => by simpa only [Shape.read] using follows_offset
  | .choice options => by simpa only [Shape.read] using follows_choice options
  | .list item => by simpa only [Shape.read] using follows_listOf (follows_meaning item)
  | .table entry => by simpa only [Shape.read] using follows_tableOf (follows_meaning entry)
  | .record name members build =>
      follows_record (followsKeys members) (followsItems members) name build
  | .split name direct kept build => follows_split (followsKeys direct) name kept build

theorem followsKeys : ∀ {σ γ : Type} (members : Members σ γ), FollowsKeys members
  | _, _, .nil => followsKeys_nil
  | _, _, .member _ shape _ rest => followsKeys_member (follows_meaning shape) (followsKeys rest)

theorem followsItems : ∀ {σ γ : Type} (members : Members σ γ), FollowsItems members
  | _, _, .nil => followsItems_nil
  | _, _, .member _ shape _ rest => followsItems_member (follows_meaning shape) (followsItems rest)

end

/-- A text that says a value reads as what the value means. -/
theorem decode_of_meaning {shape : Shape α} {text : List Char} {found : α}
    (spelled : value.SpelledBy text) (fits : value.Fits maxDepth)
    (means : shape.meaning value = some found) :
    decode shape (String.ofList text) = .ok found := by
  obtain ⟨rest, isBlank, read⟩ := spelled.run? fits
  refine decode_eq_ok_iff.mpr ⟨rest, ?_, ?_⟩
  · rw [String.toList_ofList, follows_meaning shape read, means]
    rfl
  · have ended := skipSpace_blanks isBlank []
    rw [List.append_nil] at ended
    exact ended

/-- What is read from a text is what any value means that the text says. -/
theorem meaning_of_decode {shape : Shape α} {text : List Char} {found : α}
    (spelled : value.SpelledBy text) (fits : value.Fits maxDepth)
    (decoded : decode shape (String.ofList text) = .ok found) :
    shape.meaning value = some found := by
  obtain ⟨rest, _, read⟩ := spelled.run? fits
  obtain ⟨behind, again, _⟩ := decode_eq_ok_iff.mp decoded
  rw [String.toList_ofList, follows_meaning shape read] at again
  obtain ⟨found, means, same⟩ := Option.map_eq_some_iff.mp again
  cases same
  exact means

end LensPath.Json
