import LensPath.Json.Shape.Kept

/-!
Values of a shape from JSON texts, read as the text goes by: the first error in the order of the
text counts. Members that a record does not know are passed over.
-/

namespace LensPath.Json

namespace Reader

/-- A name, or an object with a name as its only key and null as its value. -/
def choice (options : List (String × α)) (room : Nat) : Reader α := do
  match ← peek .endInValue with
  | '"' => advance; ofExcept (option options (← string))
  | '{' =>
      enter room fun _ => do
        match ← peek .endInObject with
        | '"' =>
            advance
            let value ← ofExcept (option options (← string))
            colon
            null
            match ← peek .endInObject with
            | '}' => advance; return value
            | _ => fail .expectedValue
        | '}' => fail .expectedValue
        | _ => fail .keyNotString
  | _ => fail .expectedValue

def listOf (item : Nat → Reader α) (room : Nat) : Reader (List α) := do
  match ← peek .endInValue with
  | '[' => enter room fun room => items (item room)
  | _ => mistyped "a sequence"

def tableOf (entry : Nat → Reader α) (room : Nat) : Reader (List (String × α)) := do
  match ← peek .endInValue with
  | '{' => enter room fun room => List.reverse <$> members (member (entry room)) []
  | _ => mistyped "a map"

/-- An object whose members `known` reads; it has no reader for keys that it does not know. -/
def objectOf (known : Nat → String → σ → Option (Reader σ))
    (unknown : Nat → String → σ → Reader σ)
    (state : σ) (room : Nat) : Reader σ :=
  enter room fun room =>
    members (fun key state => (known room key state).getD (unknown room key state)) state

end Reader

mutual

def Shape.read : Shape α → (room : Nat) → Reader α
  | .text, _ => Reader.text
  | .flag, _ => Reader.flag
  | .offset, _ => Reader.offset
  | .choice options, room => Reader.choice options room
  | .list item, room => Reader.listOf item.read room
  | .table entry, room => Reader.tableOf entry.read room
  | .record name members build, room => do
      match ← Reader.peek .endInValue with
      | '[' =>
          Reader.enter room fun room =>
            build <$> members.readItems name members.count 0 room
      | '{' =>
          let seen ← Reader.objectOf members.readMember
            (fun _ _ seen => do Reader.colon; Reader.skip; return seen) members.unseen room
          build <$> Reader.ofExcept (members.complete seen)
      | _ => Reader.mistyped ("struct " ++ name)
  | .split name direct kept build, room => do
      match ← Reader.peek .endInValue with
      | '{' =>
          let (seen, others) ← Reader.objectOf
            (fun room key (seen, others) =>
              (direct.readMember room key seen).map fun reader => (·, others) <$> reader)
            (fun room key (seen, others) =>
              (seen, ·) <$> Reader.member (Value.read room) key others)
            (direct.unseen, []) room
          let values ← Reader.ofExcept (direct.complete seen)
          build values <$> Reader.ofExcept (kept.ofKept others.reverse)
      | _ => Reader.mistyped ("struct " ++ name)

/-- The reader of what follows a key: a colon and a value. A key that was seen already is
refused before that; there is no reader for a key that is not known. -/
def Members.readMember : Members σ γ → (room : Nat) → String → σ → Option (Reader σ)
  | .nil, _, _, _ => none
  | .member key shape _ rest, room, found, (seen, others) =>
      if key == found then
        match seen with
        | some _ => some (Reader.fail (.duplicateMember key))
        | none =>
            some do
              Reader.colon
              return (some (← shape.read room), others)
      else (rest.readMember room found others).map fun reader => (seen, ·) <$> reader

/-- Reads members as the items of a list from `index` on, and the end of the list. -/
def Members.readItems :
    Members σ γ → (name : String) → (count index room : Nat) → Reader γ
  | .nil, _, _, _, _ => Reader.listEnd
  | .member key shape fallback rest, name, count, index, room => do
      if ← Reader.nextItem (index == 0) then
        let value ← shape.read room
        return (value, ← rest.readItems name count (index + 1) room)
      else
        Reader.ofExcept <|
          (Members.member key shape fallback rest).fallbacks
            (fun length => .wrongLength length (Members.expectedItems name count)) index

end

/-- The number of containers that a text may have around each other. -/
def maxDepth : Nat := 127

def decode (shape : Shape α) (text : String) : Except Error α :=
  match shape.read maxDepth text.toList with
  | .error error => .error error
  | .ok read => if (skipSpace read.rest).isEmpty then .ok read.value else .error .trailingCharacters

end LensPath.Json
