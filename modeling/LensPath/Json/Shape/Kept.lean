import LensPath.Json.Shape

/-!
Values of a shape from JSON values that were kept. Members count in the order in which they were
written, so of several errors the first one in that order is found.
-/

namespace LensPath.Json

def Value.toUnit : Value → Except Error Unit
  | .null | .object [] => .ok ()
  | value => .error (.wrongType value.found "unit")

def leftOver (total count : Nat) : Error :=
  .wrongLength total
    (toString count ++ (if count == 1 then " element" else " elements") ++ " in sequence")

/-- The members of an object, each put where it belongs; those that are not known are passed
over. -/
def putMembers (put : String → Value → σ → Option (Except Error σ)) :
    List (String × Value) → σ → Except Error σ
  | [], seen => .ok seen
  | (key, value) :: rest, seen =>
      match put key value seen with
      | some (.ok seen) => putMembers put rest seen
      | some (.error error) => .error error
      | none => putMembers put rest seen

mutual

def Shape.ofValue : Shape α → Value → Except Error α
  | .text, value =>
      match value with
      | .text text => .ok text
      | value => .error (.wrongType value.found "a string")
  | .flag, value =>
      match value with
      | .flag flag => .ok flag
      | value => .error (.wrongType value.found "a boolean")
  | .offset, value =>
      match value with
      | .number number => number.toOffset
      | value => .error (.wrongType value.found "usize")
  | .choice options, value =>
      match value with
      | .text name => option options name
      | .object [(name, value)] => do
          let chosen ← option options name
          value.toUnit
          return chosen
      | .object _ => .error (.wrongValue .object "map with a single key")
      | value => .error (.wrongType value.found "string or map")
  | .list item, value =>
      match value with
      | .list items => items.mapM item.ofValue
      | value => .error (.wrongType value.found "a sequence")
  | .table entry, value =>
      match value with
      | .object members => members.mapM fun member => (member.1, ·) <$> entry.ofValue member.2
      | value => .error (.wrongType value.found "a map")
  | .record name members build, value =>
      match value with
      | .list items => build <$> members.ofItems name members.count 0 items.length items
      | .object kept => do
          let seen ← putMembers members.putMember kept members.unseen
          build <$> members.complete seen
      | value => .error (.wrongType value.found ("struct " ++ name))
  | .split name direct kept build, value =>
      match value with
      | .object members => do
          let values ← direct.complete (← putMembers direct.putMember members direct.unseen)
          build values <$> (putMembers kept.putMember members kept.unseen >>= kept.complete)
      | value => .error (.wrongType value.found ("struct " ++ name))

/-- Puts the value of a member where it belongs; `none` for a key that is not known. -/
def Members.putMember :
    Members σ γ → String → Value → σ → Option (Except Error σ)
  | .nil, _, _, _ => none
  | .member key shape _ rest, found, value, (seen, others) =>
      if key == found then
        match seen with
        | some _ => some (.error (.duplicateMember key))
        | none => some ((some ·, others) <$> shape.ofValue value)
      else (rest.putMember found value others).map fun result => (seen, ·) <$> result

def Members.ofItems :
    Members σ γ → (name : String) → (count index total : Nat) → List Value → Except Error γ
  | .nil, _, count, _, total, items =>
      if items.isEmpty then .ok () else .error (leftOver total count)
  | .member key shape fallback rest, name, count, index, total, items =>
      match items with
      | [] =>
          (Members.member key shape fallback rest).fallbacks
            (fun length => .wrongLength length (Members.expectedItems name count)) index
      | item :: items => do
          let value ← shape.ofValue item
          return (value, ← rest.ofItems name count (index + 1) total items)

end

def Members.ofKept (members : Members σ γ) (kept : List (String × Value)) : Except Error γ :=
  putMembers members.putMember kept members.unseen >>= members.complete

end LensPath.Json
