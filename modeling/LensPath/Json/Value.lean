import LensPath.Json.Reader

/-!
JSON values: their compact text, and the reader that keeps a value as it is. Objects keep their
members in the order of the text, repetitions included.
-/

namespace LensPath.Json

open Text (isDigit)

inductive Value
  | null
  | flag (value : Bool)
  | number (value : Numeral)
  | text (value : String)
  | list (items : List Value)
  | object (members : List (String × Value))
deriving Repr

namespace Value

def found : Value → Found
  | null => .null
  | flag value => .flag value
  | number value => .number value
  | text value => .text value
  | list _ => .list
  | object _ => .object

end Value

/-! ## Writing -/

/-- A character inside a string. Only quotes, backslashes and controls are escaped. -/
def escapeChar (c : Char) : List Char :=
  match c with
  | '"' => ['\\', '"']
  | '\\' => ['\\', '\\']
  | '\x08' => ['\\', 'b']
  | '\x0c' => ['\\', 'f']
  | '\n' => ['\\', 'n']
  | '\r' => ['\\', 'r']
  | '\t' => ['\\', 't']
  | c =>
      if c.toNat < 0x20 then
        ['\\', 'u', '0', '0', Nat.digitChar (c.toNat / 16), Nat.digitChar (c.toNat % 16)]
      else [c]

def renderString (text : String) : List Char :=
  '"' :: text.toList.flatMap escapeChar ++ ['"']

namespace Value

mutual

def renderChars : Value → List Char
  | null => ['n', 'u', 'l', 'l']
  | flag true => ['t', 'r', 'u', 'e']
  | flag false => ['f', 'a', 'l', 's', 'e']
  | number value => value.render.toList
  | text value => renderString value
  | list items => '[' :: renderItems items ++ [']']
  | object members => '{' :: renderMembers members ++ ['}']

def renderItems : List Value → List Char
  | [] => []
  | [item] => item.renderChars
  | item :: next :: rest => item.renderChars ++ ',' :: renderItems (next :: rest)

def renderMembers : List (String × Value) → List Char
  | [] => []
  | [(key, value)] => renderString key ++ ':' :: value.renderChars
  | (key, value) :: next :: rest =>
      renderString key ++ ':' :: value.renderChars ++ ',' :: renderMembers (next :: rest)

end

def render (value : Value) : String := String.ofList value.renderChars

end Value

/-! ## Reading -/

def Reader.member (value : Reader α) (key : String) (read : List (String × α)) :
    Reader (List (String × α)) := do
  colon
  return (key, ← value) :: read

def Value.read (room : Nat) : Reader Value := do
  match ← Reader.peek .endInValue with
  | 'n' => Reader.advance; Reader.word ['u', 'l', 'l']; return .null
  | 't' => Reader.advance; Reader.word ['r', 'u', 'e']; return .flag true
  | 'f' => Reader.advance; Reader.word ['a', 'l', 's', 'e']; return .flag false
  | '-' => Reader.advance; return .number (← Reader.number true)
  | '"' => Reader.advance; return .text (← Reader.string)
  | '[' =>
      match room with
      | 0 => Reader.fail .tooDeep
      | room + 1 =>
          Reader.advance
          return .list (← Reader.items (Value.read room))
  | '{' =>
      match room with
      | 0 => Reader.fail .tooDeep
      | room + 1 =>
          Reader.advance
          return .object (← Reader.members (Reader.member (Value.read room)) []).reverse
  | c =>
      if isDigit c then return .number (← Reader.number false)
      else Reader.fail .expectedValue

end LensPath.Json
