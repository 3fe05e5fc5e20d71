import LensPath.Text.Quoted

/-!
Log events, and the lines in which they are shown.
-/

namespace LensPath.Log

inductive Level
  | error
  | warn
  | info
  | debug
  | trace
deriving DecidableEq, Repr

namespace Level

def all : List Level := [error, warn, info, debug, trace]

def rank : Level → Nat
  | error => 1
  | warn => 2
  | info => 3
  | debug => 4
  | trace => 5

def display : Level → String
  | error => "ERROR"
  | warn => "WARN"
  | info => "INFO"
  | debug => "DEBUG"
  | trace => "TRACE"

end Level

/-- A character of a message. Those that would steer a terminal are written by number; the ends
of lines stay. -/
def messageChar (c : Char) : String :=
  match c with
  | '\x07' => "\\x07"
  | '\x08' => "\\x08"
  | '\x0c' => "\\x0c"
  | '\x1b' => "\\x1b"
  | '\x7f' => "\\x7f"
  | c =>
      if 0x80 ≤ c.toNat && c.toNat < 0xA0 then
        "\\u\x7b" ++ Text.hexadecimal c.toNat ++ "\x7d"
      else String.singleton c

structure Event where
  level : Level
  /-- The part of the program that the event comes from. -/
  target : String
  message : String
  /-- Names and texts of values, in the order in which they are shown. -/
  fields : List (String × String)
deriving DecidableEq, Repr

namespace Event

/-- The message counts as a field. -/
def hasField (event : Event) (name : String) : Bool :=
  name == "message" || event.fields.any (·.1 == name)

def render (event : Event) : String :=
  let message := String.join (event.message.toList.map messageChar)
  " ".intercalate <|
    (event.level.display ++ " " ++ event.target ++ ": " ++ message) ::
      event.fields.map fun field => field.1 ++ "=" ++ field.2

end Event

end LensPath.Log
