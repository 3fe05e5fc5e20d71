import LensPath.Span

/-!
The tokens of a path and how a text is cut into them. Names are ASCII and as long as they can
be, nothing is skipped, and the first character that starts no token ends the run.
-/

namespace LensPath

inductive Token
  | name (text : String)
  | dot
  | openParen
  | closeParen
  | finish
deriving DecidableEq, Repr

namespace Token

def display : Token → String
  | name text => text
  | dot => "."
  | openParen => "("
  | closeParen => ")"
  | finish => "end of path"

def width : Token → Nat
  | name text => text.utf8ByteSize
  | dot | openParen | closeParen => 1
  | finish => 0

def isNameStart (c : Char) : Bool := c.isAlpha || c == '_'

def isNameChar (c : Char) : Bool := c.isAlphanum || c == '_'

/-- The longest token at the head of a text, and the text after it. -/
def take? : List Char → Option (Token × List Char)
  | [] => none
  | c :: rest =>
      if c == '.' then some (dot, rest)
      else if c == '(' then some (openParen, rest)
      else if c == ')' then some (closeParen, rest)
      else if isNameStart c then
        some (name (String.ofList (c :: rest.takeWhile isNameChar)),
          rest.dropWhile isNameChar)
      else none

theorem take?_shorter {text rest : List Char} {token : Token}
    (taken : take? text = some (token, rest)) : rest.length < text.length := by
  cases text with
  | nil => simp [take?] at taken
  | cons c tail =>
      have dropped := (List.dropWhile_sublist (l := tail) isNameChar).length_le
      simp only [take?] at taken
      split at taken
      next => cases taken; simp
      next =>
        split at taken
        next => cases taken; simp
        next =>
          split at taken
          next => cases taken; simp
          next =>
            split at taken
            next => cases taken; simp only [List.length_cons]; omega
            next => cases taken

structure Located where
  token : Token
  span : Span
deriving DecidableEq, Repr

def locate (token : Token) (offset : Nat) : Located :=
  ⟨token, offset, offset + token.width⟩

end Token

structure StrayChar where
  char : Char
  offset : Nat
deriving DecidableEq, Repr

namespace StrayChar

def span (stray : StrayChar) : Span := ⟨stray.offset, stray.offset + stray.char.utf8Size⟩

def message (stray : StrayChar) : String :=
  "unexpected character: '" ++ String.singleton stray.char ++ "'"

def display (stray : StrayChar) : String := stray.message ++ " at " ++ stray.span.display

def head? (text : List Char) (offset : Nat) : Option StrayChar :=
  text.head?.map fun char => ⟨char, offset⟩

end StrayChar

/-- A text cut into tokens: the tokens, the offset where the run stopped, and the character
that stopped it before the end of the text, if one did. -/
structure Lexed where
  tokens : List Token.Located
  stop : Nat
  stray : Option StrayChar
deriving DecidableEq, Repr

namespace Lexed

def scan (offset : Nat) (text : List Char) : Lexed :=
  match _ : Token.take? text with
  | none => ⟨[], offset, StrayChar.head? text offset⟩
  | some (token, rest) =>
      let run := scan (offset + token.width) rest
      { run with tokens := token.locate offset :: run.tokens }
termination_by text.length
decreasing_by exact Token.take?_shorter (by assumption)

def ofString (source : String) : Lexed := scan 0 source.toList

def finish (lexed : Lexed) : Token.Located := Token.finish.locate lexed.stop

def listing (lexed : Lexed) : List Token.Located := lexed.tokens ++ [lexed.finish]

end Lexed

end LensPath
