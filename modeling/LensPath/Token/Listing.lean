import LensPath.Token

/-!
The tokens of a text as a table.
-/

namespace LensPath

def Token.category : Token → String
  | name _ => "IDENT"
  | dot => "DOT"
  | openParen | closeParen => "DELIMITER"
  | finish => "EOF"

def padCell (width : Nat) (text : String) : String :=
  text ++ String.ofList (List.replicate (width - text.length) ' ')

def tokenRow (span length category value : String) : String :=
  padCell 8 span ++ " " ++ padCell 8 length ++ " " ++ padCell 12 category ++ " " ++ value ++ "\n"

def Token.Located.row (located : Token.Located) : String :=
  tokenRow located.span.display (toString (located.span.stop - located.span.start))
    located.token.category located.token.display

def Lexed.table (lexed : Lexed) : String :=
  tokenRow "SPAN" "LENGTH" "TOKEN TYPE" "VALUE" ++
    String.ofList (List.replicate 40 '-') ++ "\n" ++
    String.join (lexed.listing.map Token.Located.row) ++
    match lexed.stray with
    | some stray => "\nstopped early: " ++ stray.display ++ "\n"
    | none => ""

end LensPath
