import LensPath.Json.Numeral
import LensPath.Text.Quoted

/-!
What can be wrong with a JSON text, or with a JSON value for the shape that is asked for.
-/

namespace LensPath.Json

inductive Found
  | null
  | flag (value : Bool)
  | number (value : Numeral)
  | text (value : String)
  | list
  | object
deriving DecidableEq, Repr

def Found.display : Found → String
  | null => "null"
  | flag value => "boolean `" ++ (if value then "true" else "false") ++ "`"
  | number value =>
      (if value.isWhole then "integer `" else "floating point `") ++ value.render ++ "`"
  | text value => "string " ++ Text.quoted value
  | list => "sequence"
  | object => "map"

inductive Error
  | endInValue
  | endInObject
  | endInList
  | endInString
  | expectedValue
  | misspelledWord
  | invalidNumber
  | numberOutOfRange
  | keyNotString
  | expectedColon
  | expectedCommaOrBrace
  | expectedCommaOrBracket
  | trailingComma
  | trailingCharacters
  | controlCharacter
  | invalidEscape
  | loneSurrogate
  | unpairedSurrogate
  | tooDeep
  | wrongType (found : Found) (expected : String)
  | wrongValue (found : Found) (expected : String)
  | wrongLength (length : Nat) (expected : String)
  | unknownVariant (name : String) (known : List String)
  | missingMember (key : String)
  | duplicateMember (key : String)
deriving DecidableEq, Repr

/-- The text ends too early, is no JSON, or does not have the shape that is asked for. -/
inductive Error.Category
  | cutShort
  | malformed
  | unsuited
deriving DecidableEq, Repr

namespace Error

def category : Error → Category
  | endInValue | endInObject | endInList | endInString => .cutShort
  | wrongType .. | wrongValue .. | wrongLength .. | unknownVariant .. | missingMember ..
  | duplicateMember .. => .unsuited
  | _ => .malformed

def alternatives : List String → String
  | [] => "there are no variants"
  | [only] => "expected `" ++ only ++ "`"
  | [first, second] => "expected `" ++ first ++ "` or `" ++ second ++ "`"
  | known => "expected one of " ++ ", ".intercalate (known.map fun name => "`" ++ name ++ "`")

def message : Error → String
  | endInValue => "EOF while parsing a value"
  | endInObject => "EOF while parsing an object"
  | endInList => "EOF while parsing a list"
  | endInString => "EOF while parsing a string"
  | expectedValue => "expected value"
  | misspelledWord => "expected ident"
  | invalidNumber => "invalid number"
  | numberOutOfRange => "number out of range"
  | keyNotString => "key must be a string"
  | expectedColon => "expected `:`"
  | expectedCommaOrBrace => "expected `,` or `\x7d`"
  | expectedCommaOrBracket => "expected `,` or `]`"
  | trailingComma => "trailing comma"
  | trailingCharacters => "trailing characters"
  | controlCharacter => "control character (\\u0000-\\u001F) found while parsing a string"
  | invalidEscape => "invalid escape"
  | loneSurrogate => "lone leading surrogate in hex escape"
  | unpairedSurrogate => "unexpected end of hex escape"
  | tooDeep => "recursion limit exceeded"
  | wrongType found expected => "invalid type: " ++ found.display ++ ", expected " ++ expected
  | wrongValue found expected => "invalid value: " ++ found.display ++ ", expected " ++ expected
  | wrongLength length expected =>
      "invalid length " ++ toString length ++ ", expected " ++ expected
  | unknownVariant name known => "unknown variant `" ++ name ++ "`, " ++ alternatives known
  | missingMember key => "missing field `" ++ key ++ "`"
  | duplicateMember key => "duplicate field `" ++ key ++ "`"

end Error

end LensPath.Json
