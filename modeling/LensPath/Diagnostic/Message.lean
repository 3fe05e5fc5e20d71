/-!
Message templates. A placeholder is a number between braces and stands for the argument of that
number; the arguments are put in one after the other.
-/

namespace LensPath.Message

inductive Key
  | pathBlank
  | propertyMissing
  | methodMissing
  | methodWritten
deriving DecidableEq, Repr

namespace Key

def all : List Key := [pathBlank, propertyMissing, methodMissing, methodWritten]

def text : Key → String
  | pathBlank => "lens.path.blank"
  | propertyMissing => "lens.path.property.not.exist"
  | methodMissing => "lens.path.method.not.exist"
  | methodWritten => "lens.path.method.write.position"

def template : Key → String
  | pathBlank => "Lens path is blank"
  | propertyMissing => "Property '\x7b0\x7d' does not exist in type '\x7b1\x7d'"
  | methodMissing => "Method '\x7b0\x7d()' does not exist in type '\x7b1\x7d'"
  | methodWritten => "Method '\x7b0\x7d()' cannot be used as the target of a write lens"

def ofText? (text : String) : Option Key := all.find? fun key => key.text == text

end Key

def placeholder (number : Nat) : List Char := '\x7b' :: (Nat.repr number).toList ++ ['\x7d']

/-- The text with each occurrence of a pattern replaced, from left to right. Characters that
belong to an occurrence are passed over, `skip` of them being left. -/
def replaceFrom (pattern value : List Char) (skip : Nat) : List Char → List Char
  | [] => []
  | c :: rest =>
      match skip with
      | skip + 1 => replaceFrom pattern value skip rest
      | 0 =>
          if pattern.isPrefixOf (c :: rest) then
            value ++ replaceFrom pattern value (pattern.length - 1) rest
          else c :: replaceFrom pattern value 0 rest

def replace (pattern value text : List Char) : List Char := replaceFrom pattern value 0 text

/-- Puts the arguments in, the one with the given number first. -/
def fillFrom (number : Nat) (text : List Char) : List String → List Char
  | [] => text
  | argument :: rest =>
      fillFrom (number + 1) (replace (placeholder number) argument.toList text) rest

def fill (template : String) (arguments : List String) : String :=
  String.ofList (fillFrom 0 template.toList arguments)

/-- The message of a key. A key that is not known is its own message. -/
def render (key : String) (arguments : List String) : String :=
  match Key.ofText? key with
  | some known => fill known.template arguments
  | none => key

end LensPath.Message
