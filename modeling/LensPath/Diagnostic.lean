import LensPath.Diagnostic.Message
import LensPath.Span

/-!
What can be wrong with a lens declaration, where, and in which words.
-/

namespace LensPath

inductive Diagnostic
  | blankPath
  | propertyNotFound (name : String) (span : Span) (containingType : String)
  | methodNotFound (name : String) (span : Span) (containingType : String)
  | methodWritten (name : String) (span : Span)
deriving DecidableEq, Repr

namespace Diagnostic

/-- The text at fault; `none` when it is the whole path. -/
def span? : Diagnostic → Option Span
  | blankPath => none
  | propertyNotFound _ span _ | methodNotFound _ span _ | methodWritten _ span => some span

def key : Diagnostic → Message.Key
  | blankPath => .pathBlank
  | propertyNotFound .. => .propertyMissing
  | methodNotFound .. => .methodMissing
  | methodWritten .. => .methodWritten

def arguments : Diagnostic → List String
  | blankPath => []
  | propertyNotFound name _ type | methodNotFound name _ type => [name, type]
  | methodWritten name _ => [name]

def message (diagnostic : Diagnostic) : String :=
  Message.render diagnostic.key.text diagnostic.arguments

def display (diagnostic : Diagnostic) : String :=
  match diagnostic.span? with
  | some span => diagnostic.message ++ " at " ++ span.display
  | none => diagnostic.message

def shift (diagnostic : Diagnostic) (offset : Nat) : Except Fault Diagnostic :=
  match diagnostic with
  | blankPath => .ok blankPath
  | propertyNotFound name span type =>
      (propertyNotFound name · type) <$> span.shift offset
  | methodNotFound name span type => (methodNotFound name · type) <$> span.shift offset
  | methodWritten name span => methodWritten name <$> span.shift offset

end Diagnostic

end LensPath
