import LensPath.Json.Shape.Stream
import LensPath.Lens

/-!
Lens declarations as JSON.
-/

namespace LensPath

open Json

def Lens.Mode.shape : Shape Lens.Mode :=
  .choice ([Lens.Mode.read, .write].map fun mode => (mode.display, mode))

def Lens.Mode.toJson (mode : Lens.Mode) : Value := .text mode.display

namespace Lens

def members : Members (Option String × Option Mode × Option Nat × Unit)
    (String × Mode × Nat × Unit) :=
  .member "path" .text none <|
    .member "mode" Mode.shape (some .read) <|
    .member "offset" .offset (some 0) .nil

def ofMembers : String × Mode × Nat × Unit → Lens :=
  fun (path, mode, offset, ()) => { path, mode, offset }

def shape : Shape Lens := .record "LensDeclaration" members ofMembers

def toJson (lens : Lens) : Value :=
  .object [
    ("path", .text lens.path),
    ("mode", lens.mode.toJson),
    ("offset", .number (.natural lens.offset))]

end Lens

end LensPath
