/-!
Lens declarations: a path, whether it is read or written through, and where its text stands.
-/

namespace LensPath

inductive Lens.Mode
  | read
  | write
deriving DecidableEq, Repr

def Lens.Mode.display : Lens.Mode → String
  | read => "read"
  | write => "write"

structure Lens where
  path : String
  mode : Lens.Mode := .read
  /-- The offset of the first byte of the path in the text around it. -/
  offset : Nat := 0
deriving DecidableEq, Repr

end LensPath
