import LensPath.Inspection
import LensPath.Lens.Encoding
import LensPath.TypeModel.Encoding

/-!
Manifests: a type table together with the lenses declared on its types, in one JSON object.
-/

namespace LensPath

open Json

structure Manifest.Entry where
  root : String
  lens : Lens
deriving DecidableEq, Repr

structure Manifest where
  model : TypeTable
  entries : List Manifest.Entry
deriving DecidableEq, Repr

namespace Manifest

def Entry.shape : Shape Entry :=
  .split "ManifestLens" (.member "root" .text none .nil) Lens.members
    fun (root, ()) lens => ⟨root, Lens.ofMembers lens⟩

/-- The lenses are read where they stand, and the members of the table when the object is over. -/
def shape : Shape Manifest :=
  .split "Manifest" (.member "lenses" (.list Entry.shape) (some []) .nil) TypeTable.members
    fun (entries, ()) (types, ()) => ⟨.ofList types, entries⟩

/-- Puts a lens behind the others of its root, or in a new group behind the others. -/
def addToGroup (entry : Entry) : List (String × List Lens) → List (String × List Lens)
  | [] => [(entry.root, [entry.lens])]
  | group :: rest =>
      if group.1 == entry.root then (group.1, group.2 ++ [entry.lens]) :: rest
      else group :: addToGroup entry rest

def groups (manifest : Manifest) : List (String × List Lens) :=
  manifest.entries.foldl (fun groups entry => addToGroup entry groups) []

end Manifest

/-- The lenses of one root, and what their inspection found; `none` for a root that hosts no
lenses. -/
structure RootInspection where
  root : String
  lenses : List Lens
  found : Option (List (List Diagnostic))
deriving DecidableEq, Repr

def Manifest.inspect (manifest : Manifest) : Except Fault (List RootInspection) :=
  manifest.groups.mapM fun (root, lenses) => do
    return ⟨root, lenses, ← manifest.model.model.inspect root lenses⟩

end LensPath
