import LensPath.Path.Reading
import LensPath.Proofs.Resolution.Homomorphism
import LensPath.Proofs.TypeModel.Insertion
import Mathlib.Data.Set.Function
import Mathlib.Logic.Equiv.Basic

/-!
Tables whose types have other names. As long as no two types come to share a name, paths resolve
against the renamed table as before, with the names in the answer renamed too.
-/

namespace LensPath

def FieldDecl.mapType (f : String → String) (field : FieldDecl) : FieldDecl :=
  { field with type := f field.type }

def MethodDecl.mapType (f : String → String) (method : MethodDecl) : MethodDecl :=
  { method with returns := f method.returns }

namespace TypeDecl

def mapTypes (f : String → String) (decl : TypeDecl) : TypeDecl :=
  { decl with
    fields := decl.fields.map (.mapType f)
    methods := decl.methods.map (.mapType f) }

theorem findField_mapTypes (f : String → String) (decl : TypeDecl) (name : String) :
    (decl.mapTypes f).findField name = (decl.findField name).map (.mapType f) :=
  List.find?_map ..

theorem findMethod_mapTypes (f : String → String) (decl : TypeDecl) (name : String) :
    (decl.mapTypes f).findMethod name = (decl.findMethod name).map (.mapType f) :=
  List.find?_map ..

def memberTypes (decl : TypeDecl) : Set String :=
  {type | (∃ field ∈ decl.fields, field.type = type) ∨
    ∃ method ∈ decl.methods, method.returns = type}

end TypeDecl

namespace TypeTable

/-- The table with other names for its types, of which it speaks as keys and in its members. -/
def rename (f : String → String) (table : TypeTable) : TypeTable :=
  ofList (table.entries.map fun entry => (f entry.1, entry.2.mapTypes f))

def types (table : TypeTable) : Set String :=
  {type | ∃ entry ∈ table.entries, entry.1 = type ∨ type ∈ entry.2.memberTypes}

variable {table : TypeTable} {f : String → String} {known : Set String}

theorem get?_rename (injective : Set.InjOn f known) (inside : table.types ⊆ known) {type : String}
    (isKnown : type ∈ known) :
    (table.rename f).get? (f type) = (table.get? type).map (.mapTypes f) := by
  have apart : ∀ entry ∈ table.entries.reverse, f type = f entry.1 → type = entry.1 := by
    intro entry found same
    have occurs : entry.1 ∈ table.types := ⟨entry, List.mem_reverse.mp found, .inl rfl⟩
    exact injective isKnown (inside occurs) same
  rw [rename, get?_ofList, ← List.map_reverse, lookup_map _ _ apart,
    lookup_reverse table.entries_distinct]
  rfl

theorem contains_rename (injective : Set.InjOn f known) (inside : table.types ⊆ known)
    {type : String} (isKnown : type ∈ known) :
    (table.rename f).contains (f type) = table.contains type := by
  rw [contains, contains, get?_rename injective inside isKnown, Option.isSome_map]

theorem homOn_rename (injective : Set.InjOn f known) (inside : table.types ⊆ known) :
    table.model.HomOn (table.rename f).model f known := by
  constructor
  · intro type isKnown name
    simp only [TypeModel.fieldTypeOn, model, get?_rename injective inside isKnown]
    cases table.get? type with
    | none => rfl
    | some decl =>
        simp only [Option.map_some, Option.bind_some, TypeDecl.findField_mapTypes, Option.map_map]
        rfl
  · intro type isKnown name
    simp only [TypeModel.returnTypeOn, model, get?_rename injective inside isKnown]
    cases table.get? type with
    | none => rfl
    | some decl =>
        simp only [Option.map_some, Option.bind_some, TypeDecl.findMethod_mapTypes,
          Option.map_map]
        rfl
  · intro type isKnown
    simp only [model, contains_rename injective inside isKnown]
    cases table.contains type <;> rfl

theorem exists_of_memberType? {type memberType : String} {segment : Segment}
    (found : table.model.memberType? type segment = some memberType) :
    ∃ decl, table.get? type = some decl ∧ memberType ∈ decl.memberTypes := by
  cases kind : segment.kind with
  | property =>
      simp only [TypeModel.memberType?, kind, model] at found
      obtain ⟨field, reached, rfl⟩ := Option.map_eq_some_iff.mp found
      obtain ⟨decl, declared, first⟩ := Option.bind_eq_some_iff.mp reached
      exact ⟨decl, declared, .inl ⟨field, List.mem_of_find?_eq_some first, rfl⟩⟩
  | method =>
      simp only [TypeModel.memberType?, kind, model] at found
      obtain ⟨method, reached, rfl⟩ := Option.map_eq_some_iff.mp found
      obtain ⟨decl, declared, first⟩ := Option.bind_eq_some_iff.mp reached
      exact ⟨decl, declared, .inr ⟨method, List.mem_of_find?_eq_some first, rfl⟩⟩

theorem closed_of_subset (inside : table.types ⊆ known) : table.model.Closed known := by
  constructor
  · intro type _ segment memberType found
    obtain ⟨decl, declared, member⟩ := exists_of_memberType? found
    exact inside ⟨(type, decl), mem_entries_iff.mpr declared, .inr member⟩
  · intro type isKnown next inspected
    obtain ⟨_, rfl⟩ := inspectable_eq_some_iff.mp inspected
    exact isKnown

end TypeTable

namespace TypeModel

/-- A map of types that keeps members takes resolutions to resolutions and leaves the places that
are written to alone; so does any renaming of the types of a table that keeps them apart. -/
theorem resolve_hom :
    (∀ {τ ρ : Type} {source : TypeModel τ} {target : TypeModel ρ} {f : τ → ρ},
      source.Hom target f → ∀ (root : τ) (path : Path),
        target.resolve (f root) path = (source.resolve root path).mapType f ∧
        ∀ mode, path.writeViolation (target.resolve (f root) path) mode =
          path.writeViolation (source.resolve root path) mode) ∧
    ∀ (table : TypeTable) (f : String → String) (root : String),
      Set.InjOn f (insert root table.types) → ∀ path : Path,
        (table.rename f).model.resolve (f root) path =
          (table.model.resolve root path).mapType f ∧
        ∀ mode, path.writeViolation ((table.rename f).model.resolve (f root) path) mode =
          path.writeViolation (table.model.resolve root path) mode := by
  constructor
  · intro τ ρ source target f hom root path
    have resolved := hom.resolve source.closed_univ (Set.mem_univ root) path
    rw [resolved]
    exact ⟨rfl, path.writeViolation_mapType f _⟩
  · intro table f root injective path
    have inside := Set.subset_insert root table.types
    have resolved := (TypeTable.homOn_rename injective inside).resolve
      (TypeTable.closed_of_subset inside) (Set.mem_insert root table.types) path
    rw [resolved]
    exact ⟨rfl, path.writeViolation_mapType f _⟩

def turning : TypeModel Bool where
  Field := Bool
  Method := Empty
  findField type name := if name = "next" then some !type else none
  findMethod _ _ := none
  fieldType := id
  returnType := Empty.elim
  inspectable := some
  presentableName := toString

def staying : TypeModel Unit where
  Field := Unit
  Method := Empty
  findField _ name := if name = "next" then some () else none
  findMethod _ _ := none
  fieldType := id
  returnType := Empty.elim
  inspectable := some
  presentableName _ := "type"

def ownerTable : TypeTable := .ofList [
  ("Person", { fields := [{ name := "dog", type := "Dog" }] }),
  ("Dog", { methods := [{ name := "owner", returns := "Person" }] })]

theorem resolve_hom_swapped :
    turning.Hom staying (fun _ => ()) ∧
      staying.resolve () (Path.ofString "next.next") =
        (turning.resolve true (Path.ofString "next.next")).mapType (fun _ => ()) ∧
      Set.InjOn (Equiv.swap "Person" "Dog") (insert "Person" ownerTable.types) ∧
      (ownerTable.rename (Equiv.swap "Person" "Dog")).model.resolve "Dog"
          (Path.ofString "dog.owner().cat") =
        .missing ⟨2, ⟨.property, "cat", ⟨12, 15⟩, ⟨12, 15⟩⟩, "Dog"⟩ := by
  have hom : turning.Hom staying (fun _ => ()) := by
    refine ⟨fun type _ name => ?_, fun _ _ _ => rfl, fun _ _ => rfl⟩
    simp only [fieldTypeOn, turning, staying]
    split <;> rfl
  have injective : Set.InjOn (Equiv.swap "Person" "Dog") (insert "Person" ownerTable.types) :=
    (Equiv.swap "Person" "Dog").injective.injOn
  have renamed := (resolve_hom.2 ownerTable _ "Person" injective
    (Path.ofString "dog.owner().cat")).1
  have before : ownerTable.model.resolve "Person" (Path.ofString "dog.owner().cat") =
      .missing ⟨2, ⟨.property, "cat", ⟨12, 15⟩, ⟨12, 15⟩⟩, "Person"⟩ := by decide +kernel
  rw [before, Equiv.swap_apply_left] at renamed
  refine ⟨hom, (resolve_hom.1 hom true (Path.ofString "next.next")).1, injective, ?_⟩
  rw [renamed, Resolution.mapType, MissingMember.mapType, Equiv.swap_apply_left]

end TypeModel

end LensPath
