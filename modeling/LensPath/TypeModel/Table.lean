import LensPath.TypeModel
import LensPath.TypeModel.Declaration

/-!
Type tables: declarations by type name, kept in ascending order of the names. A type that is not
in the table is opaque.
-/

namespace LensPath

structure TypeTable where
  entries : List (String × TypeDecl)
  ascending : entries.Pairwise fun earlier later => earlier.1 < later.1
deriving DecidableEq, Repr

namespace TypeTable

def empty : TypeTable := ⟨[], .nil⟩

/-- Puts an entry at its place, or in the place of the entry of the same name. -/
def insertEntry (name : String) (decl : TypeDecl) :
    List (String × TypeDecl) → List (String × TypeDecl)
  | [] => [(name, decl)]
  | entry :: rest =>
      if name < entry.1 then (name, decl) :: entry :: rest
      else if entry.1 < name then entry :: insertEntry name decl rest
      else (name, decl) :: rest

theorem mem_insertEntry {name : String} {decl : TypeDecl} {entries : List (String × TypeDecl)}
    {entry : String × TypeDecl} (member : entry ∈ insertEntry name decl entries) :
    entry = (name, decl) ∨ entry ∈ entries := by
  induction entries with
  | nil => simpa [insertEntry] using member
  | cons first rest induction =>
      unfold insertEntry at member
      split at member
      · simpa using member
      · split at member
        · rcases List.mem_cons.mp member with rfl | member
          · exact .inr (by simp)
          · exact (induction member).imp id (by simp +contextual)
        · rcases List.mem_cons.mp member with rfl | member
          · exact .inl rfl
          · exact .inr (by simp [member])

theorem insertEntry_ascending {name : String} {decl : TypeDecl}
    {entries : List (String × TypeDecl)}
    (ascending : entries.Pairwise fun earlier later => earlier.1 < later.1) :
    (insertEntry name decl entries).Pairwise fun earlier later => earlier.1 < later.1 := by
  induction entries with
  | nil => simp [insertEntry]
  | cons first rest induction =>
      obtain ⟨above, rest_ascending⟩ := List.pairwise_cons.mp ascending
      unfold insertEntry
      split
      · next below =>
          refine List.pairwise_cons.mpr ⟨fun entry member => ?_, ascending⟩
          rcases List.mem_cons.mp member with rfl | member
          · exact below
          · exact String.lt_trans below (above entry member)
      · next notBelow =>
          split
          · next beyond =>
              refine List.pairwise_cons.mpr ⟨fun entry member => ?_, induction rest_ascending⟩
              rcases mem_insertEntry member with rfl | member
              · exact beyond
              · exact above entry member
          · next notBeyond =>
              have same : first.1 = name :=
                String.le_antisymm (String.not_lt.mp notBelow) (String.not_lt.mp notBeyond)
              exact List.pairwise_cons.mpr
                ⟨fun entry member => same ▸ above entry member, rest_ascending⟩

def insert (table : TypeTable) (name : String) (decl : TypeDecl) : TypeTable :=
  ⟨insertEntry name decl table.entries, insertEntry_ascending table.ascending⟩

/-- The table built from a list of declarations, of which the last of a name counts. -/
def ofList (entries : List (String × TypeDecl)) : TypeTable :=
  entries.foldl (fun table entry => table.insert entry.1 entry.2) empty

def size (table : TypeTable) : Nat := table.entries.length

def names (table : TypeTable) : List String := table.entries.map Prod.fst

def get? (table : TypeTable) (name : String) : Option TypeDecl := table.entries.lookup name

def contains (table : TypeTable) (name : String) : Bool := (table.get? name).isSome

/-- The name of a type without what qualifies it: of the part before the first `<`, only what
stands after the last dot is kept. -/
def presentableName (type : String) : String :=
  let base := type.toList.takeWhile (· != '<')
  let arguments := type.toList.dropWhile (· != '<')
  let simple := (base.reverse.takeWhile (· != '.')).reverse
  String.ofList (simple ++ arguments)

/-- A table as a type model. Only a class that is not declared inside another type hosts
lenses. -/
def model (table : TypeTable) : TypeModel String where
  Field := FieldDecl
  Method := MethodDecl
  findField type name := (table.get? type).bind (·.findField name)
  findMethod type name := (table.get? type).bind (·.findMethod name)
  fieldType field := field.type
  returnType method := method.returns
  inspectable type := if table.contains type then some type else none
  presentableName := presentableName
  isHost type :=
    match table.get? type with
    | some decl => decl.kind == .classType && !decl.isNested
    | none => false

theorem contains_iff {table : TypeTable} {name : String} :
    table.contains name = true ↔ ∃ decl, table.get? name = some decl :=
  Option.isSome_iff_exists

theorem inspectable_eq_some_iff {table : TypeTable} {type next : String} :
    table.model.inspectable type = some next ↔ table.contains type = true ∧ type = next := by
  simp only [model, Option.ite_none_right_eq_some, Option.some.injEq]

theorem contains_of_isHost {table : TypeTable} {type : String}
    (host : table.model.isHost type = true) : table.contains type = true := by
  refine contains_iff.mpr ?_
  cases found : table.get? type with
  | some decl => exact ⟨decl, rfl⟩
  | none => simp [model, found] at host

end TypeTable

end LensPath
