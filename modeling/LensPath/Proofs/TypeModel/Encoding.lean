import LensPath.Proofs.Json.Loosened
import LensPath.Proofs.TypeModel.Insertion
import LensPath.TypeModel.Encoding

/-!
Type tables and their parts as JSON: what is written means what was written, also with the members
in another order and without those that have their declared defaults.
-/

namespace LensPath

open Json

def declaredDefaults : List (String × Value) :=
  [("types", .object []), ("kind", .text "class"), ("nested", .flag false), ("fields", .list []),
    ("methods", .list []), ("static", .flag false), ("params", .list []), ("mode", .text "read"),
    ("offset", .number (.natural 0))]

/-! ## Parts of tables -/

theorem keeps_typeKind (kind : TypeKind) :
    Keeps declaredDefaults TypeKind.shape kind.toJson kind := by
  cases kind <;> exact keeps_choice (by decide)

theorem keeps_fieldDecl (field : FieldDecl) :
    Keeps declaredDefaults FieldDecl.shape field.toJson field :=
  keeps_record <|
    keepsAll_cons (by simp) (keeps_text field.name) (by simp [declaredDefaults]) <|
    keepsAll_cons (by simp) (keeps_text field.type) (by simp [declaredDefaults]) <|
    keepsAll_cons (by simp) (keeps_flag field.isStatic) (by simp +contextual [declaredDefaults]) <|
    keepsAll_nil []

theorem keeps_methodDecl (method : MethodDecl) :
    Keeps declaredDefaults MethodDecl.shape method.toJson method :=
  keeps_record <|
    keepsAll_cons (by simp) (keeps_text method.name) (by simp [declaredDefaults]) <|
    keepsAll_cons (by simp) (keeps_text method.returns) (by simp [declaredDefaults]) <|
    keepsAll_cons (by simp) (keeps_list fun type _ => keeps_text type)
      (by simp +contextual [declaredDefaults]) <|
    keepsAll_cons (by simp) (keeps_flag method.isStatic) (by simp +contextual [declaredDefaults]) <|
    keepsAll_nil []

theorem keeps_typeDecl (decl : TypeDecl) :
    Keeps declaredDefaults TypeDecl.shape decl.toJson decl :=
  keeps_record <|
    keepsAll_cons (by simp) (keeps_typeKind decl.kind)
      (by cases decl.kind <;> simp [declaredDefaults, TypeKind.toJson, TypeKind.name]) <|
    keepsAll_cons (by simp) (keeps_flag decl.isNested) (by simp +contextual [declaredDefaults]) <|
    keepsAll_cons (by simp) (keeps_list fun field _ => keeps_fieldDecl field)
      (by simp +contextual [declaredDefaults]) <|
    keepsAll_cons (by simp) (keeps_list fun method _ => keeps_methodDecl method)
      (by simp +contextual [declaredDefaults]) <|
    keepsAll_nil []

/-! ## Tables -/

namespace TypeTable

theorem perm_insertEntry {name : String} {decl : TypeDecl} {entries : List (String × TypeDecl)}
    (fresh : ∀ entry ∈ entries, name ≠ entry.1) :
    (insertEntry name decl entries).Perm ((name, decl) :: entries) := by
  induction entries with
  | nil => exact .refl _
  | cons entry rest induction =>
      obtain ⟨other, later⟩ := List.forall_mem_cons.mp fresh
      rw [insertEntry]
      split
      · exact .refl _
      · next notBelow =>
          split
          · exact ((induction later).cons entry).trans (.swap _ _ _)
          · next notBeyond =>
              exact absurd (String.le_antisymm (String.not_lt.mp notBeyond)
                (String.not_lt.mp notBelow)) other

theorem distinct_of_perm {entries others : List (String × TypeDecl)}
    (permuted : entries.Perm others)
    (distinct : entries.Pairwise fun earlier later => earlier.1 ≠ later.1) :
    others.Pairwise fun earlier later => earlier.1 ≠ later.1 :=
  permuted.pairwise distinct fun apart => Ne.symm apart

theorem perm_insertAll (entries : List (String × TypeDecl)) {table : TypeTable}
    (distinct : (table.entries ++ entries).Pairwise fun earlier later => earlier.1 ≠ later.1) :
    (entries.foldl (fun table entry => table.insert entry.1 entry.2) table).entries.Perm
      (table.entries ++ entries) := by
  induction entries generalizing table with
  | nil => simp
  | cons entry rest induction =>
      have fresh : ∀ other ∈ table.entries, entry.1 ≠ other.1 := fun other member =>
        ((List.pairwise_append.mp distinct).2.2 other member entry List.mem_cons_self).symm
      have moved : ((table.insert entry.1 entry.2).entries ++ rest).Perm
          (table.entries ++ entry :: rest) :=
        ((perm_insertEntry fresh).append_right rest).trans List.perm_middle.symm
      exact (induction (distinct_of_perm moved.symm distinct)).trans moved

theorem eq_of_perm {table other : TypeTable} (permuted : table.entries.Perm other.entries) :
    table = other := by
  have same : table.entries = other.entries :=
    permuted.eq_of_pairwise (fun _ _ _ _ below above => absurd below (String.lt_asymm above))
      table.ascending other.ascending
  cases table
  cases other
  cases same
  rfl

theorem ofList_of_perm {table : TypeTable} {entries : List (String × TypeDecl)}
    (permuted : entries.Perm table.entries) : ofList entries = table := by
  have distinct := distinct_of_perm permuted.symm table.entries_distinct
  exact eq_of_perm ((@perm_insertAll entries empty distinct).trans permuted)

theorem meaning_types (entries : List (String × TypeDecl)) :
    (Shape.table TypeDecl.shape).meaning
      (.object (entries.map fun entry => (entry.1, entry.2.toJson))) = some entries := by
  refine meaning_table_iff.mpr ⟨_, rfl, mapM_eq_some_iff.mpr ?_⟩
  rw [List.forall₂_map_left_iff, List.forall₂_same]
  intro entry _
  rw [keeps_typeDecl entry.2 _ (.same _)]
  rfl

/-- Declarations as the object of a table, in the order in which they come, also where a name
comes again. -/
def entriesToJson (entries : List (String × TypeDecl)) : Value :=
  .object [("types", .object (entries.map fun entry => (entry.1, entry.2.toJson)))]

theorem meaning_entriesToJson (entries : List (String × TypeDecl)) :
    TypeTable.shape.meaning (entriesToJson entries) = some (ofList entries) := by
  refine meaning_record_iff.mpr ⟨(entries, ()), rfl, .inr ⟨_, rfl, ?_⟩⟩
  simp [members, Members.meaning, valuesOf, oneOf, meaning_types]

end TypeTable

theorem keeps_typeTable (table : TypeTable) :
    Keeps declaredDefaults TypeTable.shape table.toJson table := by
  intro other loosened
  obtain ⟨kept, written, rfl, members, permuted⟩ := loosened.exists_object
  have means : ∃ found, TypeTable.members.meaning kept = some (found, ()) ∧
      TypeTable.ofList found = table := by
    cases members with
    | keep same later =>
        cases later
        obtain ⟨found, means, reordered⟩ := exists_meaning_table
          (fun found _ => by simp [declaredDefaults, TypeDecl.toJson])
          (fun found _ => keeps_typeDecl found.2) same
        refine ⟨found, ?_, TypeTable.ofList_of_perm reordered⟩
        simp [TypeTable.members, Members.meaning, valuesOf, oneOf, means]
    | drop isOmittable later =>
        cases later
        have none : table.entries = [] := by simpa [declaredDefaults] using isOmittable
        refine ⟨[], ?_, TypeTable.ofList_of_perm (none ▸ .refl [])⟩
        simp [TypeTable.members, Members.meaning, valuesOf, oneOf]
  obtain ⟨found, means, built⟩ := means
  exact meaning_record_iff.mpr ⟨(found, ()), built, .inr ⟨written, rfl, by
    rw [← meaning_perm _ permuted, means]⟩⟩

end LensPath
