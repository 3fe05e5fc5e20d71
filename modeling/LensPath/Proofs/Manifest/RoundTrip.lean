import LensPath.Lens.Encoding
import LensPath.Proofs.Json.Stream
import LensPath.Proofs.TypeModel.Encoding

/-!
What is written is read again: tables, their parts and lens declarations, also when the members of
their objects are put in another order and those that have their declared defaults are left out.
-/

namespace LensPath

open Json

/-! ## Lenses -/

theorem keeps_mode (mode : Lens.Mode) :
    Keeps declaredDefaults Lens.Mode.shape mode.toJson mode := by
  cases mode <;> exact keeps_choice (by decide)

theorem keepsAll_lens (lens : Lens) :
    KeepsAll declaredDefaults (Loosened declaredDefaults) Lens.members
      [("path", .text lens.path), ("mode", lens.mode.toJson),
        ("offset", .number (.natural lens.offset))]
      (lens.path, lens.mode, lens.offset, ()) :=
  keepsAll_cons (by simp) (keeps_text lens.path) (by simp [declaredDefaults]) <|
    keepsAll_cons (by simp) (keeps_mode lens.mode)
      (by cases lens.mode <;> simp [declaredDefaults, Lens.Mode.toJson, Lens.Mode.display]) <|
    keepsAll_cons (by simp) (keeps_offset lens.offset)
      (by simp +contextual [declaredDefaults]) <|
    keepsAll_nil []

theorem keeps_lens (lens : Lens) : Keeps declaredDefaults Lens.shape lens.toJson lens :=
  keeps_record (keepsAll_lens lens)

/-! ## Depth and numbers -/

theorem fits_list {room : Nat} {encode : α → Value} (values : List α)
    (each : ∀ value, (encode value).Fits room) : (Value.list (values.map encode)).Fits (room + 1) :=
  .list (List.forall_mem_map.mpr fun value _ => each value)

theorem exact_list {encode : α → Value} (values : List α)
    (each : ∀ value, (encode value).Exact) : (Value.list (values.map encode)).Exact :=
  .list (List.forall_mem_map.mpr fun value _ => each value)

theorem fits_fieldDecl (field : FieldDecl) : field.toJson.Fits 1 := by
  refine .object ?_
  simp only [List.forall_mem_cons]
  exact ⟨.text _, .text _, .flag _, by simp⟩

theorem exact_fieldDecl (field : FieldDecl) : field.toJson.Exact := by
  refine .object ?_
  simp only [List.forall_mem_cons]
  exact ⟨.text _, .text _, .flag _, by simp⟩

theorem fits_methodDecl (method : MethodDecl) : method.toJson.Fits 2 := by
  refine .object ?_
  simp only [List.forall_mem_cons]
  exact ⟨.text _, .text _, fits_list _ .text, .flag _, by simp⟩

theorem exact_methodDecl (method : MethodDecl) : method.toJson.Exact := by
  refine .object ?_
  simp only [List.forall_mem_cons]
  exact ⟨.text _, .text _, exact_list _ .text, .flag _, by simp⟩

theorem fits_typeDecl (decl : TypeDecl) : decl.toJson.Fits 4 := by
  refine .object ?_
  simp only [List.forall_mem_cons]
  exact ⟨.text _, .flag _, fits_list _ fun field => (fits_fieldDecl field).mono (by decide),
    fits_list _ fits_methodDecl, by simp⟩

theorem exact_typeDecl (decl : TypeDecl) : decl.toJson.Exact := by
  refine .object ?_
  simp only [List.forall_mem_cons]
  exact ⟨.text _, .flag _, exact_list _ exact_fieldDecl, exact_list _ exact_methodDecl, by simp⟩

theorem fits_entriesToJson (entries : List (String × TypeDecl)) :
    (TypeTable.entriesToJson entries).Fits 6 := by
  refine .object ?_
  simp only [List.forall_mem_cons]
  exact ⟨.object (List.forall_mem_map.mpr fun entry _ => fits_typeDecl entry.2), by simp⟩

theorem fits_typeTable (table : TypeTable) : table.toJson.Fits 6 :=
  fits_entriesToJson table.entries

theorem exact_entriesToJson (entries : List (String × TypeDecl)) :
    (TypeTable.entriesToJson entries).Exact := by
  refine .object ?_
  simp only [List.forall_mem_cons]
  exact ⟨.object (List.forall_mem_map.mpr fun entry _ => exact_typeDecl entry.2), by simp⟩

theorem exact_typeTable (table : TypeTable) : table.toJson.Exact :=
  exact_entriesToJson table.entries

theorem fits_lens (lens : Lens) : lens.toJson.Fits 1 := by
  refine .object ?_
  simp only [List.forall_mem_cons]
  exact ⟨.text _, .text _, .number _, by simp⟩

theorem exact_lens {lens : Lens} (bounded : lens.offset < offsetBound) : lens.toJson.Exact := by
  refine .object ?_
  simp only [List.forall_mem_cons]
  exact ⟨.text _, .text _, .number bounded, by simp⟩

/-! ## Reading again -/

theorem decode_of_keeps {shape : Shape α} {value json : Value} {found : α} {room : Nat}
    (keeps : Keeps declaredDefaults shape value found) (exact : value.Exact)
    (fits : value.Fits room) (shallow : room ≤ maxDepth)
    (loosened : Loosened declaredDefaults value json) : decode shape json.render = .ok found :=
  decode_of_meaning (spelledBy_renderChars (loosened.exact exact))
    ((loosened.fits fits).mono shallow) (keeps json loosened)

/-- The compact text of what was written reads as what was written, whatever the order of the
members in its objects and whichever of the members with a declared default are left out. -/
theorem decode_render_of_loosened (json : Value) :
    (∀ table : TypeTable, Loosened declaredDefaults table.toJson json →
      decode TypeTable.shape json.render = .ok table) ∧
    (∀ decl : TypeDecl, Loosened declaredDefaults decl.toJson json →
      decode TypeDecl.shape json.render = .ok decl) ∧
    (∀ field : FieldDecl, Loosened declaredDefaults field.toJson json →
      decode FieldDecl.shape json.render = .ok field) ∧
    (∀ method : MethodDecl, Loosened declaredDefaults method.toJson json →
      decode MethodDecl.shape json.render = .ok method) ∧
    (∀ lens : Lens, lens.offset < offsetBound → Loosened declaredDefaults lens.toJson json →
      decode Lens.shape json.render = .ok lens) := by
  refine ⟨fun table loosened => ?_, fun decl loosened => ?_, fun field loosened => ?_,
    fun method loosened => ?_, fun lens bounded loosened => ?_⟩
  · exact decode_of_keeps (keeps_typeTable table) (exact_typeTable table) (fits_typeTable table)
      (by decide) loosened
  · exact decode_of_keeps (keeps_typeDecl decl) (exact_typeDecl decl) (fits_typeDecl decl)
      (by decide) loosened
  · exact decode_of_keeps (keeps_fieldDecl field) (exact_fieldDecl field) (fits_fieldDecl field)
      (by decide) loosened
  · exact decode_of_keeps (keeps_methodDecl method) (exact_methodDecl method)
      (fits_methodDecl method) (by decide) loosened
  · exact decode_of_keeps (keeps_lens lens) (exact_lens bounded) (fits_lens lens) (by decide)
      loosened

theorem decode_render_of_loosened_shortened :
    decode TypeTable.shape
        (Value.object [("types", .object [("B", .object []),
          ("A", .object [("nested", .flag true)])])]).render =
      .ok ((TypeTable.empty.insert "A" { isNested := true }).insert "B" {}) ∧
    decode Lens.shape
        (Value.object [("offset", .number (.natural 3)), ("path", .text "b")]).render =
      .ok { path := "b", offset := 3 } := by
  -- The types stand in another order, and the second one has nothing but defaults.
  have first : Loosened declaredDefaults (TypeDecl.toJson { isNested := true })
      (.object [("nested", .flag true)]) :=
    .object (.drop (by simp [declaredDefaults]; rfl) <| .keep (.same _) <|
      .drop (by simp [declaredDefaults]) <| .drop (by simp [declaredDefaults]) .nil) (.refl _)
  have second : Loosened declaredDefaults (TypeDecl.toJson {}) (.object []) :=
    .object (.drop (by simp [declaredDefaults]; rfl) <| .drop (by simp [declaredDefaults]) <|
      .drop (by simp [declaredDefaults]) <| .drop (by simp [declaredDefaults]) .nil) (.refl _)
  exact ⟨(decode_render_of_loosened _).1
      ((TypeTable.empty.insert "A" { isNested := true }).insert "B" {})
      (.object (.keep (.object (.keep first <| .keep second .nil) (.swap _ _ _)) .nil) (.refl _)),
    (decode_render_of_loosened _).2.2.2.2 { path := "b", offset := 3 } (by decide)
      (.object (.keep (.same _) <| .drop (by simp [declaredDefaults]; rfl) <|
        .keep (.same _) .nil) (.swap _ _ _))⟩
end LensPath
