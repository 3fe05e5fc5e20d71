import LensPath.Manifest
import LensPath.Proofs.Json.Kept
import LensPath.Proofs.Manifest.RoundTrip

/-!
Manifests that are put together from a table and lenses read as what they were put together from.
The members of an object go to two readers by their names, wherever they stand among others.
-/

namespace LensPath

open Json

/-! ## Objects that are split -/

section

variable {omittable : List (String × Value)} {related : Value → Value → Prop}
variable {entries kept further written : List (String × Value)}

/-- In an object that is split, the members that are read at once and those that are read when it is
over do not get in each other's way, and further members do not count. -/
theorem meaning_split_of_keepsAll {name : String} {direct : Members σ γ} {later : Members ρ δ}
    {build : γ → δ → α} (values : γ) (others : δ) (plain : later.IsPlain)
    (apart : ∀ name, later.knows name = true → direct.knows name = false)
    (directKeeps : KeepsAll omittable related direct entries values)
    (laterKeeps : KeepsAll omittable related later entries others)
    (chosen : KeptMembers omittable related entries kept)
    (unknown : ∀ entry ∈ further, direct.knows entry.1 = false ∧ later.knows entry.1 = false)
    (permuted : (kept ++ further).Perm written) :
    (Shape.split name direct later build).meaning (.object written) =
      some (build values others) := by
  have directly : direct.meaning written = some values := by
    rw [← meaning_perm direct permuted,
      meaning_append_unknown direct kept fun entry member => (unknown entry member).1]
    exact directKeeps kept chosen
  have afterwards : later.meaning (written.filter fun entry => !direct.knows entry.1) =
      some others := by
    rw [meaning_filter_apart apart, ← meaning_perm later permuted,
      meaning_append_unknown later kept fun entry member => (unknown entry member).2]
    exact laterKeeps kept chosen
  exact meaning_split_iff.mpr
    ⟨written, values, others, rfl, directly, ofKept_of_meaning plain afterwards, rfl⟩

end

/-! ## Lenses of a manifest -/

/-- The object of a lens of a manifest: its root and the members of its declaration, with or without
those that have their defaults, together with further members of other names, in any order. -/
inductive Manifest.EntryWritten (entry : Manifest.Entry) : Value → Prop
  | intro {kept further written : List (String × Value)}
      (chosen : KeptMembers declaredDefaults Eq
        [("root", .text entry.root), ("path", .text entry.lens.path),
          ("mode", entry.lens.mode.toJson), ("offset", .number (.natural entry.lens.offset))] kept)
      (unknown : ∀ member ∈ further, member.1 ∉ ["root", "path", "mode", "offset"])
      (permuted : (kept ++ further).Perm written) : EntryWritten entry (.object written)

/-- The object of a manifest: its types and its lenses, either of which may be left out where there
are none, together with further members of other names, in any order. -/
inductive Manifest.Written (manifest : Manifest) : Value → Prop
  | intro {lenses : List Value} {kept further written : List (String × Value)}
      (each : List.Forall₂ EntryWritten manifest.entries lenses)
      (chosen : KeptMembers [("types", .object []), ("lenses", .list [])] Eq
        [("types", .object (manifest.model.entries.map fun entry => (entry.1, entry.2.toJson))),
          ("lenses", .list lenses)] kept)
      (unknown : ∀ member ∈ further, member.1 ∉ ["types", "lenses"])
      (permuted : (kept ++ further).Perm written) : Written manifest (.object written)

namespace Manifest

theorem lensMembers_isPlain : Lens.members.IsPlain := by
  simp [Lens.members, Members.IsPlain, Shape.IsPlain, Lens.Mode.shape]

theorem tableMembers_isPlain : TypeTable.members.IsPlain := by
  simp [TypeTable.members, Members.IsPlain, Shape.IsPlain, TypeDecl.shape, TypeKind.shape,
    FieldDecl.shape, MethodDecl.shape]

theorem types_apart (name : String) (known : TypeTable.members.knows name = true) :
    (Members.member "lenses" (.list Entry.shape) (some []) .nil).knows name = false := by
  simp only [TypeTable.members, Members.knows, Bool.or_false, beq_iff_eq] at known
  rw [← known]
  decide

theorem lens_apart (name : String) (known : Lens.members.knows name = true) :
    (Members.member "root" Shape.text none .nil).knows name = false := by
  simp only [Lens.members, Members.knows, Bool.or_false, Bool.or_eq_true, beq_iff_eq] at known
  rcases known with rfl | rfl | rfl <;> decide

theorem EntryWritten.meaning {entry : Manifest.Entry} {json : Value}
    (written : EntryWritten entry json) : Entry.shape.meaning json = some entry := by
  obtain ⟨chosen, unknown, permuted⟩ := written
  refine meaning_split_of_keepsAll (entry.root, ())
    (entry.lens.path, entry.lens.mode, entry.lens.offset, ()) lensMembers_isPlain lens_apart
    ?_ ?_ chosen (fun member found => ?_) permuted
  · exact keepsAll_cons (by simp) (fun other same => same ▸ meaning_text_iff.mpr rfl)
      (by simp [declaredDefaults]) (keepsAll_nil _)
  · exact keepsAll_skip (by decide) (keepsAll_lens entry.lens).of_eq
  · have others := unknown member found
    simp only [List.mem_cons, List.not_mem_nil, or_false, not_or] at others
    obtain ⟨noRoot, noPath, noMode, noOffset⟩ := others
    simp [Members.knows, Lens.members, Ne.symm noRoot, Ne.symm noPath, Ne.symm noMode,
      Ne.symm noOffset]

theorem Written.meaning {manifest : Manifest} {json : Value}
    (written : Written manifest json) : Manifest.shape.meaning json = some manifest := by
  obtain ⟨each, chosen, unknown, permuted⟩ := written
  rename_i lenses kept further written
  have listed : (Shape.list Entry.shape).meaning (.list lenses) = some manifest.entries :=
    meaning_list_iff.mpr ⟨lenses, rfl, mapM_eq_some_iff.mpr
      (each.imp fun entry json => EntryWritten.meaning).flip⟩
  have means : Manifest.shape.meaning (.object written) =
      some ⟨TypeTable.ofList manifest.model.entries, manifest.entries⟩ := by
    refine meaning_split_of_keepsAll (manifest.entries, ()) (manifest.model.entries, ())
      tableMembers_isPlain types_apart ?_ ?_ chosen (fun member found => ?_) permuted
    · refine keepsAll_skip (by decide) <|
        keepsAll_cons (by simp) (fun other same => same ▸ listed) ?_ (keepsAll_nil _)
      intro omitted
      have noLenses : lenses = [] := by simpa using omitted
      rw [noLenses, List.forall₂_nil_right_iff] at each
      rw [each]
    · refine keepsAll_cons (by simp)
        (fun other same => same ▸ TypeTable.meaning_types manifest.model.entries) ?_ (keepsAll_nil _)
      simp +contextual
    · have others := unknown member found
      simp only [List.mem_cons, List.not_mem_nil, or_false, not_or] at others
      simp [Members.knows, TypeTable.members, Ne.symm others.1, Ne.symm others.2]
  rw [means, TypeTable.ofList_of_perm (.refl _)]

/-- A manifest that is put together from a table and lenses reads as that table and those lenses,
from every text that says it. -/
theorem decode_written {manifest : Manifest} {json : Value} {text : String}
    (written : Written manifest json) (shallow : json.Fits maxDepth)
    (spelled : json.SpelledBy text.toList) : decode Manifest.shape text = .ok manifest := by
  have decoded := decode_of_meaning spelled shallow written.meaning
  rwa [String.ofList_toList] at decoded

/-- A lens with a remark, its path in front of its root and without what is the default. -/
def remarkedLens : Value :=
  .object [("path", .text "b"), ("root", .text "A"), ("remark", .flag true)]

def notedManifest : Value :=
  .object [("lenses", .list [remarkedLens]), ("types", .object [("A", TypeDecl.toJson {})]),
    ("note", .null)]

theorem entryWritten_remarkedLens : EntryWritten ⟨"A", { path := "b" }⟩ remarkedLens :=
  @EntryWritten.intro _ [("root", .text "A"), ("path", .text "b")] [("remark", .flag true)] _
    (.keep rfl <| .keep rfl <|
      .drop (by simp [declaredDefaults, Lens.Mode.toJson, Lens.Mode.display]) <|
      .drop (by simp [declaredDefaults]) .nil)
    (by simp) (.swap _ _ _)

theorem fits_notedManifest : notedManifest.Fits maxDepth := by
  have lens : remarkedLens.Fits 1 := by
    refine .object ?_
    simp only [List.forall_mem_cons]
    exact ⟨.text _, .text _, .flag _, by simp⟩
  refine Value.Fits.mono (.object ?_) (by decide : 6 ≤ maxDepth)
  simp only [List.forall_mem_cons]
  exact ⟨.list (by simpa using lens.mono (by decide)),
    .object (by simpa using fits_typeDecl {}), .null, by simp⟩

theorem exact_notedManifest : notedManifest.Exact := by
  have lens : remarkedLens.Exact := by
    refine .object ?_
    simp only [List.forall_mem_cons]
    exact ⟨.text _, .text _, .flag _, by simp⟩
  refine .object ?_
  simp only [List.forall_mem_cons]
  exact ⟨.list (by simpa using lens), .object (by simpa using exact_typeDecl {}), .null, by simp⟩

theorem decode_written_noted :
    decode Manifest.shape notedManifest.render =
      .ok ⟨TypeTable.empty.insert "A" {}, [⟨"A", { path := "b" }⟩]⟩ := by
  have written : Written ⟨TypeTable.empty.insert "A" {}, [⟨"A", { path := "b" }⟩]⟩ notedManifest :=
    @Written.intro _ [remarkedLens] [("types", .object [("A", TypeDecl.toJson {})]),
        ("lenses", .list [remarkedLens])] [("note", .null)] _
      (.cons entryWritten_remarkedLens .nil) (.keep rfl <| .keep rfl .nil) (by simp) (.swap _ _ _)
  refine decode_written written fits_notedManifest ?_
  rw [Value.render, String.toList_ofList]
  exact spelledBy_renderChars exact_notedManifest

end Manifest

end LensPath
