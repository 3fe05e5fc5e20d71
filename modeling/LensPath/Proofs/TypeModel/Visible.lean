import LensPath.Proofs.Inspection.Shifted
import LensPath.Proofs.TypeModel.Insertion

/-!
The visible part of a table: of each declaration, the members that a path can reach, and of several
of one name the first. Nothing else in a table is ever looked at, so every answer is the same
without it.
-/

namespace LensPath

section Members

variable {α : Type} (visible : α → Bool) (name : α → String)

/-- The members that can be reached, in order. Only the first of each name is. -/
def visibleMembers (members : List α) : List α :=
  (members.filter visible).eraseDupsBy fun later earlier => name later == name earlier

/-- A member that stands behind these is not reached: it is not visible, or one of its name is
before it. -/
def HiddenBehind (before : List α) (member : α) : Prop :=
  visible member = false ∨ ∃ earlier ∈ before, visible earlier = true ∧ name earlier = name member

def reachedBy (wanted : String) (member : α) : Bool := visible member && name member == wanted

variable {visible name}

theorem reachedBy_iff {wanted : String} {member : α} :
    reachedBy visible name wanted member = true ↔
      visible member = true ∧ name member = wanted := by
  rw [reachedBy, Bool.and_eq_true, beq_iff_eq]

theorem find?_filter_otherName {member : α} {wanted : String} (other : name member ≠ wanted)
    (members : List α) :
    (members.filter fun later => (name later == name member) = false).find?
        (reachedBy visible name wanted) = members.find? (reachedBy visible name wanted) := by
  rw [List.find?_filter]
  congr 1
  funext later
  by_cases named : name later = wanted
  · simp [named, other.symm]
  · simp [reachedBy, named]

theorem find?_eraseDupsBy (wanted : String) (members : List α)
    (allVisible : ∀ member ∈ members, visible member = true) :
    (members.eraseDupsBy fun later earlier => name later == name earlier).find?
        (reachedBy visible name wanted) = members.find? (reachedBy visible name wanted) := by
  match members with
  | [] => rfl
  | member :: rest =>
      obtain ⟨memberVisible, restVisible⟩ := List.forall_mem_cons.mp allVisible
      rw [List.eraseDupsBy_cons]
      -- What is erased has the name of `member`: the search ends there, or looks for another name.
      by_cases named : name member = wanted
      · have reached := reachedBy_iff.mpr ⟨memberVisible, named⟩
        rw [List.find?_cons_of_pos reached, List.find?_cons_of_pos reached]
      · have passed : ¬ reachedBy visible name wanted member = true :=
          fun reached => named (reachedBy_iff.mp reached).2
        rw [List.find?_cons_of_neg passed, List.find?_cons_of_neg passed,
          find?_eraseDupsBy wanted _ fun later kept => restVisible later (List.mem_filter.mp kept).1,
          find?_filter_otherName named]
termination_by members.length
decreasing_by exact Nat.lt_succ_of_le (List.length_filter_le ..)

theorem find?_visibleMembers (wanted : String) (members : List α) :
    (visibleMembers visible name members).find? (reachedBy visible name wanted) =
      members.find? (reachedBy visible name wanted) := by
  rw [visibleMembers, find?_eraseDupsBy wanted _ fun member kept => (List.mem_filter.mp kept).2,
    List.find?_filter]
  congr 1
  funext member
  rw [Bool.eq_iff_iff]
  simp [reachedBy]

theorem find?_of_hiddenBehind {before : List α} {member : α}
    (hidden : HiddenBehind visible name before member) (after : List α) (wanted : String) :
    (before ++ member :: after).find? (reachedBy visible name wanted) =
      (before ++ after).find? (reachedBy visible name wanted) := by
  rw [List.find?_append, List.find?_append]
  by_cases reached : reachedBy visible name wanted member = true
  · obtain ⟨isVisible, named⟩ := reachedBy_iff.mp reached
    rcases hidden with invisible | ⟨earlier, isBefore, earlierVisible, sameName⟩
    · cases invisible.symm.trans isVisible
    · have found : (before.find? (reachedBy visible name wanted)).isSome := List.find?_isSome.mpr
        ⟨earlier, isBefore, reachedBy_iff.mpr ⟨earlierVisible, sameName.trans named⟩⟩
      obtain ⟨first, found⟩ := Option.isSome_iff_exists.mp found
      rw [found, Option.some_or, Option.some_or]
  · rw [List.find?_cons_of_neg reached]

end Members

namespace TypeDecl

structure Alike (decl other : TypeDecl) : Prop where
  kind : decl.kind = other.kind
  isNested : decl.isNested = other.isNested
  findField : ∀ name, decl.findField name = other.findField name
  findMethod : ∀ name, decl.findMethod name = other.findMethod name

theorem Alike.refl (decl : TypeDecl) : decl.Alike decl := ⟨rfl, rfl, fun _ => rfl, fun _ => rfl⟩

def visiblePart (decl : TypeDecl) : TypeDecl :=
  { decl with
    fields := visibleMembers FieldDecl.isVisible FieldDecl.name decl.fields
    methods := visibleMembers MethodDecl.isVisible MethodDecl.name decl.methods }

theorem visiblePart_alike (decl : TypeDecl) : decl.visiblePart.Alike decl :=
  ⟨rfl, rfl, fun name => find?_visibleMembers name decl.fields,
    fun name => find?_visibleMembers name decl.methods⟩

variable {decl : TypeDecl}

theorem alike_of_hiddenField {before after : List FieldDecl} {field : FieldDecl}
    (fields : decl.fields = before ++ field :: after)
    (hidden : HiddenBehind FieldDecl.isVisible FieldDecl.name before field) :
    { decl with fields := before ++ after }.Alike decl := by
  refine ⟨rfl, rfl, fun name => ?_, fun _ => rfl⟩
  rw [findField, findField, fields]
  exact (find?_of_hiddenBehind hidden after name).symm

theorem alike_of_hiddenMethod {before after : List MethodDecl} {method : MethodDecl}
    (methods : decl.methods = before ++ method :: after)
    (hidden : HiddenBehind MethodDecl.isVisible MethodDecl.name before method) :
    { decl with methods := before ++ after }.Alike decl := by
  refine ⟨rfl, rfl, fun _ => rfl, fun name => ?_⟩
  rw [findMethod, findMethod, methods]
  exact (find?_of_hiddenBehind hidden after name).symm

end TypeDecl

namespace TypeTable

theorem model_eq_of_alike {table other : TypeTable}
    (alike : ∀ name, Option.Rel TypeDecl.Alike (table.get? name) (other.get? name)) :
    table.model = other.model := by
  have fields (type name : String) :
      ((table.get? type).bind fun decl => decl.findField name) =
        (other.get? type).bind fun decl => decl.findField name := by
    match table.get? type, other.get? type, alike type with
    | none, none, _ => rfl
    | some _, some _, .some same => exact same.findField name
  have methods (type name : String) :
      ((table.get? type).bind fun decl => decl.findMethod name) =
        (other.get? type).bind fun decl => decl.findMethod name := by
    match table.get? type, other.get? type, alike type with
    | none, none, _ => rfl
    | some _, some _, .some same => exact same.findMethod name
  have known (type : String) : table.contains type = other.contains type := by
    rw [contains, contains]
    match table.get? type, other.get? type, alike type with
    | none, none, _ | some _, some _, _ => rfl
  have hosts : table.model.isHost = other.model.isHost := by
    funext type
    simp only [model]
    match table.get? type, other.get? type, alike type with
    | none, none, _ => rfl
    | some _, some _, .some same => simp only [same.kind, same.isNested]
  simp only [model] at hosts ⊢
  simp only [fields, methods, known, hosts]

def visiblePart (table : TypeTable) : TypeTable :=
  ⟨table.entries.map fun entry => (entry.1, entry.2.visiblePart),
    List.pairwise_map.mpr table.ascending⟩

theorem get?_visiblePart (table : TypeTable) (name : String) :
    table.visiblePart.get? name = (table.get? name).map (·.visiblePart) :=
  lookup_map (f := id) TypeDecl.visiblePart table.entries fun _ _ same => same

theorem model_visiblePart (table : TypeTable) : table.visiblePart.model = table.model := by
  apply model_eq_of_alike
  intro name
  rw [get?_visiblePart]
  cases table.get? name with
  | none => exact .none
  | some decl => exact .some decl.visiblePart_alike

theorem model_insert_of_alike (table : TypeTable) (name : String) {decl other : TypeDecl}
    (alike : decl.Alike other) : (table.insert name decl).model = (table.insert name other).model := by
  apply model_eq_of_alike
  intro type
  rw [get?_insert, get?_insert]
  split
  · exact .some alike
  · cases table.get? type with
    | none => exact .none
    | some decl => exact .some (.refl decl)

end TypeTable

structure TypeModel.Agrees (model other : TypeModel τ) : Prop where
  resolve : ∀ root path, model.resolve root path = other.resolve root path
  writeViolation : ∀ root (path : Path) mode,
    path.writeViolation (model.resolve root path) mode =
      path.writeViolation (other.resolve root path) mode
  check : ∀ root lens, model.check root lens = other.check root lens
  checkInto : ∀ {σ : Type} root (sink : Sink σ) lens state,
    model.checkInto root sink lens state = other.checkInto root sink lens state
  checkAllInto : ∀ {σ : Type} root (sink : Sink σ) lenses state,
    model.checkAllInto root sink lenses state = other.checkAllInto root sink lenses state
  inspect : ∀ root lenses, model.inspect root lenses = other.inspect root lenses

theorem TypeModel.Agrees.of_eq {model other : TypeModel τ} (same : model = other) :
    model.Agrees other := by
  subst same
  constructor <;> intros <;> rfl

namespace TypeTable

/-- A table and its visible part give the same answers, and so does a table without a member that
is hidden behind those before it. -/
theorem visiblePart_agrees (table : TypeTable) :
    table.visiblePart.model.Agrees table.model ∧
    ∀ (name : String) (decl : TypeDecl),
      (∀ before field after, decl.fields = before ++ field :: after →
        HiddenBehind FieldDecl.isVisible FieldDecl.name before field →
        (table.insert name { decl with fields := before ++ after }).model.Agrees
          (table.insert name decl).model) ∧
      ∀ before method after, decl.methods = before ++ method :: after →
        HiddenBehind MethodDecl.isVisible MethodDecl.name before method →
        (table.insert name { decl with methods := before ++ after }).model.Agrees
          (table.insert name decl).model := by
  refine ⟨.of_eq table.model_visiblePart, fun name decl => ⟨?_, ?_⟩⟩
  · intro before field after fields hidden
    exact .of_eq (table.model_insert_of_alike name (TypeDecl.alike_of_hiddenField fields hidden))
  · intro before method after methods hidden
    exact .of_eq (table.model_insert_of_alike name (TypeDecl.alike_of_hiddenMethod methods hidden))

def tagTable : TypeTable := .ofList [("Tags", {})]

def taggedDecl : TypeDecl where
  fields := [
    { name := "tag", type := "Tags" },
    { name := "tag", type := "String" }]
  methods := [
    { name := "tags", returns := "List", params := ["int"] },
    { name := "tags", returns := "Tags" },
    { name := "tags", returns := "List" }]

/-- `tags()` leads to `Tags` with the overload that stands before it and without, and so does `tag`
with the field that stands behind it. -/
theorem visiblePart_agrees_tags :
    (HiddenBehind FieldDecl.isVisible FieldDecl.name [{ name := "tag", type := "Tags" }]
        { name := "tag", type := "String" } ∧
      (tagTable.insert "Post" { taggedDecl with
          fields := [{ name := "tag", type := "Tags" }] }).model.resolve "Post"
          (Path.ofString "tag.size") =
        .missing ⟨1, ⟨.property, "size", ⟨4, 8⟩, ⟨4, 8⟩⟩, "Tags"⟩) ∧
    HiddenBehind MethodDecl.isVisible MethodDecl.name []
        { name := "tags", returns := "List", params := ["int"] } ∧
      (tagTable.insert "Post" { taggedDecl with
          methods := [
            { name := "tags", returns := "Tags" },
            { name := "tags", returns := "List" }] }).model.check "Post"
          ⟨"tags().size", .read, 0⟩ = .ok [.propertyNotFound "size" ⟨7, 11⟩ "Tags"] ∧
      (tagTable.insert "Post" taggedDecl).visiblePart.model.check "Post"
          ⟨"tags().size", .read, 0⟩ = .ok [.propertyNotFound "size" ⟨7, 11⟩ "Tags"] := by
  have resolved : (tagTable.insert "Post" taggedDecl).model.resolve "Post"
      (Path.ofString "tag.size") =
        .missing ⟨1, ⟨.property, "size", ⟨4, 8⟩, ⟨4, 8⟩⟩, "Tags"⟩ := by decide +kernel
  have checked : (tagTable.insert "Post" taggedDecl).model.check "Post"
      ⟨"tags().size", .read, 0⟩ = .ok [.propertyNotFound "size" ⟨7, 11⟩ "Tags"] :=
    eq_ok_of_toOption (by decide +kernel)
  have duplicate : HiddenBehind FieldDecl.isVisible FieldDecl.name
      [{ name := "tag", type := "Tags" }] { name := "tag", type := "String" } :=
    .inr ⟨_, List.mem_singleton.mpr rfl, rfl, rfl⟩
  have overload : HiddenBehind MethodDecl.isVisible MethodDecl.name []
      { name := "tags", returns := "List", params := ["int"] } := .inl rfl
  obtain ⟨fields, methods⟩ := (visiblePart_agrees tagTable).2 "Post" taggedDecl
  have whole := (visiblePart_agrees (tagTable.insert "Post" taggedDecl)).1
  refine ⟨⟨duplicate, ?_⟩, overload, ?_, ?_⟩
  · exact ((fields [_] _ [] rfl duplicate).resolve "Post" _).trans resolved
  · exact ((methods [] _ _ rfl overload).check "Post" _).trans checked
  · exact (whole.check "Post" _).trans checked

end TypeTable

end LensPath
