import LensPath.Proofs.Inspection.Shifted
import LensPath.Proofs.TypeModel.Insertion

/-!
Models with more members than others. What was found is still found, so a path that was resolved is
resolved as before, and a missing member is missing no earlier. Members that are appended to a
declaration make such a model, whatever stands before them.
-/

namespace LensPath

namespace TypeModel

theorem missingDiagnostic_key (model : TypeModel τ) (failure : MissingMember τ) :
    (model.missingDiagnostic failure).key = .propertyMissing ∨
      (model.missingDiagnostic failure).key = .methodMissing := by
  cases kind : failure.segment.kind <;> simp [missingDiagnostic, kind, Diagnostic.key]

theorem exists_resolved_of_check {model : TypeModel τ} {root : τ} {lens : Lens}
    {diagnostics : List Diagnostic} (notBlank : ¬ Blank lens.path)
    (checked : model.check root lens = .ok diagnostics)
    (harmless : ∀ diagnostic ∈ diagnostics, diagnostic.key ≠ .propertyMissing ∧
      diagnostic.key ≠ .methodMissing) :
    ∃ result, model.resolve root (Path.ofString lens.path) = .resolved result := by
  cases resolved : model.resolve root (Path.ofString lens.path) with
  | resolved result => exact ⟨result, rfl⟩
  | missing failure =>
      have found : model.diagnosePath root lens.mode (Path.ofString lens.path) =
          some (model.missingDiagnostic failure) := by
        simp only [diagnosePath, resolved]
      obtain ⟨segment, _, _, reported⟩ := check_of_diagnosePath_some notBlank found
      rw [reported] at checked
      split at checked <;> cases checked
      have key := harmless _ (List.mem_singleton.mpr rfl)
      rw [Diagnostic.translate_key] at key
      rcases model.missingDiagnostic_key failure with property | method
      · exact absurd property key.1
      · exact absurd method key.2

structure Enriches (rich plain : TypeModel τ) : Prop where
  memberType? : ∀ type segment memberType, plain.memberType? type segment = some memberType →
    rich.memberType? type segment = some memberType
  inspectable : ∀ type, rich.inspectable type = plain.inspectable type

namespace Enriches

variable {rich plain : TypeModel τ} {root : τ} {segments : List Segment}

theorem memberAt_of_typeAt (enriches : rich.Enriches plain) {index : Nat} {type memberType : τ}
    (richType : rich.typeAt root segments index = some type)
    (plainType : plain.typeAt root segments index = some type)
    (named : plain.memberAt root segments index = some memberType) :
    rich.memberAt root segments index = some memberType := by
  simp only [TypeModel.memberAt, bind, plainType, Option.bind_some] at named
  obtain ⟨segment, found, lookedUp⟩ := Option.bind_eq_some_iff.mp named
  rw [TypeModel.memberAt_of_typeAt richType found]
  exact enriches.memberType? type segment memberType lookedUp

theorem typeAt (enriches : rich.Enriches plain) {index : Nat} {type : τ}
    (reached : plain.typeAt root segments index = some type) :
    rich.typeAt root segments index = some type := by
  induction index generalizing type with
  | zero => exact reached
  | succ index induction =>
      rw [typeAt_succ] at reached
      obtain ⟨memberType, named, inspected⟩ := Option.bind_eq_some_iff.mp reached
      obtain ⟨before, lookedUp⟩ := Option.isSome_iff_exists.mp
        (typeAt_isSome_of_memberAt (Option.isSome_of_eq_some named))
      rw [typeAt_succ, enriches.memberAt_of_typeAt (induction lookedUp) lookedUp named]
      exact (enriches.inspectable memberType).trans inspected

theorem memberAt (enriches : rich.Enriches plain) {index : Nat} {memberType : τ}
    (named : plain.memberAt root segments index = some memberType) :
    rich.memberAt root segments index = some memberType := by
  obtain ⟨type, lookedUp⟩ := Option.isSome_iff_exists.mp
    (typeAt_isSome_of_memberAt (Option.isSome_of_eq_some named))
  exact enriches.memberAt_of_typeAt (enriches.typeAt lookedUp) lookedUp named

theorem typeAt_isSome (enriches : rich.Enriches plain) {index : Nat}
    (reached : (plain.typeAt root segments index).isSome) :
    (rich.typeAt root segments index).isSome := by
  obtain ⟨type, reached⟩ := Option.isSome_iff_exists.mp reached
  exact Option.isSome_of_eq_some (enriches.typeAt reached)

theorem stepsUpTo (enriches : rich.Enriches plain) {count : Nat}
    (named : ∀ index < count, (plain.memberAt root segments index).isSome) :
    rich.stepsUpTo root segments count = plain.stepsUpTo root segments count := by
  apply List.map_congr_left
  intro index inRange
  obtain ⟨memberType, found⟩ := Option.isSome_iff_exists.mp
    (named index (List.mem_range.mp inRange))
  rw [found, enriches.memberAt found]

theorem resolvesTo (enriches : rich.Enriches plain) {result : Resolved τ}
    (resolves : plain.ResolvesTo root segments result) :
    rich.ResolvesTo root segments result := by
  refine ⟨?_, resolves.length_le, ?_⟩
  · rw [enriches.stepsUpTo fun _ => resolves.memberAt_isSome]
    exact resolves.steps
  · rcases resolves.ending with
      ⟨whole, clear, inspectable⟩ | ⟨last, length, isOpaque, before, stopped⟩
    · exact .inl ⟨whole, clear, fun index inRange =>
        enriches.typeAt_isSome (inspectable index inRange)⟩
    · have stepped : last < result.steps.length := by omega
      obtain ⟨memberType, named⟩ := Option.isSome_iff_exists.mp
        (resolves.memberAt_isSome stepped)
      refine .inr ⟨last, length, isOpaque,
        fun index earlier => enriches.typeAt_isSome (before index earlier), ?_⟩
      rw [typeAt_succ, named] at stopped
      rw [typeAt_succ, enriches.memberAt named]
      exact (enriches.inspectable memberType).trans stopped

theorem resolve (enriches : rich.Enriches plain) {path : Path} {result : Resolved τ}
    (resolved : plain.resolve root path = .resolved result) :
    rich.resolve root path = .resolved result := by
  have answers := @resolve_answers _ plain root path
  rw [resolved] at answers
  exact (resolve_answers path).unique (enriches.resolvesTo answers)

theorem index_le_of_failsAt (enriches : rich.Enriches plain) {failure later : MissingMember τ}
    (fails : plain.FailsAt root segments failure)
    (failsLater : rich.FailsAt root segments later) : failure.index ≤ later.index := by
  apply Nat.le_of_not_lt
  intro earlier
  -- The members before the missing one were found, and are found still.
  obtain ⟨memberType, named⟩ := Option.isSome_iff_exists.mp (fails.before _ earlier).1
  simpa [failsLater.missing] using enriches.memberAt named

theorem eq_of_failsAt (enriches : rich.Enriches plain) {failure later : MissingMember τ}
    (fails : plain.FailsAt root segments failure)
    (failsLater : rich.FailsAt root segments later) (same : later.index = failure.index) :
    later = failure := by
  obtain ⟨index, segment, type⟩ := failure
  obtain ⟨_, laterSegment, laterType⟩ := later
  cases same
  cases Option.some.inj (failsLater.segment.symm.trans fails.segment)
  have lookedUpOn := enriches.typeAt fails.lookedUpOn
  cases Option.some.inj (failsLater.lookedUpOn.symm.trans lookedUpOn)
  rfl

theorem missing (enriches : rich.Enriches plain) {path : Path} {failure later : MissingMember τ}
    (missing : plain.resolve root path = .missing failure)
    (missingLater : rich.resolve root path = .missing later) :
    failure.index ≤ later.index ∧ (later.index = failure.index → later = failure) := by
  have fails := @resolve_answers _ plain root path
  have failsLater := @resolve_answers _ rich root path
  rw [missing] at fails
  rw [missingLater] at failsLater
  exact ⟨enriches.index_le_of_failsAt fails failsLater, enriches.eq_of_failsAt fails failsLater⟩

theorem check (enriches : rich.Enriches plain) {lens : Lens} {diagnostics : List Diagnostic}
    (checked : plain.check root lens = .ok diagnostics)
    (harmless : ∀ diagnostic ∈ diagnostics, diagnostic.key ≠ .propertyMissing ∧
      diagnostic.key ≠ .methodMissing) :
    rich.check root lens = .ok diagnostics := by
  by_cases blank : Blank lens.path
  · rw [check_of_blank rich root blank, ← check_of_blank plain root blank]
    exact checked
  · obtain ⟨result, resolved⟩ := exists_resolved_of_check blank checked harmless
    rw [← checked, check_eq, check_eq, diagnose_of_not_blank rich root blank,
      diagnose_of_not_blank plain root blank, TypeModel.diagnosePath, TypeModel.diagnosePath,
      resolved, enriches.resolve resolved]

end Enriches

end TypeModel

def TypeDecl.addMembers (decl : TypeDecl) (fields : List FieldDecl) (methods : List MethodDecl) :
    TypeDecl :=
  { decl with fields := decl.fields ++ fields, methods := decl.methods ++ methods }

theorem TypeDecl.findField_addMembers {decl : TypeDecl} {name : String} {field : FieldDecl}
    (found : decl.findField name = some field) (fields : List FieldDecl)
    (methods : List MethodDecl) :
    (decl.addMembers fields methods).findField name = some field := by
  rw [findField] at found
  rw [findField, addMembers, List.find?_append, found, Option.some_or]

theorem TypeDecl.findMethod_addMembers {decl : TypeDecl} {name : String} {method : MethodDecl}
    (found : decl.findMethod name = some method) (fields : List FieldDecl)
    (methods : List MethodDecl) :
    (decl.addMembers fields methods).findMethod name = some method := by
  rw [findMethod] at found
  rw [findMethod, addMembers, List.find?_append, found, Option.some_or]

namespace TypeTable

def addMembers (table : TypeTable) (name : String) (fields : List FieldDecl)
    (methods : List MethodDecl) : TypeTable :=
  match table.get? name with
  | some decl => table.insert name (decl.addMembers fields methods)
  | none => table

variable (table : TypeTable) (name : String) (fields : List FieldDecl) (methods : List MethodDecl)

theorem get?_addMembers (type : String) :
    (table.addMembers name fields methods).get? type =
      if type = name then (table.get? name).map (·.addMembers fields methods)
      else table.get? type := by
  cases found : table.get? name with
  | some decl => simp only [addMembers, found, get?_insert, Option.map_some]
  | none =>
      simp only [addMembers, found, Option.map_none]
      split
      · next same => rw [same, found]
      · rfl

theorem contains_addMembers (type : String) :
    (table.addMembers name fields methods).contains type = table.contains type := by
  rw [contains, contains, get?_addMembers]
  split
  · next same => rw [same, Option.isSome_map]
  · rfl

theorem exists_of_get? {type : String} {decl : TypeDecl} (found : table.get? type = some decl) :
    (table.addMembers name fields methods).get? type = some decl ∨
      (table.addMembers name fields methods).get? type =
        some (decl.addMembers fields methods) := by
  rw [get?_addMembers]
  split
  · next same =>
      rw [← same, found]
      exact .inr rfl
  · exact .inl found

theorem enriches_addMembers :
    (table.addMembers name fields methods).model.Enriches table.model := by
  constructor
  · intro type segment memberType found
    cases kind : segment.kind with
    | property =>
        simp only [TypeModel.memberType?, kind, model] at found ⊢
        obtain ⟨field, reached, rfl⟩ := Option.map_eq_some_iff.mp found
        obtain ⟨decl, declared, first⟩ := Option.bind_eq_some_iff.mp reached
        rcases table.exists_of_get? name fields methods declared with same | more
        · rw [same, Option.bind_some, first, Option.map_some]
        · rw [more, Option.bind_some, TypeDecl.findField_addMembers first, Option.map_some]
    | method =>
        simp only [TypeModel.memberType?, kind, model] at found ⊢
        obtain ⟨method, reached, rfl⟩ := Option.map_eq_some_iff.mp found
        obtain ⟨decl, declared, first⟩ := Option.bind_eq_some_iff.mp reached
        rcases table.exists_of_get? name fields methods declared with same | more
        · rw [same, Option.bind_some, first, Option.map_some]
        · rw [more, Option.bind_some, TypeDecl.findMethod_addMembers first, Option.map_some]
  · intro type
    simp only [model, contains_addMembers]

/-- With more members behind those of a type, a path is resolved as before or fails no earlier, and
what is said of a lens stays unless it is that a member is missing. -/
theorem resolve_addMembers (root : String) :
    (∀ path result, table.model.resolve root path = .resolved result →
      (table.addMembers name fields methods).model.resolve root path = .resolved result) ∧
    (∀ path failure, table.model.resolve root path = .missing failure →
      (∃ result,
        (table.addMembers name fields methods).model.resolve root path = .resolved result) ∨
      ∃ later, (table.addMembers name fields methods).model.resolve root path = .missing later ∧
        failure.index ≤ later.index ∧ (later.index = failure.index → later = failure)) ∧
    ∀ lens,
      (table.model.check root lens = .ok [] →
        (table.addMembers name fields methods).model.check root lens = .ok []) ∧
      ∀ called span, table.model.check root lens = .ok [.methodWritten called span] →
        (table.addMembers name fields methods).model.check root lens =
          .ok [.methodWritten called span] := by
  have enriches := table.enriches_addMembers name fields methods
  refine ⟨fun path result resolved => enriches.resolve resolved, ?_, ?_⟩
  · intro path failure missing
    cases resolved : (table.addMembers name fields methods).model.resolve root path with
    | resolved result => exact .inl ⟨result, rfl⟩
    | missing later => exact .inr ⟨later, rfl, enriches.missing missing resolved⟩
  · intro lens
    refine ⟨fun clean => enriches.check clean (by simp), fun called span written => ?_⟩
    refine enriches.check written fun diagnostic reported => ?_
    cases List.mem_singleton.mp reported
    simp [Diagnostic.key]

def petTable : TypeTable := .ofList [
  ("Person", { fields := [
    { name := "pet", type := "Wolf", isStatic := true },
    { name := "pet", type := "Dog" }] }),
  ("Dog", { methods := [{ name := "owner", returns := "Person" }] })]

/-- However often a path comes by `Person`, `pet` stays what it was, with `age` still missing
behind it. -/
theorem resolve_addMembers_person :
    (petTable.model.resolve "Person" (Path.ofString "pet.owner().pet") =
        .resolved ⟨[⟨0, "Dog"⟩, ⟨1, "Person"⟩, ⟨2, "Dog"⟩], none⟩ ∧
      (petTable.addMembers "Person" [{ name := "pet", type := "Cat" }] []).model.resolve "Person"
          (Path.ofString "pet.owner().pet") =
        .resolved ⟨[⟨0, "Dog"⟩, ⟨1, "Person"⟩, ⟨2, "Dog"⟩], none⟩) ∧
    (petTable.model.resolve "Person" (Path.ofString "pet.owner().age") =
        .missing ⟨2, ⟨.property, "age", ⟨12, 15⟩, ⟨12, 15⟩⟩, "Person"⟩ ∧
      (petTable.addMembers "Person" [{ name := "pet", type := "Cat" }] []).model.resolve "Person"
          (Path.ofString "pet.owner().age") =
        .missing ⟨2, ⟨.property, "age", ⟨12, 15⟩, ⟨12, 15⟩⟩, "Person"⟩) ∧
    petTable.model.check "Person" ⟨"pet.owner()", .write, 5⟩ =
        .ok [.methodWritten "owner" ⟨9, 16⟩] ∧
      (petTable.addMembers "Person" [{ name := "pet", type := "Cat" }] []).model.check "Person"
          ⟨"pet.owner()", .write, 5⟩ = .ok [.methodWritten "owner" ⟨9, 16⟩] ∧
    petTable.model.check "Person" ⟨"pet.owner().pet", .write, 0⟩ = .ok [] ∧
      (petTable.addMembers "Person" [{ name := "pet", type := "Cat" }] []).model.check "Person"
          ⟨"pet.owner().pet", .write, 0⟩ = .ok [] := by
  have resolved : petTable.model.resolve "Person" (Path.ofString "pet.owner().pet") =
      .resolved ⟨[⟨0, "Dog"⟩, ⟨1, "Person"⟩, ⟨2, "Dog"⟩], none⟩ := by decide +kernel
  have missing : petTable.model.resolve "Person" (Path.ofString "pet.owner().age") =
      .missing ⟨2, ⟨.property, "age", ⟨12, 15⟩, ⟨12, 15⟩⟩, "Person"⟩ := by decide +kernel
  have written : petTable.model.check "Person" ⟨"pet.owner()", .write, 5⟩ =
      .ok [.methodWritten "owner" ⟨9, 16⟩] := eq_ok_of_toOption (by decide +kernel)
  have clean : petTable.model.check "Person" ⟨"pet.owner().pet", .write, 0⟩ = .ok [] :=
    eq_ok_of_toOption (by decide +kernel)
  have index : ((petTable.addMembers "Person" [{ name := "pet", type := "Cat" }]
      []).model.resolve "Person" (Path.ofString "pet.owner().age")).missing?.map (·.index) =
        some 2 := by decide +kernel
  obtain ⟨keeps, delays, clears⟩ :=
    resolve_addMembers petTable "Person" [{ name := "pet", type := "Cat" }] [] "Person"
  refine ⟨⟨resolved, keeps _ _ resolved⟩, ⟨missing, ?_⟩, written, (clears _).2 _ _ written, clean,
    (clears _).1 clean⟩
  rcases delays _ _ missing with ⟨result, found⟩ | ⟨later, found, _, same⟩
  · rw [found] at index
    cases index
  · rw [found] at index ⊢
    rw [same (Option.some.inj index)]

end TypeTable

end LensPath
