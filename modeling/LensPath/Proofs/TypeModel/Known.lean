import LensPath.Proofs.Resolution
import LensPath.Run

/-!
Resolution against a table, from a type that the table knows. Members are looked up on known types
only, and what is found or missing there can be read off the declarations.
-/

namespace LensPath

def First (holds : α → Prop) (list : List α) (found : α) : Prop :=
  ∃ before after, list = before ++ found :: after ∧ holds found ∧
    ∀ other ∈ before, ¬ holds other

section Search

variable {holds : α → Prop} {test : α → Bool} {list : List α}

theorem find?_eq_some_iff_first (tests : ∀ candidate, test candidate = true ↔ holds candidate)
    {found : α} : list.find? test = some found ↔ First holds list found := by
  simp only [List.find?_eq_some_iff_append, First, ← tests, Bool.not_eq_true, Bool.not_eq_true']
  constructor
  · rintro ⟨passes, before, after, split, fails⟩
    exact ⟨before, after, split, passes, fails⟩
  · rintro ⟨before, after, split, passes, fails⟩
    exact ⟨passes, before, after, split, fails⟩

theorem find?_eq_none_iff_forall (tests : ∀ candidate, test candidate = true ↔ holds candidate) :
    list.find? test = none ↔ ∀ candidate ∈ list, ¬ holds candidate := by
  simp only [List.find?_eq_none, tests]

end Search

def FieldDecl.ReachedBy (name : String) (field : FieldDecl) : Prop :=
  field.isStatic = false ∧ field.name = name

def MethodDecl.ReachedBy (name : String) (method : MethodDecl) : Prop :=
  method.isStatic = false ∧ method.params = [] ∧ method.name = name

theorem FieldDecl.reachedBy_iff (name : String) (field : FieldDecl) :
    (field.isVisible && field.name == name) = true ↔ field.ReachedBy name := by
  simp [isVisible, ReachedBy]

theorem MethodDecl.reachedBy_iff (name : String) (method : MethodDecl) :
    (method.isVisible && method.name == name) = true ↔ method.ReachedBy name := by
  simp [isVisible, ReachedBy, and_assoc]

namespace TypeDecl

def Lacks (decl : TypeDecl) (segment : Segment) : Prop :=
  match segment.kind with
  | .property => ∀ field ∈ decl.fields, ¬ field.ReachedBy segment.name
  | .method => ∀ method ∈ decl.methods, ¬ method.ReachedBy segment.name

def Declares (decl : TypeDecl) (segment : Segment) (type : String) : Prop :=
  match segment.kind with
  | .property =>
      ∃ field, First (·.ReachedBy segment.name) decl.fields field ∧ field.type = type
  | .method =>
      ∃ method, First (·.ReachedBy segment.name) decl.methods method ∧ method.returns = type

end TypeDecl

namespace TypeTable

variable {table : TypeTable} {type : String} {decl : TypeDecl}

theorem memberType?_eq_none_iff (found : table.get? type = some decl) (segment : Segment) :
    table.model.memberType? type segment = none ↔ decl.Lacks segment := by
  cases kind : segment.kind with
  | property =>
      simp only [TypeModel.memberType?, TypeDecl.Lacks, kind, model, found, Option.bind_some,
        Option.map_eq_none_iff]
      exact find?_eq_none_iff_forall (FieldDecl.reachedBy_iff segment.name)
  | method =>
      simp only [TypeModel.memberType?, TypeDecl.Lacks, kind, model, found, Option.bind_some,
        Option.map_eq_none_iff]
      exact find?_eq_none_iff_forall (MethodDecl.reachedBy_iff segment.name)

theorem memberType?_eq_some_iff (found : table.get? type = some decl) (segment : Segment)
    (memberType : String) :
    table.model.memberType? type segment = some memberType ↔
      decl.Declares segment memberType := by
  cases kind : segment.kind with
  | property =>
      simp only [TypeModel.memberType?, TypeDecl.Declares, kind, model, found, Option.bind_some,
        Option.map_eq_some_iff, TypeDecl.findField,
        find?_eq_some_iff_first (FieldDecl.reachedBy_iff segment.name)]
  | method =>
      simp only [TypeModel.memberType?, TypeDecl.Declares, kind, model, found, Option.bind_some,
        Option.map_eq_some_iff, TypeDecl.findMethod,
        find?_eq_some_iff_first (MethodDecl.reachedBy_iff segment.name)]

end TypeTable

/-- The type on which the step of an index was looked up. -/
def Resolved.holder? (root : τ) (result : Resolved τ) : Nat → Option τ
  | 0 => some root
  | index + 1 => result.steps[index]?.map (·.memberType)

/-- The end of the walk along a path, and each state in which it comes to a segment. -/
def TypeModel.traced (model : TypeModel τ) (root : τ) (path : Path) :
    Progress τ × List (Progress τ) :=
  (path.walk model.resolver.tracing (.start root, [])).state

theorem TypeModel.resolution_traced (model : TypeModel τ) (root : τ) (path : Path) :
    (model.traced root path).1.resolution = model.resolve root path := by
  rw [resolve, explore, ← path.walk_tracing resolver_passive, Flow.map_state]
  rfl

def TypeModel.lookedUpOn (model : TypeModel τ) (root : τ) (path : Path) : List τ :=
  (model.traced root path).2.map (·.current)

namespace TypeTable

/-- Each member found is the first of its kind in the declaration of the type that it was looked
up on, and the walk ends early exactly at a type that is not known. -/
structure Traces (table : TypeTable) (root : String) (segments : List Segment)
    (result : Resolved String) : Prop where
  declared : ∀ index step, result.steps[index]? = some step → step.index = index ∧
    ∃ type decl segment, result.holder? root index = some type ∧ table.get? type = some decl ∧
      segments[index]? = some segment ∧ decl.Declares segment step.memberType
  opaqueAt : ∀ index, result.opaqueAt = some index ↔
    ∃ step, result.steps[index]? = some step ∧ table.contains step.memberType = false

def BearsOut (table : TypeTable) (root : String) (segments : List Segment) :
    Resolution String → Prop
  | .missing failure => segments[failure.index]? = some failure.segment ∧
      ∃ decl, table.get? failure.lookedUpOn = some decl ∧ decl.Lacks failure.segment
  | .resolved result => table.Traces root segments result

variable {table : TypeTable} {root : String} {segments : List Segment}

theorem contains_of_typeAt (known : table.contains root = true) {index : Nat} {type : String}
    (reached : table.model.typeAt root segments index = some type) :
    table.contains type = true := by
  cases index with
  | zero =>
      cases reached
      exact known
  | succ index =>
      rw [TypeModel.typeAt_succ] at reached
      obtain ⟨memberType, _, inspected⟩ := Option.bind_eq_some_iff.mp reached
      obtain ⟨contained, rfl⟩ := inspectable_eq_some_iff.mp inspected
      exact contained

theorem typeAt_succ_eq_some_iff {index : Nat} {memberType type : String}
    (named : table.model.memberAt root segments index = some memberType) :
    table.model.typeAt root segments (index + 1) = some type ↔
      table.contains memberType = true ∧ memberType = type := by
  rw [TypeModel.typeAt_succ, named]
  exact inspectable_eq_some_iff

theorem typeAt_succ_eq_none_iff {index : Nat} {memberType : String}
    (named : table.model.memberAt root segments index = some memberType) :
    table.model.typeAt root segments (index + 1) = none ↔ table.contains memberType = false := by
  rw [Option.eq_none_iff_forall_ne_some, Bool.eq_false_iff]
  constructor
  · intro missing contained
    exact missing memberType ((typeAt_succ_eq_some_iff named).mpr ⟨contained, rfl⟩)
  · intro unknown type reached
    exact unknown ((typeAt_succ_eq_some_iff named).mp reached).1

theorem holder?_of_typeAt {result : Resolved String}
    (resolves : table.model.ResolvesTo root segments result) {index : Nat} {type : String}
    (stepped : index < result.steps.length)
    (reached : table.model.typeAt root segments index = some type) :
    result.holder? root index = some type := by
  cases index with
  | zero => exact reached
  | succ index =>
      have before := List.getElem?_eq_getElem (Nat.lt_of_succ_lt stepped)
      have named := (resolves.memberAt_of_step before).2
      obtain ⟨_, same⟩ := (typeAt_succ_eq_some_iff named).mp reached
      rw [Resolved.holder?, before, Option.map_some, same]

theorem traces_of_resolvesTo (known : table.contains root = true) {result : Resolved String}
    (resolves : table.model.ResolvesTo root segments result) :
    table.Traces root segments result := by
  constructor
  · intro index step stepped
    obtain ⟨atIndex, named⟩ := resolves.memberAt_of_step stepped
    have bound := (List.getElem?_eq_some_iff.mp stepped).1
    have found := List.getElem?_eq_getElem (Nat.lt_of_lt_of_le bound resolves.length_le)
    obtain ⟨type, reached⟩ := Option.isSome_iff_exists.mp (resolves.typeAt_isSome bound)
    obtain ⟨decl, declared⟩ := contains_iff.mp (contains_of_typeAt known reached)
    rw [TypeModel.memberAt_of_typeAt reached found] at named
    exact ⟨atIndex, type, decl, _, holder?_of_typeAt resolves bound reached, declared, found,
      (memberType?_eq_some_iff declared _ _).mp named⟩
  · intro index
    rw [resolves.opaqueAt_eq_some_iff]
    constructor
    · rintro ⟨stepped, missing⟩
      have step := List.getElem?_eq_getElem stepped
      exact ⟨_, step,
        (typeAt_succ_eq_none_iff (resolves.memberAt_of_step step).2).mp missing⟩
    · rintro ⟨step, stepped, unknown⟩
      exact ⟨(List.getElem?_eq_some_iff.mp stepped).1,
        (typeAt_succ_eq_none_iff (resolves.memberAt_of_step stepped).2).mpr unknown⟩

theorem bearsOut_resolve (known : table.contains root = true) (path : Path) :
    table.BearsOut root path.segments (table.model.resolve root path) := by
  have answers := @TypeModel.resolve_answers _ table.model root path
  cases resolved : table.model.resolve root path with
  | missing failure =>
      rw [resolved] at answers
      obtain ⟨decl, declared⟩ := contains_iff.mp (contains_of_typeAt known answers.lookedUpOn)
      have missing := answers.missing
      rw [TypeModel.memberAt_of_typeAt answers.lookedUpOn answers.segment] at missing
      exact ⟨answers.segment, decl, declared, (memberType?_eq_none_iff declared _).mp missing⟩
  | resolved result =>
      rw [resolved] at answers
      exact traces_of_resolvesTo known answers

structure Known (table : TypeTable)
    (traced : Progress String × List (Progress String)) : Prop where
  current : table.contains traced.1.current = true
  before : ∀ progress ∈ traced.2, table.contains progress.current = true

theorem contains_current_advance {progress : Progress String}
    (known : table.contains progress.current = true) (segment : Segment)
    (found : Option String) :
    table.contains (progress.advance table.model segment found).state.current = true := by
  cases found with
  | none => exact known
  | some memberType =>
      cases inspected : table.model.inspectable memberType with
      | none =>
          rw [Progress.advance_opaque inspected]
          exact known
      | some next =>
          rw [Progress.advance_inspectable inspected]
          obtain ⟨contained, rfl⟩ := inspectable_eq_some_iff.mp inspected
          exact contained

theorem Known.step (segment : Segment) (traced : Progress String × List (Progress String))
    (known : table.Known traced) :
    table.Known (table.model.resolver.tracing.segment segment traced).state := by
  rw [Visitor.tracing_segment, Flow.map_state, TypeModel.resolver_segment]
  refine ⟨contains_current_advance known.current segment _, ?_⟩
  intro progress traversed
  rcases List.mem_append.mp traversed with earlier | now
  · exact known.before progress earlier
  · cases List.mem_singleton.mp now
    exact known.current

theorem contains_of_mem_lookedUpOn (known : table.contains root = true) (path : Path)
    {type : String} (lookedUp : type ∈ table.model.lookedUpOn root path) :
    table.contains type = true := by
  obtain ⟨progress, traversed, rfl⟩ := List.mem_map.mp lookedUp
  rw [TypeModel.traced, path.walk_eq_visitAll TypeModel.resolver_passive.tracing] at traversed
  have started : table.Known (.start root, []) := ⟨known, by simp⟩
  exact (Visitor.visitAll_keeps Known.step path.segments started).before progress traversed

/-- Lenses are resolved from known types only, and from a known type members are looked up on
known types only and resolved as declared there. -/
theorem resolve_known (table : TypeTable) (root : String) :
    (table.model.isHost root = true → table.contains root = true) ∧
    (∀ lens, table.contains root = false →
      runCheck table root lens = .ofFailure (.unknownType root)) ∧
    (table.contains root = true → ∀ path : Path,
      (table.model.traced root path).1.resolution = table.model.resolve root path ∧
      (∀ type ∈ table.model.lookedUpOn root path, table.contains type = true) ∧
      table.BearsOut root path.segments (table.model.resolve root path)) := by
  refine ⟨contains_of_isHost, ?_, ?_⟩
  · intro lens unknown
    simp [runCheck, unknown]
  · intro known path
    exact ⟨table.model.resolution_traced root path,
      fun _ => contains_of_mem_lookedUpOn known path, bearsOut_resolve known path⟩

def memberTable : TypeTable := .ofList [
  ("Person", { fields := [
    { name := "address", type := "Street", isStatic := true },
    { name := "address", type := "Address" },
    { name := "address", type := "City" }] }),
  ("Address", { methods := [
    { name := "street", returns := "Street", params := ["int"] },
    { name := "street", returns := "Street", isStatic := true }] })]

theorem resolve_known_missing_street :
    memberTable.model.isHost "Person" = true ∧ memberTable.contains "Person" = true ∧
      runCheck memberTable "Street" ⟨"name", .read, 0⟩ = .ofFailure (.unknownType "Street") ∧
      memberTable.model.resolve "Person" (Path.ofString "address.street()") =
        .missing ⟨1, ⟨.method, "street", ⟨8, 14⟩, ⟨8, 16⟩⟩, "Address"⟩ ∧
      (∀ type ∈ ["Person", "Address"], memberTable.contains type = true) ∧
      memberTable.BearsOut "Person" (Path.ofString "address.street()").segments
        (.missing ⟨1, ⟨.method, "street", ⟨8, 14⟩, ⟨8, 16⟩⟩, "Address"⟩) := by
  have host : memberTable.model.isHost "Person" = true := by decide +kernel
  have resolved : memberTable.model.resolve "Person" (Path.ofString "address.street()") =
      .missing ⟨1, ⟨.method, "street", ⟨8, 14⟩, ⟨8, 16⟩⟩, "Address"⟩ := by decide +kernel
  have lookedUp : memberTable.model.lookedUpOn "Person" (Path.ofString "address.street()") =
      ["Person", "Address"] := by decide +kernel
  have known := (resolve_known memberTable "Person").1 host
  have refused := (resolve_known memberTable "Street").2.1 ⟨"name", .read, 0⟩ (by decide +kernel)
  obtain ⟨_, onKnown, borneOut⟩ := (resolve_known memberTable "Person").2.2 known
    (Path.ofString "address.street()")
  rw [lookedUp] at onKnown
  rw [resolved] at borneOut
  exact ⟨host, known, refused, resolved, onKnown, borneOut⟩

end TypeTable

end LensPath
