import LensPath.Proofs.Inspection
import Mathlib.Data.Set.Basic

/-!
Models that hide types which others show. Where a type is hidden the walk along a path ends, so
that what is reported on the whole path is reported as before or not at all.
-/

namespace LensPath

namespace TypeModel

/-- On the types that are reached, one model has the members that the other has, and it looks into
no more types than the other does. -/
structure Hides (dim clear : TypeModel τ) (reached : τ → Prop) : Prop where
  memberType? : ∀ type, reached type → ∀ segment,
    dim.memberType? type segment = clear.memberType? type segment
  inspectable : ∀ type next, dim.inspectable type = some next →
    clear.inspectable type = some next ∧ reached next
  presentableName : dim.presentableName = clear.presentableName

namespace Hides

variable {dim clear : TypeModel τ} {reached : τ → Prop} {root : τ} {segments : List Segment}

theorem memberAt_of_typeAt (hides : dim.Hides clear reached) {index : Nat} {type : τ}
    (dimType : dim.typeAt root segments index = some type)
    (clearType : clear.typeAt root segments index = some type) (isReached : reached type) :
    dim.memberAt root segments index = clear.memberAt root segments index := by
  simp only [memberAt, bind, dimType, clearType, Option.bind_some]
  cases segments[index]? with
  | none => rfl
  | some segment => exact hides.memberType? type isReached segment

theorem typeAt (hides : dim.Hides clear reached) (rootReached : reached root) {index : Nat}
    {type : τ} (found : dim.typeAt root segments index = some type) :
    clear.typeAt root segments index = some type ∧ reached type := by
  induction index generalizing type with
  | zero =>
      cases found
      exact ⟨rfl, rootReached⟩
  | succ index induction =>
      rw [typeAt_succ] at found
      obtain ⟨memberType, named, inspected⟩ := Option.bind_eq_some_iff.mp found
      obtain ⟨before, lookedUp⟩ := Option.isSome_iff_exists.mp
        (typeAt_isSome_of_memberAt (Option.isSome_of_eq_some named))
      obtain ⟨clearBefore, isReached⟩ := induction lookedUp
      rw [hides.memberAt_of_typeAt lookedUp clearBefore isReached] at named
      rw [typeAt_succ, named]
      exact hides.inspectable memberType type inspected

theorem typeAt_isSome (hides : dim.Hides clear reached) (rootReached : reached root) {index : Nat}
    (found : (dim.typeAt root segments index).isSome) :
    (clear.typeAt root segments index).isSome := by
  obtain ⟨type, found⟩ := Option.isSome_iff_exists.mp found
  exact Option.isSome_of_eq_some (hides.typeAt rootReached found).1

theorem memberAt (hides : dim.Hides clear reached) (rootReached : reached root) {index : Nat}
    (lookedUp : (dim.typeAt root segments index).isSome) :
    dim.memberAt root segments index = clear.memberAt root segments index := by
  obtain ⟨type, found⟩ := Option.isSome_iff_exists.mp lookedUp
  obtain ⟨clearFound, isReached⟩ := hides.typeAt rootReached found
  exact hides.memberAt_of_typeAt found clearFound isReached

theorem failsAt (hides : dim.Hides clear reached) (rootReached : reached root)
    {failure : MissingMember τ} (fails : dim.FailsAt root segments failure) :
    clear.FailsAt root segments failure := by
  refine ⟨fails.segment, (hides.typeAt rootReached fails.lookedUpOn).1, ?_, ?_⟩
  · intro index earlier
    have inspectable := hides.typeAt_isSome rootReached (fails.before index earlier).2
    exact ⟨memberAt_isSome inspectable, inspectable⟩
  · rw [← hides.memberAt rootReached (Option.isSome_of_eq_some fails.lookedUpOn)]
    exact fails.missing

theorem failsAt_of_lookedUp (hides : dim.Hides clear reached) (rootReached : reached root)
    {failure : MissingMember τ} (fails : clear.FailsAt root segments failure)
    (lookedUp : (dim.typeAt root segments failure.index).isSome) :
    dim.FailsAt root segments failure := by
  obtain ⟨type, found⟩ := Option.isSome_iff_exists.mp lookedUp
  have same := (hides.typeAt rootReached found).1.symm.trans fails.lookedUpOn
  refine ⟨fails.segment, found.trans same, ?_, ?_⟩
  · intro index earlier
    have inspectable := typeAt_isSome_of_le (Nat.succ_le_of_lt earlier) lookedUp
    exact ⟨memberAt_isSome inspectable, inspectable⟩
  · rw [hides.memberAt rootReached lookedUp]
    exact fails.missing

theorem writesCall (hides : dim.Hides clear reached) (rootReached : reached root)
    {mode : Lens.Mode} {segment : Segment}
    (writes : dim.WritesCall root segments mode segment) :
    clear.WritesCall root segments mode segment :=
  ⟨writes.writes, writes.last, writes.call, hides.typeAt_isSome rootReached writes.lookedUp⟩

/-- A path that is looked up to its last segment misses no member that it does not miss anyway. -/
theorem whole_of_writesCall (hides : dim.Hides clear reached) (rootReached : reached root)
    {mode : Lens.Mode} {segment : Segment}
    (writes : dim.WritesCall root segments mode segment)
    (whole : ∀ failure, ¬ dim.FailsAt root segments failure) (failure : MissingMember τ) :
    ¬ clear.FailsAt root segments failure := by
  intro fails
  have bound := (List.getElem?_eq_some_iff.mp fails.segment).1
  have lookedUp := typeAt_isSome_of_le (Nat.le_sub_one_of_lt bound) writes.lookedUp
  exact whole failure (hides.failsAt_of_lookedUp rootReached fails lookedUp)

theorem diagnosePath (hides : dim.Hides clear reached) (rootReached : reached root)
    (mode : Lens.Mode) (path : Path) :
    dim.diagnosePath root mode path = clear.diagnosePath root mode path ∨
      dim.diagnosePath root mode path = none := by
  by_cases fails : ∃ failure, dim.FailsAt root path.segments failure
  · obtain ⟨failure, fails⟩ := fails
    left
    rw [diagnosePath_of_failsAt fails, diagnosePath_of_failsAt (hides.failsAt rootReached fails),
      missingDiagnostic, missingDiagnostic, hides.presentableName]
  · have whole := not_exists.mp fails
    by_cases writes : ∃ segment, dim.WritesCall root path.segments mode segment
    · obtain ⟨segment, writes⟩ := writes
      left
      rw [diagnosePath_of_writesCall whole writes,
        diagnosePath_of_writesCall (hides.whole_of_writesCall rootReached writes whole)
          (hides.writesCall rootReached writes)]
    · exact .inr (diagnosePath_eq_none whole (not_exists.mp writes))

theorem check (hides : dim.Hides clear reached) (rootReached : reached root) (lens : Lens) :
    dim.check root lens = clear.check root lens ∨ dim.check root lens = .ok [] := by
  by_cases blank : Blank lens.path
  · left
    rw [check_of_blank dim root blank, check_of_blank clear root blank]
  · rw [check_eq, check_eq, diagnose_of_not_blank dim root blank,
      diagnose_of_not_blank clear root blank]
    rcases hides.diagnosePath rootReached lens.mode (Path.ofString lens.path) with same | silent
    · left
      rw [same]
    · right
      rw [silent]
      rfl

end Hides

end TypeModel

namespace TypeTable

def restrict (table : TypeTable) (kept : Set String) [DecidablePred (· ∈ kept)] : TypeTable :=
  ⟨table.entries.filter fun entry => entry.1 ∈ kept, table.ascending.filter _⟩

theorem lookup_filter (entries : List (String × TypeDecl)) (kept : Set String)
    [DecidablePred (· ∈ kept)] (name : String) :
    (entries.filter fun entry => entry.1 ∈ kept).lookup name =
      if name ∈ kept then entries.lookup name else none := by
  induction entries with
  | nil => simp
  | cons entry rest induction =>
      by_cases isKept : entry.1 ∈ kept
      · rw [List.filter_cons_of_pos (by simpa using isKept), List.lookup_cons, List.lookup_cons]
        cases same : name == entry.1 with
        | true => simp [eq_of_beq same, isKept]
        | false => exact induction
      · rw [List.filter_cons_of_neg (by simpa using isKept), induction, List.lookup_cons]
        cases same : name == entry.1 with
        | true => simp [eq_of_beq same, isKept]
        | false => rfl

theorem get?_restrict (table : TypeTable) (kept : Set String) [DecidablePred (· ∈ kept)]
    (name : String) :
    (table.restrict kept).get? name = if name ∈ kept then table.get? name else none :=
  lookup_filter table.entries kept name

theorem contains_restrict_iff {table : TypeTable} {kept : Set String} [DecidablePred (· ∈ kept)]
    {name : String} :
    (table.restrict kept).contains name = true ↔ table.contains name = true ∧ name ∈ kept := by
  rw [contains, contains, get?_restrict]
  by_cases isKept : name ∈ kept <;> simp [isKept]

theorem restrict_hides (table : TypeTable) (kept : Set String) [DecidablePred (· ∈ kept)] :
    (table.restrict kept).model.Hides table.model (· ∈ kept) := by
  refine ⟨?_, ?_, rfl⟩
  · intro type isKept segment
    simp only [TypeModel.memberType?, model, get?_restrict, if_pos isKept]
  · intro type next inspected
    obtain ⟨known, rfl⟩ := inspectable_eq_some_iff.mp inspected
    obtain ⟨known, isKept⟩ := contains_restrict_iff.mp known
    exact ⟨inspectable_eq_some_iff.mpr ⟨known, rfl⟩, isKept⟩

/-- Without some of its types a table reports on a lens what it did before, or nothing. -/
theorem check_restrict (table : TypeTable) (kept : Set String) [DecidablePred (· ∈ kept)]
    {root : String} (rootKept : root ∈ kept) (lens : Lens) :
    ((table.restrict kept).model.check root lens = table.model.check root lens ∨
      (table.restrict kept).model.check root lens = .ok []) ∧
    (lens.Fits → ∃ diagnostics, table.model.check root lens = .ok diagnostics) := by
  refine ⟨(table.restrict_hides kept).check rootKept lens, ?_⟩
  intro fits
  by_cases blank : Blank lens.path
  · exact ⟨_, TypeModel.check_of_blank table.model root blank⟩
  · exact ⟨_, TypeModel.check_of_not_blank table.model root blank fits⟩

def addressTable : TypeTable := .ofList [
  ("Person", { fields := [{ name := "address", type := "Address" }] }),
  ("Address", { methods := [{ name := "city", returns := "City" }] }),
  ("City", {})]

theorem check_restrict_without_city :
    "Person" ∈ {name | name ≠ "City"} ∧ Lens.Fits ⟨"address.city().zip", .read, 0⟩ ∧
      addressTable.model.check "Person" ⟨"address.city().zip", .read, 0⟩ =
        .ok [.propertyNotFound "zip" ⟨15, 18⟩ "City"] ∧
      (addressTable.restrict {name | name ≠ "City"}).model.check "Person"
        ⟨"address.city().zip", .read, 0⟩ = .ok [] := by
  have rootKept : "Person" ∈ {name | name ≠ "City"} := by decide
  have fits : Lens.Fits ⟨"address.city().zip", .read, 0⟩ := by decide +kernel
  obtain ⟨limited, succeeds⟩ := check_restrict addressTable {name | name ≠ "City"} rootKept
    ⟨"address.city().zip", .read, 0⟩
  obtain ⟨diagnostics, checked⟩ := succeeds fits
  have reported : (addressTable.model.check "Person" ⟨"address.city().zip", .read, 0⟩).toOption =
      some [.propertyNotFound "zip" ⟨15, 18⟩ "City"] := by decide +kernel
  have differs : ((addressTable.restrict {name | name ≠ "City"}).model.check "Person"
      ⟨"address.city().zip", .read, 0⟩).toOption ≠
        some [.propertyNotFound "zip" ⟨15, 18⟩ "City"] := by decide +kernel
  rw [checked] at reported limited
  cases reported
  refine ⟨rootKept, fits, checked, limited.resolve_left ?_⟩
  intro same
  exact differs (by rw [same]; rfl)

end TypeTable

end LensPath
