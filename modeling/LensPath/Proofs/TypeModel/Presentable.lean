import LensPath.TypeModel.Table
import Mathlib.Data.List.DropRight

/-!
Names of types without what qualifies them. A name is cut behind the last dot in front of its
arguments, and there is one place only where it can be cut like that.
-/

namespace LensPath.TypeTable

def bareName (name : List Char) : List Char := name.takeWhile (· != '<')

def nameArguments (name : List Char) : List Char := name.dropWhile (· != '<')

structure Qualifies (qualifier simple name : String) : Prop where
  spelled : name = qualifier ++ simple
  ends : qualifier = "" ∨ ∃ outer, qualifier = outer ++ "."
  plain : '<' ∉ qualifier.toList
  simple : '.' ∉ bareName simple.toList

theorem bareName_append_nameArguments (name : List Char) :
    bareName name ++ nameArguments name = name :=
  List.takeWhile_append_dropWhile

theorem not_mem_bareName (name : List Char) : '<' ∉ bareName name := by
  intro found
  simpa using List.mem_takeWhile_imp found

theorem bareName_append {before : List Char} (plain : '<' ∉ before) (rest : List Char) :
    bareName (before ++ rest) = before ++ bareName rest := by
  apply List.takeWhile_append_of_pos
  intro c found
  exact bne_iff_ne.mpr (ne_of_mem_of_not_mem found plain)

theorem nameArguments_append {before : List Char} (plain : '<' ∉ before) (rest : List Char) :
    nameArguments (before ++ rest) = nameArguments rest := by
  apply List.dropWhile_append_of_pos
  intro c found
  exact bne_iff_ne.mpr (ne_of_mem_of_not_mem found plain)

theorem bareName_nameArguments (name : List Char) : bareName (nameArguments name) = [] := by
  have whole := bareName_append_nameArguments (nameArguments name)
  have again : nameArguments (nameArguments name) = nameArguments name :=
    List.dropWhile_idempotent _ name
  rw [again] at whole
  exact List.append_left_eq_self.mp whole

variable {qualifier simple name : String}

theorem toList_presentableName (name : String) :
    (presentableName name).toList =
      (bareName name.toList).rtakeWhile (· != '.') ++ nameArguments name.toList :=
  String.toList_ofList

theorem rtakeWhile_append_of_ends {simple : List Char} (clean : '.' ∉ simple)
    (ends : qualifier = "" ∨ ∃ outer, qualifier = outer ++ ".") :
    (qualifier.toList ++ simple).rtakeWhile (· != '.') = simple := by
  have all : ∀ c ∈ simple.reverse, c != '.' := by
    intro c found
    exact bne_iff_ne.mpr (ne_of_mem_of_not_mem (List.mem_reverse.mp found) clean)
  rw [List.rtakeWhile, List.reverse_append, List.takeWhile_append_of_pos all]
  rcases ends with rfl | ⟨outer, rfl⟩ <;> simp

theorem presentableName_of_qualifies (qualifies : Qualifies qualifier simple name) :
    presentableName name = simple := by
  rw [qualifies.spelled, ← String.toList_inj, toList_presentableName, String.toList_append,
    bareName_append qualifies.plain, nameArguments_append qualifies.plain,
    rtakeWhile_append_of_ends qualifies.simple qualifies.ends, bareName_append_nameArguments]

theorem rdropWhile_ends (name : List Char) :
    String.ofList (name.rdropWhile (· != '.')) = "" ∨
      ∃ outer, String.ofList (name.rdropWhile (· != '.')) = outer ++ "." := by
  by_cases none : name.rdropWhile (· != '.') = []
  · exact .inl (congrArg String.ofList none)
  · right
    have dot : (name.rdropWhile (· != '.')).getLast none = '.' := by
      simpa using List.rdropWhile_last_not (· != '.') name none
    refine ⟨String.ofList (name.rdropWhile (· != '.')).dropLast, ?_⟩
    rw [← List.dropLast_append_getLast none, dot, String.ofList_append, List.dropLast_concat]

theorem exists_qualifies (name : String) :
    ∃ qualifier, Qualifies qualifier (presentableName name) name := by
  have cut := List.rdropWhile_append_rtakeWhile (p := (· != '.')) (l := bareName name.toList)
  have plain : '<' ∉ (bareName name.toList).rdropWhile (· != '.') := fun found =>
    not_mem_bareName name.toList ((List.rdropWhile_prefix _ _).subset found)
  have plainSimple : '<' ∉ (bareName name.toList).rtakeWhile (· != '.') := fun found =>
    not_mem_bareName name.toList ((List.rtakeWhile_suffix _ _).subset found)
  refine ⟨String.ofList ((bareName name.toList).rdropWhile (· != '.')), ?_, ?_, ?_, ?_⟩
  · rw [← String.toList_inj, String.toList_append, String.toList_ofList, toList_presentableName,
      ← List.append_assoc, cut, bareName_append_nameArguments]
  · exact rdropWhile_ends _
  · rwa [String.toList_ofList]
  · rw [toList_presentableName, bareName_append plainSimple, bareName_nameArguments,
      List.append_nil]
    intro found
    simpa using List.mem_rtakeWhile_imp found

theorem Qualifies.behind {outer : String} (plain : '<' ∉ outer.toList)
    (qualifies : Qualifies qualifier simple name) :
    Qualifies (outer ++ "." ++ qualifier) simple (outer ++ "." ++ name) := by
  have noDot : '<' ∉ ".".toList := by decide
  refine ⟨?_, .inr ?_, ?_, qualifies.simple⟩
  · rw [qualifies.spelled, ← String.append_assoc]
  · rcases qualifies.ends with rfl | ⟨inner, rfl⟩
    · exact ⟨outer, String.append_empty⟩
    · exact ⟨outer ++ "." ++ inner, String.append_assoc.symm⟩
  · simp only [String.toList_append, List.mem_append, not_or]
    exact ⟨⟨plain, noDot⟩, qualifies.plain⟩

theorem Qualifies.itself (qualifies : Qualifies qualifier simple name) :
    Qualifies "" simple simple :=
  ⟨String.empty_append.symm, .inl rfl, List.not_mem_nil, qualifies.simple⟩

/-- A presentable name is what is left of a name without its qualifier, and a name has one
qualifier only. -/
theorem presentableName_unqualified (name : String) :
    (∀ simple, (∃ qualifier, Qualifies qualifier simple name) ↔ simple = presentableName name) ∧
      presentableName (presentableName name) = presentableName name ∧
      nameArguments (presentableName name).toList = nameArguments name.toList ∧
      ∀ outer : String, '<' ∉ outer.toList →
        presentableName (outer ++ "." ++ name) = presentableName name := by
  obtain ⟨qualifier, qualifies⟩ := exists_qualifies name
  refine ⟨fun simple => ⟨?_, ?_⟩, ?_, ?_, ?_⟩
  · rintro ⟨other, otherQualifies⟩
    exact (presentableName_of_qualifies otherQualifies).symm
  · rintro rfl
    exact ⟨qualifier, qualifies⟩
  · exact presentableName_of_qualifies qualifies.itself
  · nth_rewrite 2 [qualifies.spelled]
    rw [String.toList_append, nameArguments_append qualifies.plain]
  · intro outer plain
    exact presentableName_of_qualifies (qualifies.behind plain)

/-- Dots between `<` and `>` are kept, and so is what stands behind `>`. -/
theorem presentableName_unqualified_nested :
    '<' ∉ "x.y".toList ∧
      presentableName "a.B<c.D>.E" = "B<c.D>.E" ∧
      presentableName ("x.y" ++ "." ++ "a.B<c.D>.E") = "B<c.D>.E" := by
  have plain : '<' ∉ "x.y".toList := by decide
  obtain ⟨cut, _, _, behind⟩ := presentableName_unqualified "a.B<c.D>.E"
  have qualifies : Qualifies "a." "B<c.D>.E" "a.B<c.D>.E" :=
    ⟨by decide, .inr ⟨"a", by decide⟩, by decide, by decide⟩
  have simple := (cut "B<c.D>.E").mp ⟨"a.", qualifies⟩
  exact ⟨plain, simple.symm, (behind "x.y" plain).trans simple.symm⟩

end LensPath.TypeTable
