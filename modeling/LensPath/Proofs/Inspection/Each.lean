import LensPath.Proofs.Inspection.Shifted
import Mathlib.Data.List.Forall2

/-!
Inspections of many lenses. Each lens is checked on its own, and the results stand in the order of
the lenses.
-/

namespace LensPath

section Results

variable {f : α → Except ε β} {list : List α}

theorem mapM_eq_ok_iff {results : List β} :
    list.mapM f = .ok results ↔
      List.Forall₂ (fun element result => f element = .ok result) list results := by
  induction list generalizing results with
  | nil =>
      rw [List.mapM_nil, List.forall₂_nil_left_iff]
      exact ⟨fun same => (Except.ok.inj same).symm, fun same => congrArg Except.ok same.symm⟩
  | cons element rest induction =>
      rw [List.mapM_cons, List.forall₂_cons_left_iff]
      cases found : f element with
      | error fault =>
          refine iff_of_false nofun ?_
          rintro ⟨result, _, succeeds, _⟩
          cases succeeds
      | ok result =>
          cases others : rest.mapM f with
          | error fault =>
              refine iff_of_false nofun ?_
              rintro ⟨_, more, _, succeed, _⟩
              cases others.symm.trans (induction.mpr succeed)
          | ok more =>
              constructor
              · rintro ⟨⟩
                exact ⟨result, more, rfl, induction.mp others, rfl⟩
              · rintro ⟨_, _, ⟨⟩, succeed, rfl⟩
                cases others.symm.trans (induction.mpr succeed)
                rfl

theorem exists_of_mapM_eq_error {fault : ε} (faulted : list.mapM f = .error fault) :
    ∃ element ∈ list, f element = .error fault := by
  induction list with
  | nil => cases faulted
  | cons element rest induction =>
      rw [List.mapM_cons] at faulted
      cases found : f element with
      | error other =>
          rw [found] at faulted
          cases faulted
          exact ⟨element, List.mem_cons_self, found⟩
      | ok result =>
          cases others : rest.mapM f with
          | ok more =>
              rw [found, others] at faulted
              cases faulted
          | error other =>
              rw [found, others] at faulted
              cases faulted
              obtain ⟨later, member, laterFaulted⟩ := induction others
              exact ⟨later, List.mem_cons_of_mem element member, laterFaulted⟩

theorem exists_mapM_eq_ok (each : ∀ element ∈ list, ∃ result, f element = .ok result) :
    ∃ results, list.mapM f = .ok results := by
  cases found : list.mapM f with
  | ok results => exact ⟨results, rfl⟩
  | error fault =>
      obtain ⟨element, member, faulted⟩ := exists_of_mapM_eq_error found
      obtain ⟨result, succeeded⟩ := each element member
      cases succeeded.symm.trans faulted

theorem mapM_eq_ite {g : α → β} {fits : α → Prop} [DecidablePred fits] {fault : ε}
    (each : ∀ element ∈ list,
      f element = if fits element then .ok (g element) else .error fault) :
    list.mapM f = if ∀ element ∈ list, fits element then .ok (list.map g) else .error fault := by
  induction list with
  | nil => simp; rfl
  | cons element rest induction =>
      obtain ⟨first, later⟩ := List.forall_mem_cons.mp each
      rw [List.mapM_cons, first, induction later]
      by_cases here : fits element
      · by_cases others : ∀ other ∈ rest, fits other
        · rw [if_pos here, if_pos others, if_pos (List.forall_mem_cons.mpr ⟨here, others⟩)]
          rfl
        · rw [if_pos here, if_neg others, if_neg fun all => others (List.forall_mem_cons.mp all).2]
          rfl
      · rw [if_neg here, if_neg fun all => here (List.forall_mem_cons.mp all).1]
        rfl

end Results

namespace TypeModel

def Finds (model : TypeModel τ) (root : τ) (lenses : List Lens) :
    Option (List (List Diagnostic)) → Prop
  | none => model.isHost root = false
  | some found => model.isHost root = true ∧
      List.Forall₂ (fun lens diagnostics => model.check root lens = .ok diagnostics) lenses found

variable {model : TypeModel τ} {root : τ} {lenses : List Lens}

theorem inspect_eq_ok_iff {found : Option (List (List Diagnostic))} :
    model.inspect root lenses = .ok found ↔ model.Finds root lenses found := by
  rw [inspect]
  cases host : model.isHost root with
  | false =>
      cases found with
      | none => exact iff_of_true rfl host
      | some found =>
          refine iff_of_false nofun fun finds => ?_
          cases host.symm.trans finds.1
  | true =>
      cases found with
      | none =>
          refine iff_of_false ?_ fun finds => by cases host.symm.trans finds
          cases lenses.mapM (model.check root) <;> rintro ⟨⟩
      | some found =>
          rw [Finds, ← mapM_eq_ok_iff, and_iff_right host]
          cases lenses.mapM (model.check root) with
          | error fault => exact iff_of_false nofun nofun
          | ok results =>
              exact ⟨fun same => by cases same; rfl, fun same => by cases same; rfl⟩

theorem exists_of_inspect_eq_error {fault : Fault}
    (faulted : model.inspect root lenses = .error fault) :
    model.isHost root = true ∧ ∃ lens ∈ lenses, model.check root lens = .error fault := by
  rw [inspect] at faulted
  split at faulted
  · next host =>
      refine ⟨host, exists_of_mapM_eq_error ?_⟩
      cases checked : lenses.mapM (model.check root) with
      | ok results =>
          rw [checked] at faulted
          cases faulted
      | error other =>
          rw [checked] at faulted
          cases faulted
          rfl
  · cases faulted

end TypeModel

end LensPath
