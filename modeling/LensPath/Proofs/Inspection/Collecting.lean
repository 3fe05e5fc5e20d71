import LensPath.Proofs.Inspection.Each

/-!
Lenses checked one after the other into a sink. The sink gets what the checks of the lenses find,
lens by lens, and nothing from a lens whose check faults or from those behind it.
-/

namespace LensPath

def Sink.deliver (sink : Sink σ) (diagnostics : List Diagnostic) (state : σ) : σ :=
  diagnostics.foldl (fun state diagnostic => sink diagnostic state) state

theorem Sink.deliver_append (sink : Sink σ) (diagnostics more : List Diagnostic) (state : σ) :
    sink.deliver (diagnostics ++ more) state = sink.deliver more (sink.deliver diagnostics state) :=
  List.foldl_append

theorem Sink.deliver_collecting (diagnostics initial : List Diagnostic) :
    collecting.deliver diagnostics initial = initial ++ diagnostics := by
  induction diagnostics generalizing initial with
  | nil => exact (List.append_nil initial).symm
  | cons diagnostic rest induction =>
      change collecting.deliver rest (initial ++ [diagnostic]) = _
      rw [induction, List.append_assoc, List.singleton_append]

namespace TypeModel

abbrev Checked (model : TypeModel τ) (root : τ) :
    List Lens → List (List Diagnostic) → Prop :=
  List.Forall₂ fun lens found => model.check root lens = .ok found

/-- How lenses that are checked one after the other end: with a result for each of them, or with a
fault of the first lens that has none. -/
def EndsIn (model : TypeModel τ) (root : τ) (lenses : List Lens)
    (results : List (List Diagnostic)) : Option Fault → Prop
  | none => model.Checked root lenses results
  | some fault => ∃ before lens after, lenses = before ++ lens :: after ∧
      model.Checked root before results ∧ model.check root lens = .error fault

variable {model : TypeModel τ} {root : τ} {lenses : List Lens}

theorem exists_endsIn (model : TypeModel τ) (root : τ) (lenses : List Lens) :
    ∃ results ended, model.EndsIn root lenses results ended := by
  induction lenses with
  | nil => exact ⟨[], none, .nil⟩
  | cons lens rest induction =>
      cases checked : model.check root lens with
      | error fault => exact ⟨[], some fault, [], lens, rest, rfl, .nil, checked⟩
      | ok found =>
          obtain ⟨results, ended, ends⟩ := induction
          refine ⟨found :: results, ended, ?_⟩
          cases ended with
          | none => exact .cons checked ends
          | some fault =>
              obtain ⟨before, faulty, after, rfl, others, faulted⟩ := ends
              exact ⟨lens :: before, faulty, after, rfl, .cons checked others, faulted⟩

theorem length_le_one_of_check {lens : Lens} {found : List Diagnostic}
    (checked : model.check root lens = .ok found) : found.length ≤ 1 := by
  rw [check_eq] at checked
  cases diagnosed : model.diagnose root lens with
  | error fault =>
      rw [diagnosed] at checked
      cases checked
  | ok diagnostic =>
      rw [diagnosed] at checked
      cases checked
      exact Option.length_toList_le

theorem run_checkInto_of_ok {lens : Lens} {found : List Diagnostic}
    (checked : model.check root lens = .ok found) (sink : Sink σ) (state : σ) :
    (model.checkInto root sink lens).run state = .ok () (sink.deliver found state) := by
  rw [check_eq] at checked
  rw [run_checkInto]
  cases diagnosed : model.diagnose root lens with
  | error fault =>
      rw [diagnosed] at checked
      cases checked
  | ok diagnostic =>
      rw [diagnosed] at checked
      cases checked
      cases diagnostic <;> rfl

/-- A fault comes before the report that it takes the place of. -/
theorem run_checkInto_of_error {lens : Lens} {fault : Fault}
    (faulted : model.check root lens = .error fault) (sink : Sink σ) (state : σ) :
    (model.checkInto root sink lens).run state = .error fault state := by
  rw [check_eq] at faulted
  rw [run_checkInto]
  cases diagnosed : model.diagnose root lens with
  | error fault =>
      rw [diagnosed] at faulted
      cases faulted
      rfl
  | ok diagnostic =>
      rw [diagnosed] at faulted
      cases faulted

theorem checkAllInto_cons (sink : Sink σ) (lens : Lens) (rest : List Lens) (state : σ) :
    model.checkAllInto root sink (lens :: rest) state =
      match (model.checkInto root sink lens).run state with
      | .ok _ reported => model.checkAllInto root sink rest reported
      | .error fault reported => (reported, some fault) := by
  rw [checkAllInto, List.forM, EStateM.run_bind]
  cases (model.checkInto root sink lens).run state <;> rfl

theorem checkAllInto_append {before : List Lens} {results : List (List Diagnostic)}
    (checked : model.Checked root before results) (sink : Sink σ) (rest : List Lens) (state : σ) :
    model.checkAllInto root sink (before ++ rest) state =
      model.checkAllInto root sink rest (sink.deliver results.flatten state) := by
  induction checked generalizing state with
  | nil => rfl
  | cons here _ induction =>
      rw [List.cons_append, checkAllInto_cons, run_checkInto_of_ok here, List.flatten_cons,
        Sink.deliver_append]
      exact induction _

/-- What a sink has got when lenses are checked into it tells nothing of what it had before. -/
theorem EndsIn.checkAllInto_eq {results : List (List Diagnostic)} {ended : Option Fault}
    (ends : model.EndsIn root lenses results ended) (sink : Sink σ) (state : σ) :
    model.checkAllInto root sink lenses state = (sink.deliver results.flatten state, ended) := by
  cases ended with
  | none =>
      rw [← List.append_nil lenses]
      exact checkAllInto_append ends sink [] state
  | some fault =>
      obtain ⟨before, lens, after, rfl, checked, faulted⟩ := ends
      rw [checkAllInto_append checked, checkAllInto_cons, run_checkInto_of_error faulted]

theorem EndsIn.mapM_check {results : List (List Diagnostic)} {ended : Option Fault}
    (ends : model.EndsIn root lenses results ended) :
    lenses.mapM (model.check root) = ended.elim (.ok results) .error := by
  cases ended with
  | none => exact mapM_eq_ok_iff.mpr ends
  | some fault =>
      obtain ⟨before, lens, after, rfl, checked, faulted⟩ := ends
      rw [List.mapM_append, mapM_eq_ok_iff.mpr checked, List.mapM_cons, faulted]
      rfl

theorem EndsIn.inspect_eq {results : List (List Diagnostic)} {ended : Option Fault}
    (ends : model.EndsIn root lenses results ended) (host : model.isHost root = true) :
    model.inspect root lenses = ended.elim (.ok (some results)) .error := by
  rw [inspect, if_pos host, ends.mapM_check]
  cases ended <;> rfl

theorem length_le_one_of_checked {results : List (List Diagnostic)}
    (checked : model.Checked root lenses results) : ∀ found ∈ results, found.length ≤ 1 := by
  induction checked with
  | nil => exact nofun
  | cons here _ induction =>
      rw [List.forall_mem_cons]
      exact ⟨length_le_one_of_check here, induction⟩

theorem EndsIn.length_le_one {results : List (List Diagnostic)} {ended : Option Fault}
    (ends : model.EndsIn root lenses results ended) : ∀ found ∈ results, found.length ≤ 1 := by
  cases ended with
  | none => exact length_le_one_of_checked ends
  | some fault =>
      obtain ⟨_, _, _, _, checked, _⟩ := ends
      exact length_le_one_of_checked checked

theorem EndsIn.eq_sumOverflow {results : List (List Diagnostic)} {fault : Fault}
    (ends : model.EndsIn root lenses results (some fault)) : fault = .sumOverflow := by
  obtain ⟨_, _, _, _, _, faulted⟩ := ends
  exact eq_sumOverflow_of_check faulted

/-- The checks of lenses have results up to the first fault. A sink that collects has got just
these, behind what it held before, and an inspection of a host yields them if there is no fault. -/
theorem checkAllInto_collects (model : TypeModel τ) (root : τ) (lenses : List Lens) :
    ∃ results ended, model.EndsIn root lenses results ended ∧
      (∀ found ∈ results, found.length ≤ 1) ∧
      (∀ fault, ended = some fault → fault = .sumOverflow) ∧
      (∀ initial, model.checkAllInto root .collecting lenses initial =
        (initial ++ results.flatten, ended)) ∧
      (model.inspect root lenses = .ok none ↔ model.isHost root = false) ∧
      (model.isHost root = true →
        model.inspect root lenses = ended.elim (.ok (some results)) .error) := by
  obtain ⟨results, ended, ends⟩ := exists_endsIn model root lenses
  refine ⟨results, ended, ends, ends.length_le_one, ?_, ?_, inspect_eq_ok_iff, ends.inspect_eq⟩
  · intro fault same
    subst same
    exact ends.eq_sumOverflow
  · intro initial
    rw [ends.checkAllInto_eq, Sink.deliver_collecting]

/-- A blank path, two calls that are written to, of which the second ends behind the last offset,
and a member that does not exist. -/
def personLenses : List Lens :=
  [⟨" ", .read, 0⟩, ⟨"name()", .write, 3⟩, ⟨"name()", .write, offsetBound - 6⟩, ⟨"nom", .read, 0⟩]

theorem checkAllInto_collects_person :
    personTable.model.isHost "Person" = true ∧
      personTable.model.checkAllInto "Person" .collecting personLenses
          [.methodWritten "get" ⟨0, 5⟩] =
        ([.methodWritten "get" ⟨0, 5⟩, .blankPath, .methodWritten "name" ⟨3, 9⟩],
          some .sumOverflow) ∧
      personTable.model.inspect "Person" personLenses = .error .sumOverflow := by
  have host : personTable.model.isHost "Person" = true := by decide +kernel
  have fresh : personTable.model.checkAllInto "Person" .collecting personLenses [] =
      ([.blankPath, .methodWritten "name" ⟨3, 9⟩], some .sumOverflow) := by decide +kernel
  obtain ⟨results, ended, _, _, _, collected, _, inspected⟩ :=
    checkAllInto_collects personTable.model "Person" personLenses
  rw [collected, List.nil_append, Prod.mk.injEq] at fresh
  obtain ⟨reports, rfl⟩ := fresh
  refine ⟨host, ?_, inspected host⟩
  rw [collected, reports]
  rfl

end TypeModel

end LensPath
