import LensPath.Proofs.Highlight
import LensPath.Proofs.Reading.RoundTrip

/-!
What is dropped of a text when its path is read does not count. A text and the path that is kept of
it, written out, get the same diagnostics and the same highlights.
-/

namespace LensPath

theorem Path.not_blank_of_kept {source : String} (kept : (ofString source).isEmpty = false) :
    ¬ Blank source := by
  intro blank
  rw [ofString_of_blank blank] at kept
  cases kept

theorem Path.ofString_render_kept {source : String} (kept : (ofString source).isEmpty = false) :
    ofString (Member.render (ofString source).members) = ofString source := by
  rcases ofString_cases source with nothing | ⟨readable, _⟩
  · rw [nothing] at kept
    cases kept
  · have reading := Reading.ofString_of_sentence readable.sentence
    rw [← ofString_eq_placed] at reading
    change (Reading.ofString (Member.render (ofString source).members)).path = _
    rw [reading]

/-- The lens with the path that is kept of its text, written out, in the place of the text. -/
def Lens.canonical (lens : Lens) : Lens :=
  { lens with path := (Path.ofString lens.path).display }

theorem Lens.ofString_canonical {lens : Lens} (kept : (Path.ofString lens.path).isEmpty = false) :
    Path.ofString lens.canonical.path = Path.ofString lens.path := by
  rw [canonical, Path.display_eq_render, Path.ofString_render_kept kept]

namespace TypeModel

variable {model : TypeModel τ} {root : τ} {lens other : Lens}

theorem check_eq_of_same_path (kept : (Path.ofString lens.path).isEmpty = false)
    (path : Path.ofString other.path = Path.ofString lens.path) (mode : other.mode = lens.mode)
    (offset : other.offset = lens.offset) : model.check root other = model.check root lens := by
  have otherKept : (Path.ofString other.path).isEmpty = false := by rwa [path]
  rw [check_eq, check_eq, diagnose_of_not_blank model root (Path.not_blank_of_kept otherKept),
    diagnose_of_not_blank model root (Path.not_blank_of_kept kept), path, mode, offset]

theorem check_of_nothing_kept (notBlank : ¬ Blank lens.path)
    (nothing : Path.ofString lens.path = .empty) : model.check root lens = .ok [] := by
  rw [check_eq, diagnose_of_not_blank model root notBlank, nothing, diagnosePath_empty]
  rfl

/-- What is said of a lens is told by the path that is kept of its text, unless the text is
blank. -/
theorem check_canonical (model : TypeModel τ) (root : τ) (lens : Lens) :
    ((Path.ofString lens.path).isEmpty = false →
      model.check root lens.canonical = model.check root lens ∧
      highlights lens.canonical.path lens.offset = highlights lens.path lens.offset ∧
      (lens.Fits →
        (∃ diagnostics, model.check root lens = .ok diagnostics) ∧
        ∃ marks, highlights lens.path lens.offset = .ok marks)) ∧
    (¬ Blank lens.path → (Path.ofString lens.path).isEmpty = true →
      model.check root lens = .ok [] ∧ highlights lens.path lens.offset = .ok []) := by
  constructor
  · intro kept
    refine ⟨check_eq_of_same_path kept (Lens.ofString_canonical kept) rfl rfl, ?_, ?_⟩
    · rw [highlights_eq, highlights_eq, Lens.ofString_canonical kept]
    · intro fits
      refine ⟨⟨_, check_of_not_blank model root (Path.not_blank_of_kept kept) fits⟩, ?_⟩
      rw [highlights_eq]
      exact ⟨_, Path.highlights_ofString fits⟩
  · intro notBlank isEmpty
    have nothing := Path.eq_empty (List.isEmpty_iff.mp isEmpty)
    refine ⟨check_of_nothing_kept notBlank nothing, ?_⟩
    rw [highlights_eq, nothing, Path.highlights_empty]

/-- A call that fits to the last byte, with a letter dropped behind it, and a text that yields
nothing, at the last offset there is. -/
theorem check_canonical_person :
    (Lens.canonical ⟨"name().é", .write, offsetBound - 7⟩ =
        ⟨"name()", .write, offsetBound - 7⟩ ∧
      personTable.model.check "Person" ⟨"name()", .write, offsetBound - 7⟩ =
        .ok [.methodWritten "name" ⟨offsetBound - 7, offsetBound - 1⟩] ∧
      personTable.model.check "Person" ⟨"name().é", .write, offsetBound - 7⟩ =
        .ok [.methodWritten "name" ⟨offsetBound - 7, offsetBound - 1⟩] ∧
      highlights "name()" (offsetBound - 7) = .ok [⟨.method, offsetBound - 7, offsetBound - 3⟩,
        ⟨.call, offsetBound - 3, offsetBound - 1⟩] ∧
      highlights "name().é" (offsetBound - 7) = .ok [⟨.method, offsetBound - 7, offsetBound - 3⟩,
        ⟨.call, offsetBound - 3, offsetBound - 1⟩]) ∧
    personTable.model.check "Person" ⟨".city", .read, offsetBound - 1⟩ = .ok [] ∧
      highlights ".city" (offsetBound - 1) = .ok [] := by
  have written : Lens.canonical ⟨"name().é", .write, offsetBound - 7⟩ =
      ⟨"name()", .write, offsetBound - 7⟩ := by
    have kept : (Path.ofString "name().é").display = "name()" := by decide +kernel
    rw [Lens.canonical, kept]
  have checked : personTable.model.check "Person" ⟨"name()", .write, offsetBound - 7⟩ =
      .ok [.methodWritten "name" ⟨offsetBound - 7, offsetBound - 1⟩] :=
    eq_ok_of_toOption (by decide +kernel)
  have marks : highlights "name()" (offsetBound - 7) =
      .ok [⟨.method, offsetBound - 7, offsetBound - 3⟩,
        ⟨.call, offsetBound - 3, offsetBound - 1⟩] := eq_ok_of_toOption (by decide +kernel)
  have notBlank : ¬ Blank ".city" := by decide +kernel
  obtain ⟨call, _⟩ := check_canonical personTable.model "Person"
    ⟨"name().é", .write, offsetBound - 7⟩
  obtain ⟨_, nothing⟩ := check_canonical personTable.model "Person"
    ⟨".city", .read, offsetBound - 1⟩
  obtain ⟨same, marked, _⟩ := call (by decide +kernel)
  rw [written] at same marked
  exact ⟨⟨written, checked, same.symm.trans checked, marks, marked.symm.trans marks⟩,
    nothing notBlank (by decide +kernel)⟩

end TypeModel

end LensPath
