import LensPath.Proofs.Highlight.Shifted
import LensPath.Proofs.Inspection.Each
import Mathlib.Algebra.GroupWithZero.Nat

/-!
Offsets as translations. What is found in a text is found at every offset, moved there, unless one
of its spans then ends behind the last offset there is.
-/

namespace LensPath

namespace Diagnostic

def WellFormed (diagnostic : Diagnostic) : Prop :=
  ∀ span ∈ diagnostic.span?, span.Ordered ∧ span.stop < offsetBound

variable {diagnostic : Diagnostic} {offset : Nat}

theorem exists_ge_iff {found : List Diagnostic} :
    (∃ diagnostic ∈ found, ∃ span ∈ diagnostic.span?, offsetBound ≤ span.stop + offset) ↔
      ¬ ∀ diagnostic ∈ found, diagnostic.Fits offset := by
  simp only [not_forall, exists_prop, ← not_fits_iff]

@[simp] theorem translate_zero (diagnostic : Diagnostic) :
    diagnostic.translate 0 = diagnostic := by
  cases diagnostic <;> rfl

theorem translate_translate (diagnostic : Diagnostic) (first second : Nat) :
    (diagnostic.translate first).translate second = diagnostic.translate (first + second) := by
  cases diagnostic <;> simp only [translate, Span.translate, Nat.add_assoc]

theorem fits_translate_iff {first second : Nat} :
    (diagnostic.translate first).Fits second ↔ diagnostic.Fits (first + second) := by
  simp [Fits, Span.translate, Nat.add_assoc]

theorem Fits.of_le {other : Nat} (fits : diagnostic.Fits other) (le : offset ≤ other) :
    diagnostic.Fits offset := by
  intro span located
  have bound := fits span located
  omega

theorem WellFormed.ordered (wellFormed : diagnostic.WellFormed) :
    ∀ span ∈ diagnostic.span?, span.Ordered :=
  fun span located => (wellFormed span located).1

theorem WellFormed.shift_zero (wellFormed : diagnostic.WellFormed) :
    diagnostic.shift 0 = .ok diagnostic := by
  have fits : diagnostic.Fits 0 := fun span located => (wellFormed span located).2
  rw [shift_eq_ite wellFormed.ordered, if_pos fits, translate_zero]

theorem WellFormed.translate (wellFormed : diagnostic.WellFormed) (fits : diagnostic.Fits offset) :
    (diagnostic.translate offset).WellFormed := by
  intro span located
  rw [translate_span?] at located
  obtain ⟨here, found, rfl⟩ := Option.map_eq_some_iff.mp located
  exact ⟨Nat.add_le_add_right (wellFormed.ordered here found) offset, fits here found⟩

theorem WellFormed.shift_add (wellFormed : diagnostic.WellFormed) (first second : Nat) :
    (diagnostic.shift first >>= (·.shift second)) = diagnostic.shift (first + second) := by
  rw [shift_eq_ite wellFormed.ordered first]
  by_cases fits : diagnostic.Fits first
  · rw [if_pos fits]
    change (diagnostic.translate first).shift second = _
    rw [shift_eq_ite (wellFormed.translate fits).ordered, shift_eq_ite wellFormed.ordered,
      translate_translate]
    exact if_congr fits_translate_iff rfl rfl
  · have exceeds : ¬ diagnostic.Fits (first + second) :=
      fun sum => fits (sum.of_le (Nat.le_add_right first second))
    rw [if_neg fits, shift_eq_ite wellFormed.ordered, if_neg exceeds]
    rfl

theorem WellFormed.foldlM_shift (wellFormed : diagnostic.WellFormed) (offsets : List Nat) :
    offsets.foldlM shift diagnostic = diagnostic.shift offsets.sum := by
  induction offsets generalizing diagnostic with
  | nil => exact wellFormed.shift_zero.symm
  | cons offset rest induction =>
      rw [List.foldlM_cons, List.sum_cons, ← wellFormed.shift_add,
        shift_eq_ite wellFormed.ordered offset]
      split
      · next fits => exact induction (wellFormed.translate fits)
      · rfl

end Diagnostic

namespace TypeModel

def finding (model : TypeModel τ) (root : τ) (mode : Lens.Mode) (text : String) :
    Option Diagnostic :=
  if Blank text then some .blankPath else model.diagnosePath root mode (Path.ofString text)

variable {model : TypeModel τ} {root : τ} {mode : Lens.Mode} {text : String}

theorem check_eq_mapM (model : TypeModel τ) (root : τ) (lens : Lens) :
    model.check root lens =
      (model.finding root lens.mode lens.path).toList.mapM (·.shift lens.offset) := by
  rw [finding]
  split
  · next blank => rw [check_of_blank model root blank]; rfl
  · next notBlank =>
      rw [check_eq, diagnose_of_not_blank model root notBlank]
      cases model.diagnosePath root lens.mode (Path.ofString lens.path) with
      | none => rfl
      | some diagnostic =>
          rw [Option.toList_some, List.mapM_cons]
          change Option.toList <$> some <$> diagnostic.shift lens.offset = _
          cases diagnostic.shift lens.offset <;> rfl

theorem wellFormed_finding (size : text.utf8ByteSize < offsetBound) :
    ∀ diagnostic ∈ (model.finding root mode text).toList, diagnostic.WellFormed := by
  intro diagnostic found span located
  rw [Option.mem_toList, finding] at found
  split at found
  · cases found
    cases located
  · obtain ⟨segment, kept, isAbout⟩ := exists_segment_of_diagnosePath found
    rw [isAbout.span] at located
    cases located
    have covers := Path.covers_segment kept
    exact ⟨covers.ordered, Nat.lt_of_le_of_lt covers.stop_le size⟩

/-- What a check finds at the first byte of a text tells what it finds at an offset. -/
structure Moves (model : TypeModel τ) (root : τ) (text : String) (mode : Lens.Mode)
    (found : List Diagnostic) (offset : Nat) : Prop where
  faults : model.check root ⟨text, mode, offset⟩ = .error .sumOverflow ↔
    ∃ diagnostic ∈ found, ∃ span ∈ diagnostic.span?, offsetBound ≤ span.stop + offset
  moves : (¬ ∃ diagnostic ∈ found, ∃ span ∈ diagnostic.span?,
      offsetBound ≤ span.stop + offset) →
    ∃ moved, model.check root ⟨text, mode, offset⟩ = .ok moved ∧
      found.mapM (·.shift offset) = .ok moved
  clean : model.check root ⟨text, mode, offset⟩ = .ok [] ↔ found = []

theorem moves_finding (size : text.utf8ByteSize < offsetBound) (offset : Nat) :
    model.Moves root text mode (model.finding root mode text).toList offset := by
  have checked := model.check_eq_mapM root ⟨text, mode, offset⟩
  have wellFormed := @wellFormed_finding _ model root mode text size
  simp only at checked
  generalize (model.finding root mode text).toList = found at checked wellFormed
  have moved := mapM_eq_ite fun diagnostic member =>
    Diagnostic.shift_eq_ite (wellFormed diagnostic member).ordered offset
  rw [moved] at checked
  by_cases all : ∀ diagnostic ∈ found, diagnostic.Fits offset
  · rw [if_pos all] at checked moved
    refine ⟨iff_of_false ?_ (mt Diagnostic.exists_ge_iff.mp (not_not_intro all)),
      fun _ => ⟨_, checked, moved⟩, ?_⟩
    · rw [checked]
      exact nofun
    · rw [checked, Except.ok.injEq, List.map_eq_nil_iff]
  · rw [if_neg all] at checked
    have exceeds := Diagnostic.exists_ge_iff.mpr all
    refine ⟨iff_of_true checked exceeds, fun fits => absurd exceeds fits,
      iff_of_false ?_ ?_⟩
    · rw [checked]
      exact nofun
    · intro none
      subst none
      obtain ⟨_, none, _⟩ := exceeds
      cases none

theorem check_start (size : text.utf8ByteSize < offsetBound) :
    model.check root ⟨text, mode, 0⟩ = .ok (model.finding root mode text).toList := by
  rw [check_eq_mapM, mapM_eq_ok_iff, List.forall₂_same]
  exact fun diagnostic found => (wellFormed_finding size diagnostic found).shift_zero

end TypeModel

theorem Highlight.translate_zero : translate 0 = id := rfl

theorem Path.not_exceeds_zero {text : String} (size : text.utf8ByteSize < offsetBound) :
    ¬ (ofString text).Exceeds 0 := by
  intro exceeds
  obtain ⟨kept, bound⟩ := exceeds_ofString_iff.mp exceeds
  obtain ⟨rest, spelled⟩ := (ofString_tiles text kept).head
  rw [spelled, String.utf8ByteSize_append] at size
  omega

/-- Whatever is found in a text at its first byte is found at each offset, that much further right,
and a fault stands for what would then end behind the last offset. -/
theorem TypeModel.offsets_translate (model : TypeModel τ) (root : τ) {text : String}
    (size : text.utf8ByteSize < offsetBound) :
    (∀ mode, ∃ found, model.check root ⟨text, mode, 0⟩ = .ok found ∧
      ∀ offset, model.Moves root text mode found offset) ∧
    (∃ marks, highlights text 0 = .ok marks ∧ ∀ offset,
      (highlights text offset = .error .sumOverflow ↔
        (Path.ofString text).isEmpty = false ∧ (Path.ofString text).Exceeds offset) ∧
      (¬ (Path.ofString text).Exceeds offset →
        highlights text offset = .ok (marks.map (Highlight.translate offset)))) ∧
    (∀ diagnostic : Diagnostic, diagnostic.WellFormed → ∀ offsets : List Nat,
      offsets.foldlM Diagnostic.shift diagnostic = diagnostic.shift offsets.sum ∧
      (offsets.foldlM Diagnostic.shift diagnostic = .error .sumOverflow ↔
        ∃ span ∈ diagnostic.span?, offsetBound ≤ span.stop + offsets.sum) ∧
      ((¬ ∃ span ∈ diagnostic.span?, offsetBound ≤ span.stop + offsets.sum) →
        offsets.foldlM Diagnostic.shift diagnostic = .ok (diagnostic.translate offsets.sum))) ∧
    ∀ offsets : List Nat, offsets.foldlM Diagnostic.shift .blankPath = .ok .blankPath := by
  refine ⟨fun mode => ⟨_, check_start size, moves_finding size⟩, ?_, ?_, ?_⟩
  · refine ⟨(Path.ofString text).parts.flatMap Part.highlights, ?_, ?_⟩
    · rw [highlights_eq, Path.highlights_of_not_exceeds (Path.not_exceeds_zero size)]
      rw [Highlight.translate_zero, List.map_id]
    · intro offset
      rw [highlights_eq]
      refine ⟨⟨?_, fun exceeds => Path.highlights_of_exceeds exceeds.2⟩,
        Path.highlights_of_not_exceeds⟩
      intro faulted
      by_cases exceeds : (Path.ofString text).Exceeds offset
      · exact ⟨(Path.exceeds_ofString_iff.mp exceeds).1, exceeds⟩
      · rw [Path.highlights_of_not_exceeds exceeds] at faulted
        cases faulted
  · intro diagnostic wellFormed offsets
    rw [wellFormed.foldlM_shift, ← Diagnostic.not_fits_iff,
      Diagnostic.shift_eq_ite wellFormed.ordered]
    refine ⟨rfl, ?_, fun fits => if_pos (not_not.mp fits)⟩
    split
    · next fits => exact iff_of_false nofun (not_not_intro fits)
    · next exceeds => exact iff_of_true rfl exceeds
  · intro offsets
    have wellFormed : Diagnostic.blankPath.WellFormed := nofun
    exact wellFormed.foldlM_shift offsets

/-- A call that is written to, at the last offset with room for it and at the one behind. -/
theorem TypeModel.offsets_translate_name :
    "name().é".utf8ByteSize < offsetBound ∧
      personTable.model.check "Person" ⟨"name().é", .write, 0⟩ =
        .ok [.methodWritten "name" ⟨0, 6⟩] ∧
      personTable.model.check "Person" ⟨"name().é", .write, offsetBound - 7⟩ =
        .ok [.methodWritten "name" ⟨offsetBound - 7, offsetBound - 1⟩] ∧
      personTable.model.check "Person" ⟨"name().é", .write, offsetBound - 6⟩ =
        .error .sumOverflow ∧
      highlights "name().é" (offsetBound - 7) =
        .ok [⟨.method, offsetBound - 7, offsetBound - 3⟩,
          ⟨.call, offsetBound - 3, offsetBound - 1⟩] ∧
      [offsetBound - 9, 2].foldlM Diagnostic.shift (.methodWritten "name" ⟨0, 6⟩) =
        .ok (.methodWritten "name" ⟨offsetBound - 7, offsetBound - 1⟩) := by
  have size : "name().é".utf8ByteSize < offsetBound := by decide
  obtain ⟨checks, ⟨marks, marked, highlighted⟩, shifts, _⟩ :=
    offsets_translate personTable.model "Person" size
  obtain ⟨found, started, moves⟩ := checks .write
  have first : personTable.model.check "Person" ⟨"name().é", .write, 0⟩ =
      .ok [.methodWritten "name" ⟨0, 6⟩] := eq_ok_of_toOption (by decide +kernel)
  cases started.symm.trans first
  refine ⟨size, first, ?_, ?_, ?_, ?_⟩
  · obtain ⟨moved, checked, shifted⟩ := (moves (offsetBound - 7)).moves (by decide)
    cases shifted
    exact checked
  · exact (moves (offsetBound - 6)).faults.mpr ⟨_, List.mem_singleton_self _, _, rfl, by decide⟩
  · have unmoved : highlights "name().é" 0 = .ok [⟨.method, 0, 4⟩, ⟨.call, 4, 6⟩] :=
      eq_ok_of_toOption (by decide +kernel)
    cases marked.symm.trans unmoved
    apply (highlighted (offsetBound - 7)).2
    intro exceeds
    have bound := (Path.exceeds_ofString_iff.mp exceeds).2
    have kept : (Path.ofString "name().é").display = "name()" := by decide +kernel
    rw [kept] at bound
    exact absurd bound (by decide)
  · have wellFormed : (Diagnostic.methodWritten "name" ⟨0, 6⟩).WellFormed := by
      intro span located
      cases located
      decide
    exact (shifts _ wellFormed [offsetBound - 9, 2]).2.2 (by decide)

end LensPath
