import LensPath.Proofs.Inspection.Each
import LensPath.Proofs.Manifest.Groups
import LensPath.Proofs.Resolution.Summary
import LensPath.Run

/-!
Verdicts on manifests. A manifest is clean when each lens on a host is clean on its own, in whatever
groups and order the lenses are gone through. The lenses on other types do not count.
-/

namespace LensPath

theorem runCheck_clean_iff {table : TypeTable} {root : String} {lens : Lens} :
    (runCheck table root lens).ending = .clean ↔
      table.contains root = true ∧ table.model.check root lens = .ok [] := by
  by_cases known : table.contains root = true
  · rw [and_iff_right known]
    cases checked : table.model.check root lens with
    | error fault =>
        simp only [runCheck, if_pos known, checked]
        exact iff_of_false (by rintro ⟨⟩) (by rintro ⟨⟩)
    | ok diagnostics =>
        cases diagnostics with
        | nil =>
            obtain ⟨text, summed⟩ := table.model.exists_summary root (Path.ofString lens.path)
            exact iff_of_true (runCheck_of_clean known checked summed).1 rfl
        | cons diagnostic rest =>
            simp only [runCheck, if_pos known, checked]
            exact iff_of_false (by rintro ⟨⟩) (by rintro ⟨⟩)
  · rw [runCheck, if_neg known]
    exact iff_of_false (by rintro ⟨⟩) fun clean => known clean.1

/-- The type is unknown, declared inside another type, or an interface. -/
def TypeTable.Unhosted (table : TypeTable) (type : String) : Prop :=
  ∀ decl, table.get? type = some decl → decl.isNested = true ∨ decl.kind = .interfaceType

theorem TypeTable.isHost_eq_false_iff {table : TypeTable} {type : String} :
    table.model.isHost type = false ↔ table.Unhosted type := by
  cases declared : table.get? type with
  | none => simp [model, Unhosted, declared]
  | some decl => cases kind : decl.kind <;> simp [model, Unhosted, declared, kind]

namespace Manifest

def hosted (manifest : Manifest) : List Entry :=
  manifest.entries.filter (manifest.model.model.isHost ·.root)

/-- No lens on a host stands so far right in its text that a span of its check overflows. -/
def Fits (manifest : Manifest) : Prop :=
  ∀ entry ∈ manifest.hosted,
    manifest.model.model.check entry.root entry.lens ≠ .error .sumOverflow

/-- What is to be said of a root: the lenses declared on it, in order, and beside each lens what
its own check reports, if the root hosts lenses. -/
structure Describes (manifest : Manifest) (inspection : RootInspection) : Prop where
  lenses : inspection.lenses = Entry.lensesOn inspection.root manifest.entries
  finds : manifest.model.model.Finds inspection.root inspection.lenses inspection.found

variable {manifest : Manifest}

theorem mem_hosted_iff {entry : Entry} :
    entry ∈ manifest.hosted ↔
      entry ∈ manifest.entries ∧ manifest.model.model.isHost entry.root = true :=
  List.mem_filter

theorem fits_of_lenses (fits : ∀ entry ∈ manifest.entries, entry.lens.Fits) : manifest.Fits := by
  intro entry hosted faulted
  by_cases blank : Blank entry.lens.path
  · rw [TypeModel.check_of_blank _ _ blank] at faulted
    cases faulted
  · have fitsHere := fits entry (mem_hosted_iff.mp hosted).1
    rw [TypeModel.check_of_not_blank _ _ blank fitsHere] at faulted
    cases faulted

namespace Describes

variable {inspection : RootInspection} {lens : Lens}

theorem check_of_mem_checked (describes : manifest.Describes inspection)
    {diagnostics : List Diagnostic} (checked : (lens, diagnostics) ∈ inspection.checked) :
    ⟨inspection.root, lens⟩ ∈ manifest.hosted ∧
      manifest.model.model.check inspection.root lens = .ok diagnostics := by
  have finds := describes.finds
  rw [RootInspection.checked] at checked
  cases found : inspection.found with
  | none =>
      rw [found, Option.getD_none, List.zip_nil_right] at checked
      cases checked
  | some results =>
      rw [found] at checked finds
      have declared := (List.of_mem_zip checked).1
      rw [describes.lenses, Entry.mem_lensesOn_iff] at declared
      exact ⟨mem_hosted_iff.mpr ⟨declared, finds.1⟩, List.forall₂_zip finds.2 checked⟩

theorem exists_mem_checked (describes : manifest.Describes inspection)
    (hosted : ⟨inspection.root, lens⟩ ∈ manifest.hosted) :
    ∃ diagnostics, (lens, diagnostics) ∈ inspection.checked := by
  obtain ⟨declared, host⟩ := mem_hosted_iff.mp hosted
  rw [← Entry.mem_lensesOn_iff, ← describes.lenses] at declared
  have finds := describes.finds
  rw [RootInspection.checked]
  cases found : inspection.found with
  | none =>
      rw [found] at finds
      cases host.symm.trans finds
  | some results =>
      rw [found] at finds
      rw [← List.map_fst_zip (Nat.le_of_eq finds.2.length_eq)] at declared
      obtain ⟨⟨_, diagnostics⟩, paired, rfl⟩ := List.mem_map.mp declared
      exact ⟨diagnostics, paired⟩

end Describes

theorem inspectGroup_eq_ok_iff {root : String} {inspection : RootInspection} :
    (do return (⟨root, Entry.lensesOn root manifest.entries,
        ← manifest.model.model.inspect root (Entry.lensesOn root manifest.entries)⟩ :
          RootInspection)) = Except.ok (ε := Fault) inspection ↔
      manifest.Describes inspection ∧ inspection.root = root := by
  cases inspected :
      manifest.model.model.inspect root (Entry.lensesOn root manifest.entries) with
  | error fault =>
      refine iff_of_false nofun fun parts => ?_
      obtain ⟨⟨lenses, finds⟩, rfl⟩ := parts
      rw [lenses, ← TypeModel.inspect_eq_ok_iff, inspected] at finds
      cases finds
  | ok found =>
      constructor
      · intro same
        cases same
        exact ⟨⟨rfl, TypeModel.inspect_eq_ok_iff.mp inspected⟩, rfl⟩
      · intro parts
        obtain ⟨⟨lenses, finds⟩, rfl⟩ := parts
        rw [lenses, ← TypeModel.inspect_eq_ok_iff, inspected] at finds
        cases finds
        rw [← lenses]
        rfl

theorem inspect_eq_ok_iff {inspections : List RootInspection} :
    manifest.inspect = .ok inspections ↔
      (∀ inspection ∈ inspections, manifest.Describes inspection) ∧
        inspections.map (·.root) = Entry.roots manifest.entries := by
  calc manifest.inspect = .ok inspections
    _ ↔ List.Forall₂ (fun root inspection => manifest.Describes inspection ∧ inspection.root = root)
        (Entry.roots manifest.entries) inspections := by
      rw [inspect, groups_eq, mapM_eq_ok_iff, List.forall₂_map_left_iff]
      simp only [inspectGroup_eq_ok_iff]
    _ ↔ List.Forall₂ (fun inspection root => manifest.Describes inspection ∧ inspection.root = root)
        inspections (Entry.roots manifest.entries) := ⟨List.Forall₂.flip, List.Forall₂.flip⟩
    _ ↔ _ := by
      rw [List.forall₂_and_left, ← List.forall₂_eq_eq_eq, List.forall₂_map_left_iff]

theorem exists_of_inspect_eq_error {fault : Fault} (faulted : manifest.inspect = .error fault) :
    ∃ entry ∈ manifest.hosted,
      manifest.model.model.check entry.root entry.lens = .error fault := by
  rw [inspect, groups_eq] at faulted
  obtain ⟨group, grouped, faulted⟩ := exists_of_mapM_eq_error faulted
  obtain ⟨root, _, rfl⟩ := List.mem_map.mp grouped
  cases inspected : manifest.model.model.inspect root (Entry.lensesOn root manifest.entries) with
  | ok found =>
      simp only [inspected] at faulted
      cases faulted
  | error other =>
      simp only [inspected] at faulted
      cases faulted
      obtain ⟨host, lens, declared, checked⟩ := TypeModel.exists_of_inspect_eq_error inspected
      exact ⟨⟨root, lens⟩, mem_hosted_iff.mpr ⟨Entry.mem_lensesOn_iff.mp declared, host⟩, checked⟩

theorem Fits.exists_inspections (fits : manifest.Fits) :
    ∃ inspections, manifest.inspect = .ok inspections := by
  cases inspected : manifest.inspect with
  | ok inspections => exact ⟨inspections, rfl⟩
  | error fault =>
      obtain ⟨entry, hosted, faulted⟩ := exists_of_inspect_eq_error inspected
      cases TypeModel.eq_sumOverflow_of_check faulted
      exact absurd faulted (fits entry hosted)

section Inspected

variable {inspections : List RootInspection}

theorem exists_checked_of_inspect (inspected : manifest.inspect = .ok inspections) {entry : Entry}
    (hosted : entry ∈ manifest.hosted) :
    ∃ inspection ∈ inspections, ∃ diagnostics,
      (entry.lens, diagnostics) ∈ inspection.checked ∧
        manifest.model.model.check entry.root entry.lens = .ok diagnostics := by
  obtain ⟨describes, roots⟩ := inspect_eq_ok_iff.mp inspected
  have known : entry.root ∈ inspections.map (·.root) := by
    rw [roots, Entry.mem_roots_iff]
    exact ⟨entry, (mem_hosted_iff.mp hosted).1, rfl⟩
  obtain ⟨inspection, member, same⟩ := List.mem_map.mp known
  have ofRoot : (⟨inspection.root, entry.lens⟩ : Entry) = entry := by rw [same]
  obtain ⟨diagnostics, checked⟩ :=
    (describes inspection member).exists_mem_checked (ofRoot ▸ hosted)
  refine ⟨inspection, member, diagnostics, checked, ?_⟩
  rw [← same]
  exact ((describes inspection member).check_of_mem_checked checked).2

theorem fits_of_inspect (inspected : manifest.inspect = .ok inspections) : manifest.Fits := by
  intro entry hosted faulted
  obtain ⟨_, _, diagnostics, _, checked⟩ := exists_checked_of_inspect inspected hosted
  rw [checked] at faulted
  cases faulted

theorem all_isClean_iff (inspected : manifest.inspect = .ok inspections) :
    inspections.all RootInspection.isClean = true ↔
      ∀ entry ∈ manifest.hosted, manifest.model.model.check entry.root entry.lens = .ok [] := by
  simp only [List.all_eq_true, RootInspection.isClean, Prod.forall, List.isEmpty_iff]
  constructor
  · intro clean entry hosted
    obtain ⟨inspection, member, diagnostics, checked, found⟩ :=
      exists_checked_of_inspect inspected hosted
    rw [found, clean inspection member entry.lens diagnostics checked]
  · intro clean inspection member lens diagnostics checked
    obtain ⟨hosted, found⟩ :=
      ((inspect_eq_ok_iff.mp inspected).1 inspection member).check_of_mem_checked checked
    exact Except.ok.inj (found.symm.trans (clean _ hosted))

theorem ending_runInspect (inspected : manifest.inspect = .ok inspections) :
    (runInspect manifest).ending =
      if inspections.all RootInspection.isClean then .clean else .flawed := by
  rw [runInspect, inspected]
  rfl

end Inspected

theorem ending_runInspect_of_not_fits (overflows : ¬ manifest.Fits) :
    (runInspect manifest).ending = .faulted .sumOverflow := by
  rw [runInspect]
  cases inspected : manifest.inspect with
  | ok inspections => exact absurd (fits_of_inspect inspected) overflows
  | error fault =>
      obtain ⟨entry, _, faulted⟩ := exists_of_inspect_eq_error inspected
      cases TypeModel.eq_sumOverflow_of_check faulted
      rfl

theorem Fits.ending (fits : manifest.Fits) :
    (runInspect manifest).ending = .clean ∨ (runInspect manifest).ending = .flawed := by
  obtain ⟨inspections, inspected⟩ := fits.exists_inspections
  rw [ending_runInspect inspected]
  split
  · exact .inl rfl
  · exact .inr rfl

theorem check_eq_nil_iff {entry : Entry} (hosted : entry ∈ manifest.hosted) :
    manifest.model.model.check entry.root entry.lens = .ok [] ↔
      (runCheck manifest.model entry.root entry.lens).ending = .clean := by
  have known := TypeTable.contains_of_isHost (mem_hosted_iff.mp hosted).2
  rw [runCheck_clean_iff, and_iff_right known]

theorem runInspect_clean_iff :
    (runInspect manifest).ending = .clean ↔
      ∀ entry ∈ manifest.hosted,
        (runCheck manifest.model entry.root entry.lens).ending = .clean := by
  have alone : (∀ entry ∈ manifest.hosted,
      manifest.model.model.check entry.root entry.lens = .ok []) ↔
      ∀ entry ∈ manifest.hosted,
        (runCheck manifest.model entry.root entry.lens).ending = .clean :=
    forall₂_congr fun _ hosted => check_eq_nil_iff hosted
  rw [← alone]
  by_cases fits : manifest.Fits
  · obtain ⟨inspections, inspected⟩ := fits.exists_inspections
    rw [ending_runInspect inspected, ← all_isClean_iff inspected]
    split
    · next clean => exact iff_of_true rfl clean
    · next flawed => exact iff_of_false nofun flawed
  · rw [ending_runInspect_of_not_fits fits]
    refine iff_of_false nofun fun clean => fits ?_
    intro entry hosted faulted
    cases faulted.symm.trans (clean entry hosted)

variable {others : List Entry}

theorem ending_eq_of_hosted
    (same : ∀ entry, manifest.model.model.isHost entry.root = true →
      (entry ∈ others ↔ entry ∈ manifest.entries)) :
    (runInspect { manifest with entries := others }).ending = (runInspect manifest).ending := by
  have hosted_iff (entry : Entry) :
      entry ∈ hosted { manifest with entries := others } ↔ entry ∈ manifest.hosted := by
    rw [mem_hosted_iff, mem_hosted_iff]
    exact and_congr_left (same entry)
  have fits_iff : Fits { manifest with entries := others } ↔ manifest.Fits := by
    simp only [Fits, hosted_iff]
  have clean_iff : (runInspect { manifest with entries := others }).ending = .clean ↔
      (runInspect manifest).ending = .clean := by
    simp only [runInspect_clean_iff, hosted_iff]
  by_cases fits : manifest.Fits
  · rcases fits.ending with clean | flawed
    · rw [clean]
      exact clean_iff.mpr clean
    · rcases (fits_iff.mpr fits).ending with clean | otherFlawed
      · cases flawed.symm.trans (clean_iff.mp clean)
      · rw [flawed, otherFlawed]
  · rw [ending_runInspect_of_not_fits fits, ending_runInspect_of_not_fits (mt fits_iff.mp fits)]

theorem ending_eq_of_perm (permuted : others.Perm manifest.entries) :
    (runInspect { manifest with entries := others }).ending = (runInspect manifest).ending :=
  ending_eq_of_hosted fun _ _ => permuted.mem_iff

theorem ending_eq_of_unhosted (kept : manifest.entries ⊆ others)
    (added : ∀ entry ∈ others, entry ∈ manifest.entries ∨ manifest.model.Unhosted entry.root) :
    (runInspect { manifest with entries := others }).ending = (runInspect manifest).ending := by
  apply ending_eq_of_hosted
  intro entry host
  refine ⟨fun member => ?_, fun member => kept member⟩
  apply (added entry member).resolve_right
  rw [← TypeTable.isHost_eq_false_iff, host]
  exact Bool.noConfusion

/-- An inspection of a manifest is the checks of its lenses, each root with those declared on it.
It ends clean when each lens on a host does so alone, whatever the order of the entries, and
whatever is declared on types that are not hosts. -/
theorem inspect_checks (manifest : Manifest) (fits : manifest.Fits) :
    (∃ inspections, manifest.inspect = .ok inspections ∧
      (inspections.map (·.root)).Nodup ∧
      (∀ root, root ∈ inspections.map (·.root) ↔ ∃ entry ∈ manifest.entries, entry.root = root) ∧
      ∀ inspection ∈ inspections, manifest.Describes inspection) ∧
    ((runInspect manifest).ending = .clean ∨ (runInspect manifest).ending = .flawed) ∧
    ((runInspect manifest).ending = .clean ↔
      ∀ entry ∈ manifest.entries, manifest.model.model.isHost entry.root = true →
        (runCheck manifest.model entry.root entry.lens).ending = .clean) ∧
    (∀ others : List Entry, others.Perm manifest.entries →
      (runInspect { manifest with entries := others }).ending = (runInspect manifest).ending) ∧
    ∀ others : List Entry, manifest.entries ⊆ others →
      (∀ entry ∈ others, entry ∈ manifest.entries ∨ manifest.model.Unhosted entry.root) →
      (runInspect { manifest with entries := others }).ending = (runInspect manifest).ending := by
  refine ⟨?_, fits.ending, ?_, fun _ => ending_eq_of_perm, fun _ => ending_eq_of_unhosted⟩
  · obtain ⟨inspections, inspected⟩ := fits.exists_inspections
    obtain ⟨describes, roots⟩ := inspect_eq_ok_iff.mp inspected
    refine ⟨inspections, inspected, ?_, ?_, describes⟩
    · rw [roots]
      exact Entry.roots_nodup manifest.entries
    · intro root
      rw [roots, Entry.mem_roots_iff]
  · simp only [runInspect_clean_iff, mem_hosted_iff, and_imp]

def officeManifest : Manifest where
  model := .ofList [
    ("Person", { fields := [{ name := "name", type := "String" }] }),
    ("Company", { fields := [{ name := "boss", type := "Person" }] }),
    ("Badge", { isNested := true }),
    ("Named", { kind := .interfaceType })]
  entries := [
    ⟨"Person", { path := "name" }⟩,
    ⟨"Company", { path := "boss.age", offset := 4 }⟩,
    ⟨"Robot", { path := "owner" }⟩,
    ⟨"Person", { path := "name", mode := .write }⟩]

/-- The second lens on `Person` is put beside the first, and only the lens on `Company` counts
against the manifest. -/
theorem inspect_checks_office :
    officeManifest.Fits ∧
    officeManifest.inspect = .ok [
      ⟨"Person", [{ path := "name" }, { path := "name", mode := .write }], some [[], []]⟩,
      ⟨"Company", [{ path := "boss.age", offset := 4 }],
        some [[.propertyNotFound "age" ⟨9, 12⟩ "Person"]]⟩,
      ⟨"Robot", [{ path := "owner" }], none⟩] ∧
    (runInspect officeManifest).ending = .flawed ∧
    (runInspect { officeManifest with entries := officeManifest.entries.reverse }).ending =
      .flawed ∧
    (runInspect { officeManifest with entries :=
      ⟨"Badge", { path := "" }⟩ :: ⟨"Named", { path := "name" }⟩ :: officeManifest.entries
      }).ending = .flawed := by
  have inspected : officeManifest.inspect = .ok [
      ⟨"Person", [{ path := "name" }, { path := "name", mode := .write }], some [[], []]⟩,
      ⟨"Company", [{ path := "boss.age", offset := 4 }],
        some [[.propertyNotFound "age" ⟨9, 12⟩ "Person"]]⟩,
      ⟨"Robot", [{ path := "owner" }], none⟩] := eq_ok_of_toOption (by decide +kernel)
  have fits : officeManifest.Fits := fits_of_lenses (by decide +kernel)
  obtain ⟨_, ended, clean_iff, permuted, extended⟩ := inspect_checks officeManifest fits
  have flawed : (runInspect officeManifest).ending = .flawed := by
    apply ended.resolve_left
    intro clean
    have alone := clean_iff.mp clean ⟨"Company", { path := "boss.age", offset := 4 }⟩
      (by decide +kernel) (by decide +kernel)
    exact absurd alone (by decide +kernel)
  have nested : officeManifest.model.Unhosted "Badge" :=
    TypeTable.isHost_eq_false_iff.mp (by decide +kernel)
  have isInterface : officeManifest.model.Unhosted "Named" :=
    TypeTable.isHost_eq_false_iff.mp (by decide +kernel)
  refine ⟨fits, inspected, flawed, ?_, ?_⟩
  · rw [permuted _ (List.reverse_perm _), flawed]
  · rw [extended, flawed]
    · intro entry member
      exact List.mem_cons_of_mem _ (List.mem_cons_of_mem _ member)
    · intro entry member
      rcases List.mem_cons.mp member with rfl | member
      · exact .inr nested
      · rcases List.mem_cons.mp member with rfl | member
        · exact .inr isInterface
        · exact .inl member

end Manifest

end LensPath
