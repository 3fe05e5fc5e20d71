import LensPath.Manifest
import Mathlib.Data.List.Induction
import Mathlib.Data.List.Nodup

/-!
The groups of a manifest. There is one for each root, in the order in which the roots first come,
and in it are the lenses of that root, in the order in which they stand in the manifest.
-/

namespace LensPath

theorem nodup_eraseDups [BEq α] [LawfulBEq α] (list : List α) : list.eraseDups.Nodup := by
  match list with
  | [] => exact .nil
  | element :: rest =>
      rw [List.eraseDups_cons, List.nodup_cons]
      refine ⟨fun later => ?_, nodup_eraseDups _⟩
      simpa using (List.mem_filter.mp (List.mem_eraseDups.mp later)).2
termination_by list.length
decreasing_by exact Nat.lt_succ_of_le (List.length_filter_le ..)

namespace Manifest

/-- The roots on which lenses are declared, each where it first comes. -/
def Entry.roots (entries : List Entry) : List String := (entries.map (·.root)).eraseDups

def Entry.lensesOn (root : String) (entries : List Entry) : List Lens :=
  (entries.filter (·.root == root)).map (·.lens)

namespace Entry

theorem roots_nodup (entries : List Entry) : (roots entries).Nodup := nodup_eraseDups _

theorem mem_roots_iff {entries : List Entry} {root : String} :
    root ∈ roots entries ↔ ∃ entry ∈ entries, entry.root = root := by
  rw [roots, List.mem_eraseDups, List.mem_map]

theorem mem_lensesOn_iff {entries : List Entry} {root : String} {lens : Lens} :
    lens ∈ lensesOn root entries ↔ ⟨root, lens⟩ ∈ entries := by
  rw [lensesOn, List.mem_map]
  constructor
  · rintro ⟨entry, found, rfl⟩
    obtain ⟨member, same⟩ := List.mem_filter.mp found
    cases eq_of_beq same
    exact member
  · intro member
    exact ⟨⟨root, lens⟩, List.mem_filter.mpr ⟨member, beq_self_eq_true root⟩, rfl⟩

theorem roots_concat (entries : List Entry) (entry : Entry) :
    roots (entries ++ [entry]) =
      if entry.root ∈ roots entries then roots entries else roots entries ++ [entry.root] := by
  have known_iff : entry.root ∈ roots entries ↔ entry.root ∈ entries.map (·.root) :=
    List.mem_eraseDups
  rw [roots, List.map_append, List.eraseDups_append, List.map_singleton, List.removeAll,
    List.filter_singleton, List.elem_eq_contains, List.contains_eq_mem]
  split
  · next known =>
      rw [decide_eq_true (known_iff.mp known), Bool.not_true, cond_false, List.eraseDups_nil,
        List.append_nil, roots]
  · next fresh =>
      rw [decide_eq_false (mt known_iff.mpr fresh), Bool.not_false, cond_true]
      rfl

theorem lensesOn_eq_nil {root : String} {entries : List Entry} (unknown : root ∉ roots entries) :
    lensesOn root entries = [] := by
  rw [List.eq_nil_iff_forall_not_mem]
  intro lens declared
  exact unknown (mem_roots_iff.mpr ⟨_, mem_lensesOn_iff.mp declared, rfl⟩)

theorem lensesOn_concat (root : String) (entries : List Entry) (entry : Entry) :
    lensesOn root (entries ++ [entry]) =
      if root = entry.root then lensesOn root entries ++ [entry.lens]
      else lensesOn root entries := by
  rw [lensesOn, List.filter_append, List.map_append]
  split
  · next same => simp [same, lensesOn]
  · next other => simp [Ne.symm other, lensesOn]

end Entry

variable {roots : List String} {lenses : String → List Lens} {entry : Entry}

theorem addToGroup_of_mem (distinct : roots.Nodup) (known : entry.root ∈ roots) :
    addToGroup entry (roots.map fun root => (root, lenses root)) =
      roots.map fun root =>
        (root, if root = entry.root then lenses root ++ [entry.lens] else lenses root) := by
  induction roots with
  | nil => cases known
  | cons root rest induction =>
      obtain ⟨fresh, distinct⟩ := List.nodup_cons.mp distinct
      rw [List.map_cons, List.map_cons, addToGroup]
      by_cases same : root = entry.root
      · -- The group is the first, and it is the only one of the root.
        have others : ∀ other ∈ rest, other ≠ entry.root := by
          rintro other later rfl
          exact fresh (same ▸ later)
        rw [if_pos (beq_iff_eq.mpr same), if_pos same]
        congr 1
        apply List.map_congr_left
        intro other later
        rw [if_neg (others other later)]
      · have later : entry.root ∈ rest := (List.mem_cons.mp known).resolve_left (Ne.symm same)
        rw [if_neg (mt beq_iff_eq.mp same), if_neg same, induction distinct later]

theorem addToGroup_of_not_mem (fresh : entry.root ∉ roots) :
    addToGroup entry (roots.map fun root => (root, lenses root)) =
      (roots.map fun root => (root, lenses root)) ++ [(entry.root, [entry.lens])] := by
  induction roots with
  | nil => rfl
  | cons root rest induction =>
      obtain ⟨differs, fresh⟩ := List.ne_and_not_mem_of_not_mem_cons fresh
      rw [List.map_cons, addToGroup, if_neg (mt beq_iff_eq.mp (Ne.symm differs)),
        induction fresh, List.cons_append]

theorem groups_eq (manifest : Manifest) :
    manifest.groups = (Entry.roots manifest.entries).map fun root =>
      (root, Entry.lensesOn root manifest.entries) := by
  obtain ⟨model, entries⟩ := manifest
  simp only [groups]
  induction entries using List.reverseRecOn with
  | nil => rfl
  | append_singleton entries entry induction =>
      rw [List.foldl_append, List.foldl_cons, List.foldl_nil, induction, Entry.roots_concat]
      simp only [Entry.lensesOn_concat]
      split
      · next known => exact addToGroup_of_mem (Entry.roots_nodup entries) known
      · next fresh =>
          have others : ∀ root ∈ Entry.roots entries,
              (root, Entry.lensesOn root entries) =
                (root, if root = entry.root then Entry.lensesOn root entries ++ [entry.lens]
                  else Entry.lensesOn root entries) := by
            intro root known
            rw [if_neg]
            rintro rfl
            exact fresh known
          rw [addToGroup_of_not_mem fresh, List.map_append, List.map_singleton, if_pos rfl,
            Entry.lensesOn_eq_nil fresh, List.nil_append, List.map_congr_left others]

end Manifest

end LensPath
