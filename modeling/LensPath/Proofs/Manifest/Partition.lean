import LensPath.Proofs.Manifest.Groups
import Mathlib.Data.List.Perm.Basic

/-!
Groups as the stable partition of the entries by their roots. To gather the entries group by group
neither drops nor doubles one, nor does it put one before another of the same root, and the groups
of a manifest are the only ones that do this in the order in which the roots first come.
-/

namespace LensPath

namespace Manifest

def ungroup (groups : List (String × List Lens)) : List Entry :=
  groups.flatMap fun group => group.2.map (Entry.mk group.1)

namespace Entry

def firstAt (entries : List Entry) (root : String) : Nat := (entries.map (·.root)).idxOf root

structure StablePartition (entries : List Entry) (groups : List (String × List Lens)) :
    Prop where
  distinct : (groups.map Prod.fst).Nodup
  roots : ∀ root, root ∈ groups.map Prod.fst ↔ ∃ entry ∈ entries, entry.root = root
  firstSeen : (groups.map Prod.fst).Pairwise fun earlier later =>
    firstAt entries earlier < firstAt entries later
  nonempty : ∀ group ∈ groups, group.2 ≠ []
  lenses : ∀ group ∈ groups, group.2 = lensesOn group.1 entries
  all : (groups.flatMap Prod.snd).Perm (entries.map (·.lens))
  stable : ∀ root, (ungroup groups).filter (·.root == root) = entries.filter (·.root == root)

variable {entries : List Entry} {root : String}

theorem firstAt_append_of_mem (known : root ∈ roots entries) (more : List Entry) :
    firstAt (entries ++ more) root = firstAt entries root := by
  rw [firstAt, List.map_append]
  exact List.idxOf_append_of_mem (List.mem_eraseDups.mp known)

theorem firstAt_lt (known : root ∈ roots entries) : firstAt entries root < entries.length := by
  have bound := List.idxOf_lt_length_iff.mpr (List.mem_eraseDups.mp known)
  rw [List.length_map] at bound
  exact bound

theorem le_firstAt_append (fresh : root ∉ roots entries) (more : List Entry) :
    entries.length ≤ firstAt (entries ++ more) root := by
  have absent : root ∉ entries.map (·.root) := mt List.mem_eraseDups.mpr fresh
  rw [firstAt, List.map_append, List.idxOf_append_of_notMem absent, List.length_map]
  exact Nat.le_add_right _ _

theorem roots_pairwise_firstAt (entries : List Entry) :
    (roots entries).Pairwise fun earlier later =>
      firstAt entries earlier < firstAt entries later := by
  induction entries using List.reverseRecOn with
  | nil => exact .nil
  | append_singleton entries entry induction =>
      have kept : (roots entries).Pairwise fun earlier later =>
          firstAt (entries ++ [entry]) earlier < firstAt (entries ++ [entry]) later := by
        apply induction.imp_of_mem
        intro earlier later earlierKnown laterKnown before
        rw [firstAt_append_of_mem earlierKnown, firstAt_append_of_mem laterKnown]
        exact before
      rw [roots_concat]
      split
      · exact kept
      · next fresh =>
          rw [List.pairwise_append]
          refine ⟨kept, List.pairwise_singleton _ _, ?_⟩
          intro earlier known later added
          cases List.mem_singleton.mp added
          rw [firstAt_append_of_mem known]
          exact Nat.lt_of_lt_of_le (firstAt_lt known) (le_firstAt_append fresh [entry])

theorem map_mk_lensesOn (root : String) (entries : List Entry) :
    (lensesOn root entries).map (Entry.mk root) = entries.filter (·.root == root) := by
  have same : ∀ entry ∈ entries.filter (·.root == root),
      (Entry.mk root ∘ (·.lens)) entry = id entry := by
    intro entry found
    cases eq_of_beq (List.mem_filter.mp found).2
    rfl
  rw [lensesOn, List.map_map, List.map_congr_left same, List.map_id]

theorem lensesOn_ne_nil (known : root ∈ roots entries) : lensesOn root entries ≠ [] := by
  obtain ⟨⟨_, lens⟩, found, rfl⟩ := mem_roots_iff.mp known
  exact List.ne_nil_of_mem (mem_lensesOn_iff.mpr found)

end Entry

theorem flatMap_filter_of_nodup {roots : List String} (distinct : roots.Nodup)
    (entries : List Entry) (root : String) :
    (roots.flatMap fun other =>
        (entries.filter (·.root == other)).filter (·.root == root)) =
      if root ∈ roots then entries.filter (·.root == root) else [] := by
  have apart {other : String} (differs : other ≠ root) :
      (entries.filter (·.root == other)).filter (·.root == root) = [] := by
    rw [List.filter_filter, List.filter_eq_nil_iff]
    intro entry _ both
    obtain ⟨here, there⟩ := Bool.and_eq_true_iff.mp both
    exact differs ((eq_of_beq there).symm.trans (eq_of_beq here))
  induction roots with
  | nil => rfl
  | cons first rest induction =>
      obtain ⟨fresh, distinct⟩ := List.nodup_cons.mp distinct
      rw [List.flatMap_cons, induction distinct]
      by_cases same : first = root
      · subst same
        rw [if_neg fresh, if_pos List.mem_cons_self, List.append_nil, List.filter_filter]
        simp only [Bool.and_self]
      · rw [apart same, List.nil_append]
        simp only [List.mem_cons, Ne.symm same, false_or]

theorem ungroup_groups (manifest : Manifest) :
    ungroup manifest.groups = (Entry.roots manifest.entries).flatMap fun root =>
      manifest.entries.filter (·.root == root) := by
  rw [ungroup, groups_eq, List.flatMap_map]
  simp only [Entry.map_mk_lensesOn]

theorem filter_ungroup_groups (manifest : Manifest) (root : String) :
    (ungroup manifest.groups).filter (·.root == root) =
      manifest.entries.filter (·.root == root) := by
  rw [ungroup_groups, List.filter_flatMap,
    flatMap_filter_of_nodup (Entry.roots_nodup manifest.entries)]
  split
  · rfl
  · next unknown =>
      symm
      rw [List.filter_eq_nil_iff]
      intro entry found same
      exact unknown (Entry.mem_roots_iff.mpr ⟨entry, found, eq_of_beq same⟩)

theorem ungroup_groups_perm (manifest : Manifest) :
    (ungroup manifest.groups).Perm manifest.entries := by
  rw [List.perm_iff_count]
  intro entry
  have counted (list : List Entry) :
      (list.filter (·.root == entry.root)).count entry = list.count entry := by
    apply List.count_filter
    exact beq_self_eq_true entry.root
  rw [← counted, filter_ungroup_groups, counted]

theorem map_lens_ungroup (groups : List (String × List Lens)) :
    (ungroup groups).map (·.lens) = groups.flatMap Prod.snd := by
  rw [ungroup, List.map_flatMap]
  simp only [List.map_map, Function.comp_def, List.map_id']

theorem roots_groups (manifest : Manifest) :
    manifest.groups.map Prod.fst = Entry.roots manifest.entries := by
  rw [groups_eq, List.map_map]
  exact List.map_id _

theorem stablePartition_groups (manifest : Manifest) :
    Entry.StablePartition manifest.entries manifest.groups where
  distinct := by
    rw [roots_groups]
    exact Entry.roots_nodup _
  roots root := by
    rw [roots_groups]
    exact Entry.mem_roots_iff
  firstSeen := by
    rw [roots_groups]
    exact Entry.roots_pairwise_firstAt _
  nonempty group found := by
    rw [groups_eq] at found
    obtain ⟨root, known, rfl⟩ := List.mem_map.mp found
    exact Entry.lensesOn_ne_nil known
  lenses group found := by
    rw [groups_eq] at found
    obtain ⟨root, _, rfl⟩ := List.mem_map.mp found
    rfl
  all := by
    rw [← map_lens_ungroup]
    exact (ungroup_groups_perm manifest).map _
  stable := filter_ungroup_groups manifest

namespace Entry.StablePartition

variable {entries : List Entry} {groups others : List (String × List Lens)}

theorem eq_map (partition : StablePartition entries groups) :
    groups = (groups.map Prod.fst).map fun root => (root, lensesOn root entries) := by
  have filled : ∀ group ∈ groups,
      ((fun root => (root, lensesOn root entries)) ∘ Prod.fst) group = id group := by
    intro group found
    exact Prod.ext rfl (partition.lenses group found).symm
  rw [List.map_map, List.map_congr_left filled, List.map_id]

theorem unique (partition : StablePartition entries groups)
    (other : StablePartition entries others) : groups = others := by
  have roots : groups.map Prod.fst = others.map Prod.fst := by
    apply List.Perm.eq_of_pairwise _ partition.firstSeen other.firstSeen
    · rw [List.perm_ext_iff_of_nodup partition.distinct other.distinct]
      intro root
      rw [partition.roots, other.roots]
    · intro earlier later _ _ before after
      exact absurd before (Nat.lt_asymm after)
  rw [partition.eq_map, other.eq_map, roots]

end Entry.StablePartition

/-- The groups of a manifest are the stable partition of its entries by their roots. -/
theorem groups_eq_iff (manifest : Manifest) (groups : List (String × List Lens)) :
    manifest.groups = groups ↔ Entry.StablePartition manifest.entries groups := by
  constructor
  · intro same
    subst same
    exact stablePartition_groups manifest
  · exact (stablePartition_groups manifest).unique

end Manifest

end LensPath
