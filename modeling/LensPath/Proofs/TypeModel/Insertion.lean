import LensPath.TypeModel.Table

/-!
What is found in a table, by how the table was put together. The last declaration that was put in
under a name is the one that is found there.
-/

namespace LensPath.TypeTable

theorem lookup_cons_eq_ite (entry : String × α) (rest : List (String × α)) (name : String) :
    (entry :: rest).lookup name = if name = entry.1 then some entry.2 else rest.lookup name := by
  rw [List.lookup_cons]
  cases same : name == entry.1 with
  | true => rw [if_pos (eq_of_beq same)]
  | false => rw [if_neg (ne_of_beq_false same)]

theorem lookup_insertEntry (name : String) (decl : TypeDecl)
    (entries : List (String × TypeDecl)) (other : String) :
    (insertEntry name decl entries).lookup other =
      if other = name then some decl else entries.lookup other := by
  induction entries with
  | nil => exact lookup_cons_eq_ite (name, decl) [] other
  | cons entry rest induction =>
      rw [insertEntry]
      split
      · exact lookup_cons_eq_ite (name, decl) (entry :: rest) other
      · next notBelow =>
          split
          · next beyond =>
              have differs : entry.1 ≠ name := fun same => String.lt_irrefl name (same ▸ beyond)
              rw [lookup_cons_eq_ite, lookup_cons_eq_ite, induction]
              by_cases first : other = entry.1
              · rw [if_pos first, if_pos first, if_neg (first ▸ differs)]
              · rw [if_neg first, if_neg first]
          · next notBeyond =>
              have replaced : entry.1 = name :=
                String.le_antisymm (String.not_lt.mp notBelow) (String.not_lt.mp notBeyond)
              rw [lookup_cons_eq_ite, lookup_cons_eq_ite, replaced]
              by_cases same : other = name
              · rw [if_pos same, if_pos same]
              · rw [if_neg same, if_neg same, if_neg same]

theorem get?_insert (table : TypeTable) (name : String) (decl : TypeDecl) (other : String) :
    (table.insert name decl).get? other = if other = name then some decl else table.get? other :=
  lookup_insertEntry name decl table.entries other

theorem get?_insertAll (entries : List (String × TypeDecl)) (table : TypeTable) (name : String) :
    (entries.foldl (fun table entry => table.insert entry.1 entry.2) table).get? name =
      (entries.reverse.lookup name).or (table.get? name) := by
  induction entries generalizing table with
  | nil => rfl
  | cons entry rest induction =>
      rw [List.foldl_cons, induction, get?_insert, List.reverse_cons, List.lookup_append,
        lookup_cons_eq_ite, Option.or_assoc]
      by_cases same : name = entry.1
      · rw [if_pos same, if_pos same, Option.some_or]
      · rw [if_neg same, if_neg same, List.lookup_nil, Option.none_or]

theorem get?_ofList (entries : List (String × TypeDecl)) (name : String) :
    (ofList entries).get? name = entries.reverse.lookup name := by
  rw [ofList, get?_insertAll]
  exact Option.or_none

theorem lookup_reverse {entries : List (String × α)}
    (distinct : entries.Pairwise fun earlier later => earlier.1 ≠ later.1) (name : String) :
    entries.reverse.lookup name = entries.lookup name := by
  induction distinct with
  | nil => rfl
  | @cons entry rest above _ induction =>
      rw [List.reverse_cons, List.lookup_append, induction, lookup_cons_eq_ite,
        lookup_cons_eq_ite]
      by_cases same : name = entry.1
      · have absent : rest.lookup name = none := by
          refine List.lookup_eq_none_iff.mpr fun other found => ?_
          simpa [same] using above other found
        rw [absent, if_pos same, if_pos same, Option.none_or]
      · rw [if_neg same, if_neg same, List.lookup_nil, Option.or_none]

theorem lookup_map {f : String → String} {name : String} (g : α → β)
    (entries : List (String × α))
    (apart : ∀ entry ∈ entries, f name = f entry.1 → name = entry.1) :
    (entries.map fun entry => (f entry.1, g entry.2)).lookup (f name) =
      (entries.lookup name).map g := by
  induction entries with
  | nil => rfl
  | cons entry rest induction =>
      obtain ⟨first, later⟩ := List.forall_mem_cons.mp apart
      rw [List.map_cons, lookup_cons_eq_ite, lookup_cons_eq_ite, induction later]
      by_cases same : name = entry.1
      · rw [if_pos same, if_pos (congrArg f same), Option.map_some]
      · rw [if_neg same, if_neg (mt first same)]

theorem entries_distinct (table : TypeTable) :
    table.entries.Pairwise fun earlier later => earlier.1 ≠ later.1 :=
  table.ascending.imp String.ne_of_lt

theorem mem_entries_iff {table : TypeTable} {name : String} {decl : TypeDecl} :
    (name, decl) ∈ table.entries ↔ table.get? name = some decl := by
  rw [get?, List.lookup_eq_some_iff]
  constructor
  · intro found
    obtain ⟨before, after, entries⟩ := List.append_of_mem found
    refine ⟨before, after, entries, fun earlier isBefore => bne_iff_ne.mpr ?_⟩
    have distinct := table.entries_distinct
    rw [entries, List.pairwise_append] at distinct
    exact (distinct.2.2 earlier isBefore (name, decl) List.mem_cons_self).symm
  · rintro ⟨before, after, entries, _⟩
    rw [entries]
    exact List.mem_append_right before List.mem_cons_self

end LensPath.TypeTable
