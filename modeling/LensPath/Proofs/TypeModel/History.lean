import LensPath.Proofs.Manifest.RoundTrip

/-!
Tables by what was put into them. Of the declarations for a name the last one counts, and nothing
else of the order in which they came. A text that lists them in their order, repetitions included,
reads as the table that they build.
-/

namespace LensPath

open Json

def Text.codePoints (text : String) : List Nat := text.toList.map Char.toNat

theorem Text.codePoints_lt {text other : String} (below : text < other) :
    codePoints text < codePoints other := by
  apply List.map_lt
  · intro c d isBelow
    exact isBelow
  · exact String.lt_iff.mp below

def LastFor (history : List (String × TypeDecl)) (name : String) (decl : TypeDecl) : Prop :=
  ∃ earlier later, history = earlier ++ (name, decl) :: later ∧ ∀ entry ∈ later, entry.1 ≠ name

def SameLast (history other : List (String × TypeDecl)) : Prop :=
  ∀ name decl, LastFor history name decl ↔ LastFor other name decl

variable {history other : List (String × TypeDecl)} {name : String} {decl : TypeDecl}

theorem lastFor_iff : LastFor history name decl ↔ history.reverse.lookup name = some decl := by
  rw [List.lookup_eq_some_iff]
  constructor
  · rintro ⟨earlier, later, rfl, others⟩
    refine ⟨later.reverse, earlier.reverse, by simp, ?_⟩
    intro entry found
    exact bne_iff_ne.mpr (others entry (List.mem_reverse.mp found)).symm
  · rintro ⟨later, earlier, reversed, others⟩
    refine ⟨earlier.reverse, later.reverse, ?_, ?_⟩
    · simpa using congrArg List.reverse reversed
    · intro entry found
      exact (bne_iff_ne.mp (others entry (List.mem_reverse.mp found))).symm

namespace TypeTable

theorem get?_ofList_eq_some_iff :
    (ofList history).get? name = some decl ↔ LastFor history name decl := by
  rw [get?_ofList, lastFor_iff]

theorem get?_ofList_eq_none_iff :
    (ofList history).get? name = none ↔ ∀ entry ∈ history, entry.1 ≠ name := by
  simp only [get?_ofList, List.lookup_eq_none_iff, List.mem_reverse, bne_iff_ne, ne_comm]

theorem eq_of_get? {table other : TypeTable}
    (same : ∀ name, table.get? name = other.get? name) : table = other := by
  -- No name stands twice, so two lists with the same entries are rearrangements of each other.
  have nodup (table : TypeTable) : table.entries.Nodup := by
    apply table.entries_distinct.imp
    rintro _ _ apart rfl
    exact apart rfl
  apply eq_of_perm
  rw [List.perm_ext_iff_of_nodup (nodup table) (nodup other)]
  rintro ⟨name, decl⟩
  rw [mem_entries_iff, mem_entries_iff, same]

theorem ofList_eq_iff : ofList history = ofList other ↔ SameLast history other := by
  constructor
  · intro same name decl
    rw [← get?_ofList_eq_some_iff, ← get?_ofList_eq_some_iff, same]
  · intro same
    apply eq_of_get?
    intro name
    apply Option.ext
    intro decl
    rw [get?_ofList_eq_some_iff, get?_ofList_eq_some_iff]
    exact same name decl

theorem decode_render (table : TypeTable) :
    decode TypeTable.shape table.toJson.render = .ok table :=
  decode_of_keeps (keeps_typeTable table) (exact_typeTable table) (fits_typeTable table)
    (by decide) (.same _)

theorem render_inj {table other : TypeTable} :
    table.toJson.render = other.toJson.render ↔ table = other := by
  constructor
  · intro same
    have decoded := decode_render table
    rw [same, decode_render other] at decoded
    exact (Except.ok.inj decoded).symm
  · rintro rfl
    rfl

structure Records (table : TypeTable) (history : List (String × TypeDecl)) : Prop where
  ascending : table.names.Pairwise fun earlier later =>
    Text.codePoints earlier < Text.codePoints later
  found : ∀ name decl, table.get? name = some decl ↔ LastFor history name decl
  missing : ∀ name, table.get? name = none ↔ ∀ entry ∈ history, entry.1 ≠ name
  contained : ∀ name, table.contains name = true ↔ ∃ entry ∈ history, entry.1 = name
  same : ∀ other, table = ofList other ↔ SameLast history other
  sameText : ∀ other, table.toJson.render = (ofList other).toJson.render ↔ SameLast history other
  read : ∀ text : String, (entriesToJson history).SpelledBy text.toList →
    decode TypeTable.shape text = .ok table

/-- A table records the history of what was put into it, and so does a text of this history. -/
theorem ofList_records (history : List (String × TypeDecl)) :
    (ofList history).Records history := by
  constructor
  · apply List.pairwise_map.mpr
    apply (ofList history).ascending.imp
    intro earlier later below
    exact Text.codePoints_lt below
  · intro name decl
    exact get?_ofList_eq_some_iff
  · intro name
    exact get?_ofList_eq_none_iff
  · intro name
    rw [contains, Option.isSome_iff_ne_none, ne_eq, get?_ofList_eq_none_iff]
    simp
  · intro other
    exact ofList_eq_iff
  · intro other
    rw [render_inj, ofList_eq_iff]
  · intro text spelled
    have shallow := (fits_entriesToJson history).mono (by decide : 6 ≤ maxDepth)
    have decoded := decode_of_meaning spelled shallow (meaning_entriesToJson history)
    rwa [String.ofList_toList] at decoded

def repeatedHistory : List (String × TypeDecl) :=
  [("B", { isNested := true }), ("A", {}), ("B", {})]

/-- `B` is put in twice, in front of `A` and behind it. -/
theorem ofList_records_repeated :
    SameLast repeatedHistory [("B", {}), ("A", {})] ∧
      (ofList repeatedHistory).get? "B" = some {} ∧
      decode TypeTable.shape (entriesToJson repeatedHistory).render =
        .ok (ofList [("B", {}), ("A", {})]) := by
  have records := ofList_records repeatedHistory
  have same : ofList repeatedHistory = ofList [("B", {}), ("A", {})] := by decide +kernel
  have last : LastFor repeatedHistory "B" {} := ⟨[_, _], [], rfl, by simp⟩
  refine ⟨(records.same _).mp same, (records.found "B" {}).mpr last, ?_⟩
  rw [← same]
  apply records.read
  rw [Value.render, String.toList_ofList]
  exact spelledBy_renderChars (exact_entriesToJson repeatedHistory)

end TypeTable

end LensPath
