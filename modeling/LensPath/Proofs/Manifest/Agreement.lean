import LensPath.Proofs.Json.Valid
import LensPath.Proofs.Manifest.Assembled

/-!
Reading a text as a manifest and reading it, or a part of it, on its own: the types and the lenses
are the same.
-/

namespace LensPath

open Json

/-! ## One value for all readers -/

theorem exists_of_meaning_split {name own : String} {direct : Members σ γ} {later : Members ρ δ}
    {build : γ → δ → α} {make : δ → β} (plain : later.IsPlain)
    (apart : ∀ name, later.knows name = true → direct.knows name = false) {value : Value}
    {found : α} {alone : β}
    (means : (Shape.split name direct later build).meaning value = some found)
    (single : (Shape.record own later make).meaning value = some alone) :
    ∃ values others, found = build values others ∧ alone = make others := by
  obtain ⟨entries, values, others, rfl, _, kept, rfl⟩ := meaning_split_iff.mp means
  obtain ⟨again, rfl, ⟨_, contra, _⟩ | ⟨_, same, meant⟩⟩ := meaning_record_iff.mp single
  · cases contra
  · cases same
    rw [← meaning_filter_apart apart] at meant
    rw [ofKept_of_meaning plain meant] at kept
    cases kept
    exact ⟨values, others, rfl, rfl⟩

namespace Manifest

/-- The texts of the elements of the list under `lenses` in the text of an object; none, if there is
no such member. -/
inductive LensTexts (text : List Char) : List (List Char) → Prop
  | listed {members : List (String × Value)} {pieces : List (String × List Char)} {own : List Char}
      {items : List Value} {texts : List (List Char)} (layout : ObjectText pieces text)
      (spelled : SpelledMembers members pieces) (member : ("lenses", own) ∈ pieces)
      (list : ListText texts own) (each : List.Forall₂ Value.SpelledBy items texts) :
      LensTexts text texts
  | absent {members : List (String × Value)} {pieces : List (String × List Char)}
      (layout : ObjectText pieces text) (spelled : SpelledMembers members pieces)
      (missing : ∀ piece ∈ pieces, piece.1 ≠ "lenses") : LensTexts text []

theorem readsAll : Manifest.shape.ReadsAll := by
  simp [Manifest.shape, Entry.shape, Shape.ReadsAll, Members.ReadsAll]

theorem lens_eq_of_meaning {item : Value} {entry : Entry} {lens : Lens}
    (means : Entry.shape.meaning item = some entry) (alone : Lens.shape.meaning item = some lens) :
    lens = entry.lens := by
  obtain ⟨_, _, rfl, rfl⟩ := exists_of_meaning_split lensMembers_isPlain lens_apart means alone
  rfl

theorem model_eq_of_meaning {value : Value} {manifest : Manifest} {table : TypeTable}
    (means : Manifest.shape.meaning value = some manifest)
    (alone : TypeTable.shape.meaning value = some table) : table = manifest.model := by
  obtain ⟨_, _, rfl, rfl⟩ := exists_of_meaning_split tableMembers_isPlain types_apart means alone
  rfl

theorem meaning_entries {entries : List (String × Value)} {manifest : Manifest}
    (means : Manifest.shape.meaning (.object entries) = some manifest) :
    oneOf (Shape.list Entry.shape).meaning (some []) (valuesOf "lenses" entries) =
      some manifest.entries := by
  obtain ⟨_, ⟨listed, _⟩, others, same, found, _, rfl⟩ := meaning_split_iff.mp means
  cases same
  simpa [Members.meaning, Option.bind_eq_some_iff] using found

theorem exists_lensTexts {entries : List (String × Value)} {text : List Char} {manifest : Manifest}
    (spelled : (Value.object entries).SpelledBy text)
    (means : Manifest.shape.meaning (.object entries) = some manifest) :
    ∃ texts, LensTexts text texts := by
  cases spelled with
  | @object _ pieces _ layout keys each =>
      have members : SpelledMembers entries pieces := forall₂_entries_iff.mpr ⟨keys, each⟩
      by_cases listed : ∃ own, ("lenses", own) ∈ pieces
      · obtain ⟨own, member⟩ := listed
        obtain ⟨⟨key, value⟩, found, named, spelled⟩ := exists_of_mem_right members member
        subst named
        have meant := oneOf_of_mem (meaning_entries means) (mem_valuesOf found)
        obtain ⟨items, rfl, _⟩ := meaning_list_iff.mp meant
        cases spelled with
        | list list each => exact ⟨_, .listed layout members member list each⟩
      · refine ⟨[], .absent layout members fun piece member named => listed ⟨piece.2, ?_⟩⟩
        rwa [← named]

theorem lens_eq_of_decode {item : Value} {text : List Char} {entry : Entry}
    (spelled : item.SpelledBy text) (fits : item.Fits maxDepth)
    (means : Entry.shape.meaning item = some entry) {lens : Lens}
    (decoded : decode Lens.shape (String.ofList text) = .ok lens) : lens = entry.lens :=
  lens_eq_of_meaning means (meaning_of_decode spelled fits decoded)

theorem lenses_agree {items : List Value} {texts : List (List Char)} {entries : List Entry}
    (spelled : List.Forall₂ Value.SpelledBy items texts) (fits : ∀ item ∈ items, item.Fits maxDepth)
    (means : List.Forall₂ (fun item entry => Entry.shape.meaning item = some entry) items entries) :
    List.Forall₂ (fun own entry => ∀ lens,
      decode Lens.shape (String.ofList own) = .ok lens → lens = entry.lens) texts entries := by
  induction spelled generalizing entries with
  | nil =>
      cases means
      exact .nil
  | cons first _ induction =>
      cases means with
      | cons meant others =>
          obtain ⟨firstFits, othersFit⟩ := List.forall_mem_cons.mp fits
          exact .cons (fun _ decoded => lens_eq_of_decode first firstFits meant decoded)
            (induction othersFit others)

theorem lensTexts_agree {entries : List (String × Value)} {text : List Char} {manifest : Manifest}
    {texts : List (List Char)} (spelled : (Value.object entries).SpelledBy text)
    (fits : (Value.object entries).Fits maxDepth)
    (means : Manifest.shape.meaning (.object entries) = some manifest)
    (found : LensTexts text texts) :
    List.Forall₂ (fun own (entry : Entry) => ∀ lens,
      decode Lens.shape (String.ofList own) = .ok lens → lens = entry.lens)
      texts manifest.entries := by
  have listed := meaning_entries means
  cases found with
  | listed layout all member list each =>
      obtain ⟨keys, values⟩ := forall₂_entries_iff.mp all
      -- A text says one value only, so its layout is that of the manifest.
      cases spelled.unique (.object layout keys values)
      obtain ⟨⟨key, value⟩, found, named, spelled⟩ := exists_of_mem_right all member
      subst named
      cases spelled.unique (.list list each)
      obtain ⟨_, same, meanings⟩ :=
        meaning_list_iff.mp (oneOf_of_mem listed (mem_valuesOf found))
      cases same
      refine lenses_agree each (fun item member => ?_) (mapM_eq_some_iff.mp meanings)
      cases fits with
      | object fits =>
          cases fits _ found with
          | list fits => exact (fits item member).mono (by decide)
  | absent layout all missing =>
      obtain ⟨keys, values⟩ := forall₂_entries_iff.mp all
      cases spelled.unique (.object layout keys values)
      have absent : valuesOf "lenses" entries = [] := by
        refine valuesOf_eq_nil fun entry member named => ?_
        obtain ⟨piece, found, same, _⟩ := exists_of_mem_right all.flip member
        exact missing piece found (same.symm.trans named)
      rw [absent] at listed
      rw [← Option.some.inj listed]
      exact .nil

/-- A text that is read as a manifest and as a type table is read as the table of the manifest, and
so are the texts of its lenses. -/
theorem decode_agrees {text : String} {manifest : Manifest}
    (read : decode Manifest.shape text = .ok manifest) :
    (∀ table, decode TypeTable.shape text = .ok table → table = manifest.model) ∧
      (∃ texts, LensTexts text.toList texts) ∧
      ∀ texts, LensTexts text.toList texts →
        List.Forall₂ (fun own entry => ∀ lens,
          decode Lens.shape (String.ofList own) = .ok lens → lens = entry.lens)
          texts manifest.entries := by
  rw [← @String.ofList_toList text] at read
  obtain ⟨value, spelled, fits, means⟩ := exists_value_of_decode readsAll read
  obtain ⟨entries, _, _, rfl, _⟩ := meaning_split_iff.mp means
  refine ⟨fun table alone => ?_, exists_lensTexts spelled means,
    fun texts found => lensTexts_agree spelled fits means found⟩
  rw [← @String.ofList_toList text] at alone
  exact model_eq_of_meaning means (meaning_of_decode spelled fits alone)

def writingLens : Value :=
  .object [("root", .text "A"), ("mode", .object [("write", .null)]), ("path", .text "b")]

def repeatedTypes : Value :=
  .object [("A", .object [("nested", .flag true)]), ("A", .object [])]

def repeatedManifest : Value :=
  .object [("types", repeatedTypes), ("lenses", .list [writingLens])]

theorem lensTexts_repeatedManifest :
    LensTexts repeatedManifest.render.toList [writingLens.renderChars] := by
  have lens : writingLens.SpelledBy writingLens.renderChars := by
    refine spelledBy_renderChars (.object ?_)
    simp only [List.forall_mem_cons]
    exact ⟨.text _, .object (by simpa using .null), .text _, by simp⟩
  have types : repeatedTypes.SpelledBy repeatedTypes.renderChars := by
    refine spelledBy_renderChars (.object ?_)
    simp only [List.forall_mem_cons]
    exact ⟨.object (by simpa using .flag true), .object (by simp), by simp⟩
  have list := listText_renderChars [writingLens]
  have members : SpelledMembers [("types", repeatedTypes), ("lenses", .list [writingLens])]
      [("types", repeatedTypes.renderChars), ("lenses", (Value.list [writingLens]).renderChars)] :=
    .cons ⟨rfl, types⟩ <| .cons ⟨rfl, .list list (.cons lens .nil)⟩ .nil
  rw [Value.render, String.toList_ofList]
  exact .listed (objectText_renderChars _) members (by simp) list (.cons lens .nil)

theorem decode_agrees_repeated :
    decode Manifest.shape repeatedManifest.render =
        .ok ⟨TypeTable.empty.insert "A" {}, [⟨"A", { path := "b", mode := .write }⟩]⟩ ∧
      decode TypeTable.shape repeatedManifest.render = .ok (TypeTable.empty.insert "A" {}) ∧
      decode Lens.shape writingLens.render = .ok { path := "b", mode := .write } ∧
      List.Forall₂ (fun own (entry : Entry) => ∀ lens,
        decode Lens.shape (String.ofList own) = .ok lens → lens = entry.lens)
        [writingLens.renderChars] [⟨"A", { path := "b", mode := .write }⟩] := by
  have read : decode Manifest.shape repeatedManifest.render =
      .ok ⟨TypeTable.empty.insert "A" {}, [⟨"A", { path := "b", mode := .write }⟩]⟩ := by
    decide +kernel
  exact ⟨read, by decide +kernel, by decide +kernel,
    (decode_agrees read).2.2 _ lensTexts_repeatedManifest⟩

end Manifest

end LensPath
