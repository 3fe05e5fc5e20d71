import LensPath.Proofs.Json.Run
import Mathlib.Data.List.Forall2

/-!
What a value means for a shape. The members of a record are looked up by their keys, so neither
their order nor members of other names count, and a key that stands twice means nothing.
-/

namespace LensPath.Json

/-! ## Members by their keys -/

def valuesOf (key : String) (entries : List (String × Value)) : List Value :=
  (entries.filter fun entry => key == entry.1).map Prod.snd

def without (key : String) (entries : List (String × Value)) : List (String × Value) :=
  entries.filter fun entry => !(key == entry.1)

theorem mem_valuesOf {key : String} {value : Value} {entries : List (String × Value)}
    (member : (key, value) ∈ entries) : value ∈ valuesOf key entries :=
  List.mem_map.mpr ⟨(key, value), List.mem_filter.mpr ⟨member, by simp⟩, rfl⟩

theorem valuesOf_eq_nil {key : String} {entries : List (String × Value)}
    (fresh : ∀ entry ∈ entries, entry.1 ≠ key) : valuesOf key entries = [] := by
  rw [valuesOf, List.map_eq_nil_iff, List.filter_eq_nil_iff]
  exact fun entry member same => fresh entry member (beq_iff_eq.mp same).symm

theorem without_eq_self {key : String} {entries : List (String × Value)}
    (fresh : ∀ entry ∈ entries, entry.1 ≠ key) : without key entries = entries := by
  refine List.filter_eq_self.mpr fun entry member => ?_
  rw [beq_false_of_ne (fresh entry member).symm]
  rfl

def oneOf (meaning : Value → Option α) (fallback : Option α) : List Value → Option α
  | [] => fallback
  | [value] => meaning value
  | _ :: _ :: _ => none

theorem oneOf_of_mem {meaning : Value → Option α} {fallback : Option α} {values : List Value}
    {value : Value} {found : α} (means : oneOf meaning fallback values = some found)
    (member : value ∈ values) : meaning value = some found := by
  match values with
  | [only] =>
      rw [List.mem_singleton.mp member]
      exact means
  | _ :: _ :: _ => cases means

namespace Members

def knows : Members σ γ → String → Bool
  | nil, _ => false
  | member key _ _ rest, name => key == name || rest.knows name

def fallbacks? : Members σ γ → Option γ
  | nil => some ()
  | member _ _ fallback rest => fallback.bind fun value => rest.fallbacks?.map (value, ·)

end Members

/-! ## Meaning -/

mutual

/-- What a value of a shape stands for, when it is read as the text goes by; `none` for a value
that does not have the shape. -/
def Shape.meaning : Shape α → Value → Option α
  | .text, value =>
      match value with
      | .text string => some string
      | _ => none
  | .flag, value =>
      match value with
      | .flag flag => some flag
      | _ => none
  | .offset, value =>
      match value with
      | .number numeral => numeral.toOffset.toOption
      | _ => none
  | .choice options, value =>
      match value with
      | .text name | .object [(name, .null)] => (option options name).toOption
      | _ => none
  | .list item, value =>
      match value with
      | .list items => items.mapM item.meaning
      | _ => none
  | .table entry, value =>
      match value with
      | .object entries => entries.mapM fun found => (entry.meaning found.2).map (found.1, ·)
      | _ => none
  | .record _ members build, value =>
      match value with
      | .list items => (members.meaningOfItems items).map build
      | .object entries => (members.meaning entries).map build
      | _ => none
  | .split _ direct kept build, value =>
      match value with
      | .object entries =>
          (direct.meaning entries).bind fun values =>
            (kept.ofKept (entries.filter fun entry => !direct.knows entry.1)).toOption.map
              (build values)
      | _ => none

def Members.meaning : Members σ γ → List (String × Value) → Option γ
  | .nil, _ => some ()
  | .member key shape fallback rest, entries =>
      (oneOf shape.meaning fallback (valuesOf key entries)).bind fun value =>
        (rest.meaning (without key entries)).map (value, ·)

def Members.meaningOfItems : Members σ γ → List Value → Option γ
  | .nil, items => if items.isEmpty then some () else none
  | .member key shape fallback rest, items =>
      match items with
      | [] => (Members.member key shape fallback rest).fallbacks?
      | item :: items =>
          (shape.meaning item).bind fun value => (rest.meaningOfItems items).map (value, ·)

end

section

variable {value : Value} {found : α}

attribute [local simp] Shape.meaning

theorem meaning_text_iff {found : String} :
    Shape.text.meaning value = some found ↔ value = .text found := by
  cases value <;> simp

theorem meaning_flag_iff {found : Bool} :
    Shape.flag.meaning value = some found ↔ value = .flag found := by
  cases value <;> simp

theorem meaning_offset_iff {found : Nat} :
    Shape.offset.meaning value = some found ↔
      ∃ numeral, value = .number numeral ∧ numeral.toOffset = .ok found := by
  cases value <;> simp [toOption_eq_some_iff]

theorem meaning_choice_iff {options : List (String × α)} :
    (Shape.choice options).meaning value = some found ↔
      ∃ name, (value = .text name ∨ value = .object [(name, .null)]) ∧
        option options name = .ok found := by
  cases value with
  | text name => simp [toOption_eq_some_iff]
  | object entries =>
      rcases entries with _ | ⟨⟨name, chosen⟩, _ | ⟨second, more⟩⟩
      · simp
      · cases chosen <;> simp [toOption_eq_some_iff]
      · simp
  | null | flag _ | number _ | list _ => simp

theorem mapM_eq_some_iff {f : α → Option β} {values : List α} {results : List β} :
    values.mapM f = some results ↔
      List.Forall₂ (fun value result => f value = some result) values results := by
  induction values generalizing results with
  | nil => simp [eq_comm]
  | cons value values induction =>
      cases results with
      | nil => simp [List.mapM_cons, Option.bind_eq_some_iff]
      | cons result results =>
          simp [List.mapM_cons, Option.bind_eq_some_iff, induction]

theorem meaning_list_iff {item : Shape α} {found : List α} :
    (Shape.list item).meaning value = some found ↔
      ∃ items, value = .list items ∧ items.mapM item.meaning = some found := by
  cases value <;> simp

theorem meaning_table_iff {entry : Shape α} {found : List (String × α)} :
    (Shape.table entry).meaning value = some found ↔
      ∃ entries, value = .object entries ∧
        entries.mapM (fun found => (entry.meaning found.2).map (found.1, ·)) = some found := by
  cases value <;> simp

theorem meaning_record_iff {name : String} {members : Members σ γ} {build : γ → α} :
    (Shape.record name members build).meaning value = some found ↔
      ∃ values, build values = found ∧
        ((∃ items, value = .list items ∧ members.meaningOfItems items = some values) ∨
          ∃ entries, value = .object entries ∧ members.meaning entries = some values) := by
  cases value <;> simp [and_comm]

theorem meaning_split_iff {name : String} {direct : Members σ γ} {kept : Members ρ δ}
    {build : γ → δ → α} :
    (Shape.split name direct kept build).meaning value = some found ↔
      ∃ entries values others, value = .object entries ∧ direct.meaning entries = some values ∧
        kept.ofKept (entries.filter fun entry => !direct.knows entry.1) = .ok others ∧
        build values others = found := by
  cases value <;> simp [Option.bind_eq_some_iff, toOption_eq_some_iff]

end

/-! ## Members one after the other -/

def Members.put? : Members σ γ → String → Value → σ → Option σ
  | .nil, _, _, seen => some seen
  | .member key shape _ rest, name, value, (seen, others) =>
      if key == name then
        match seen with
        | some _ => none
        | none => (shape.meaning value).map (some ·, others)
      else (rest.put? name value others).map (seen, ·)

def see? (meaning : Value → Option α) (seen : Option α) (value : Value) : Option (Option α) :=
  match seen with
  | some _ => none
  | none => (meaning value).map some

theorem foldlM_see? (meaning : Value → Option α) (fallback : Option α) (values : List Value) :
    (values.foldlM (see? meaning) none).bind (· <|> fallback) = oneOf meaning fallback values := by
  match values with
  | [] => simp [oneOf]
  | [value] => cases found : meaning value <;> simp [oneOf, see?, found]
  | first :: second :: others =>
      cases found : meaning first <;> simp [oneOf, see?, found, List.foldlM_cons]

section

variable {key name : String} {shape : Shape α} {fallback : Option α} {rest : Members σ γ}
variable {value : Value} {seen : Option α} {others : σ}

theorem put?_of_eq (same : (key == name) = true) :
    (Members.member key shape fallback rest).put? name value (seen, others) =
      (see? shape.meaning seen value).map (·, others) := by
  cases seen with
  | none =>
      rw [Members.put?, if_pos same]
      simp [see?, Function.comp_def]
  | some _ =>
      rw [Members.put?, if_pos same]
      rfl

theorem put?_of_ne (other : (key == name) = false) :
    (Members.member key shape fallback rest).put? name value (seen, others) =
      (rest.put? name value others).map (seen, ·) := by
  cases seen <;> rw [Members.put?, if_neg (by simp [other])]

theorem foldlM_put?_member (entries : List (String × Value)) :
    entries.foldlM (fun seen entry =>
        (Members.member key shape fallback rest).put? entry.1 entry.2 seen) (seen, others) =
      ((valuesOf key entries).foldlM (see? shape.meaning) seen).bind fun seen =>
        ((without key entries).foldlM (fun seen entry => rest.put? entry.1 entry.2 seen) others).map
          (seen, ·) := by
  induction entries generalizing seen others with
  | nil => rfl
  | cons entry entries induction =>
      rw [List.foldlM_cons]
      cases same : key == entry.1 with
      | true =>
          have values : valuesOf key (entry :: entries) = entry.2 :: valuesOf key entries := by
            simp [valuesOf, same]
          have remaining : without key (entry :: entries) = without key entries := by
            simp [without, same]
          rw [values, remaining, put?_of_eq same, List.foldlM_cons]
          cases see? shape.meaning seen entry.2 with
          | none => rfl
          | some seen => exact induction
      | false =>
          have values : valuesOf key (entry :: entries) = valuesOf key entries := by
            simp [valuesOf, same]
          have remaining : without key (entry :: entries) = entry :: without key entries := by
            simp [without, same]
          rw [values, remaining, put?_of_ne same, List.foldlM_cons]
          cases rest.put? entry.1 entry.2 others with
          | none => cases (valuesOf key entries).foldlM (see? shape.meaning) seen <;> rfl
          | some others => exact induction

end

theorem toOption_complete_member (key : String) (shape : Shape α) (fallback seen : Option α)
    (rest : Members σ γ) (others : σ) :
    ((Members.member key shape fallback rest).complete (seen, others)).toOption =
      (seen <|> fallback).bind fun value => (rest.complete others).toOption.map (value, ·) := by
  rw [Members.complete]
  cases (seen <|> fallback) with
  | none => rfl
  | some value => cases rest.complete others <;> rfl

theorem toOption_fallbacks : ∀ (members : Members σ γ) (tooShort : Nat → Error) (index : Nat),
    (members.fallbacks tooShort index).toOption = members.fallbacks?
  | .nil, _, _ => rfl
  | .member _ _ none _, _, _ => rfl
  | .member _ _ (some value) rest, tooShort, index => by
      rw [Members.fallbacks, Members.fallbacks?, ← toOption_fallbacks rest tooShort (index + 1)]
      cases rest.fallbacks tooShort (index + 1) <;> rfl

theorem foldlM_put?_complete : ∀ (members : Members σ γ) (entries : List (String × Value)),
    ((entries.foldlM (fun seen entry => members.put? entry.1 entry.2 seen) members.unseen).bind
      fun seen => (members.complete seen).toOption) = members.meaning entries
  | .nil, entries => by
      have kept : entries.foldlM (fun seen entry => Members.nil.put? entry.1 entry.2 seen) () =
          some () := by
        induction entries with
        | nil => rfl
        | cons entry entries induction => exact induction
      exact congrArg (Option.bind · _) kept
  | .member key shape fallback rest, entries => by
      have induction := foldlM_put?_complete rest (without key entries)
      rw [Members.unseen, foldlM_put?_member, Members.meaning, ← foldlM_see?, ← induction]
      cases (valuesOf key entries).foldlM (see? shape.meaning) none with
      | none => rfl
      | some seen =>
          cases (without key entries).foldlM (fun seen entry => rest.put? entry.1 entry.2 seen)
            rest.unseen with
          | none => simp
          | some others => exact toOption_complete_member key shape fallback seen rest others

/-! ## Members that are not known -/

theorem put?_of_not_knows : ∀ {members : Members σ γ} {name : String} (value : Value) (seen : σ),
    members.knows name = false → members.put? name value seen = some seen
  | .nil, _, _, _, _ => rfl
  | .member key shape fallback rest, name, value, (seen, others), unknown => by
      obtain ⟨other, unknown⟩ := Bool.or_eq_false_iff.mp unknown
      rw [put?_of_ne other, put?_of_not_knows value others unknown]
      rfl

theorem valuesOf_filter {key : String} {keeps : String → Bool} (known : keeps key = true)
    (entries : List (String × Value)) :
    valuesOf key (entries.filter fun entry => keeps entry.1) = valuesOf key entries := by
  rw [valuesOf, valuesOf, List.filter_filter]
  refine congrArg _ (List.filter_congr fun entry _ => ?_)
  cases same : key == entry.1 with
  | false => rfl
  | true => rw [← beq_iff_eq.mp same, known, Bool.and_self]

theorem without_filter (key : String) (keeps : String → Bool) (entries : List (String × Value)) :
    without key (entries.filter fun entry => keeps entry.1) =
      (without key entries).filter fun entry => keeps entry.1 := by
  simp only [without, List.filter_filter, Bool.and_comm]

theorem meaning_filter : ∀ (members : Members σ γ) {keeps : String → Bool}
    (entries : List (String × Value)), (∀ name, members.knows name = true → keeps name = true) →
    members.meaning (entries.filter fun entry => keeps entry.1) = members.meaning entries
  | .nil, _, _, _ => by rw [Members.meaning, Members.meaning]
  | .member key shape fallback rest, keeps, entries, known => by
      have later := meaning_filter rest (without key entries) fun name isKnown =>
        known name (by simp [Members.knows, isKnown])
      rw [Members.meaning, Members.meaning, without_filter, later,
        valuesOf_filter (known key (by simp [Members.knows]))]

theorem meaning_filter_apart {direct : Members σ γ} {later : Members ρ δ}
    (apart : ∀ name, later.knows name = true → direct.knows name = false)
    (entries : List (String × Value)) :
    later.meaning (entries.filter fun entry => !direct.knows entry.1) = later.meaning entries := by
  have lets : ∀ name, later.knows name = true → (!direct.knows name) = true := by
    intro name known
    rw [apart name known, Bool.not_false]
  exact meaning_filter later entries lets

theorem meaning_append_unknown (members : Members σ γ) (entries : List (String × Value))
    {further : List (String × Value)}
    (unknown : ∀ entry ∈ further, members.knows entry.1 = false) :
    members.meaning (entries ++ further) = members.meaning entries := by
  have none : (further.filter fun entry => members.knows entry.1) = [] :=
    List.filter_eq_nil_iff.mpr fun entry member => by simp [unknown entry member]
  rw [← meaning_filter members (entries ++ further) fun _ known => known, List.filter_append, none,
    List.append_nil, meaning_filter members entries fun _ known => known]

/-! ## Order of members -/

theorem oneOf_perm (meaning : Value → Option α) (fallback : Option α) {values others : List Value}
    (permuted : values.Perm others) :
    oneOf meaning fallback values = oneOf meaning fallback others := by
  match values with
  | [] => rw [List.nil_perm.mp permuted]
  | [value] => rw [List.singleton_perm.mp permuted]
  | first :: second :: more =>
      match others, permuted.length_eq with
      | _ :: _ :: _, _ => rfl

theorem valuesOf_perm (key : String) {entries others : List (String × Value)}
    (permuted : entries.Perm others) : (valuesOf key entries).Perm (valuesOf key others) :=
  (permuted.filter _).map Prod.snd

theorem without_perm (key : String) {entries others : List (String × Value)}
    (permuted : entries.Perm others) : (without key entries).Perm (without key others) :=
  permuted.filter _

theorem meaning_perm : ∀ (members : Members σ γ) {entries others : List (String × Value)},
    entries.Perm others → members.meaning entries = members.meaning others
  | .nil, _, _, _ => by rw [Members.meaning, Members.meaning]
  | .member key shape fallback rest, entries, others, permuted => by
      rw [Members.meaning, Members.meaning, meaning_perm rest (without_perm key permuted),
        oneOf_perm shape.meaning fallback (valuesOf_perm key permuted)]

end LensPath.Json
