import LensPath.Proofs.Json.Meaning
import LensPath.Proofs.Json.Rendering
import Mathlib.Data.List.Perm.Basic

/-!
Values written more loosely: the members of objects may come in any order, and some members may be
left out.
-/

namespace LensPath.Json

/-- Members of an object, some of the omittable ones left out and the values of the others
related to what they were. -/
inductive KeptMembers (omittable : List (String × Value)) (related : Value → Value → Prop) :
    List (String × Value) → List (String × Value) → Prop
  | nil : KeptMembers omittable related [] []
  | keep {key : String} {value other : Value} {members others : List (String × Value)}
      (same : related value other) (later : KeptMembers omittable related members others) :
      KeptMembers omittable related ((key, value) :: members) ((key, other) :: others)
  | drop {key : String} {value : Value} {members others : List (String × Value)}
      (isOmittable : (key, value) ∈ omittable)
      (later : KeptMembers omittable related members others) :
      KeptMembers omittable related ((key, value) :: members) others

/-- A value with the members of its objects in any order, and without some of the omittable
ones. -/
inductive Loosened (omittable : List (String × Value)) : Value → Value → Prop
  | same (value : Value) : Loosened omittable value value
  | list {items others : List Value} (each : List.Forall₂ (Loosened omittable) items others) :
      Loosened omittable (.list items) (.list others)
  | object {members kept written : List (String × Value)}
      (each : KeptMembers omittable (Loosened omittable) members kept)
      (permuted : kept.Perm written) : Loosened omittable (.object members) (.object written)

variable {omittable : List (String × Value)} {value other : Value}

/-! ## Cases by the value -/

theorem KeptMembers.refl {related : Value → Value → Prop} (same : ∀ value, related value value) :
    ∀ members : List (String × Value), KeptMembers omittable related members members
  | [] => .nil
  | (_, value) :: members => .keep (same value) (KeptMembers.refl same members)

theorem KeptMembers.mono {related wider : Value → Value → Prop}
    {members others : List (String × Value)} (kept : KeptMembers omittable related members others)
    (implies : ∀ value other, related value other → wider value other) :
    KeptMembers omittable wider members others := by
  induction kept with
  | nil => exact .nil
  | keep same _ induction => exact .keep (implies _ _ same) induction
  | drop isOmittable _ induction => exact .drop isOmittable induction

theorem KeptMembers.exists_of_mem {related : Value → Value → Prop}
    {members others : List (String × Value)} (kept : KeptMembers omittable related members others)
    {entry : String × Value} (member : entry ∈ others) :
    ∃ value, (entry.1, value) ∈ members ∧ related value entry.2 := by
  induction kept with
  | nil => cases member
  | keep same _ induction =>
      rcases List.mem_cons.mp member with rfl | member
      · exact ⟨_, List.mem_cons_self, same⟩
      · obtain ⟨value, found, same⟩ := induction member
        exact ⟨value, List.mem_cons_of_mem _ found, same⟩
  | drop _ _ induction =>
      obtain ⟨value, found, same⟩ := induction member
      exact ⟨value, List.mem_cons_of_mem _ found, same⟩

theorem Loosened.eq_of_scalar (loosened : Loosened omittable value other)
    (noList : ∀ items, value ≠ .list items) (noObject : ∀ members, value ≠ .object members) :
    other = value := by
  cases loosened with
  | same => rfl
  | list _ => exact absurd rfl (noList _)
  | object _ _ => exact absurd rfl (noObject _)

theorem Loosened.text {string : String} (loosened : Loosened omittable (.text string) other) :
    other = .text string :=
  loosened.eq_of_scalar (by simp) (by simp)

theorem Loosened.exists_list {items : List Value}
    (loosened : Loosened omittable (.list items) other) :
    ∃ others, other = .list others ∧ List.Forall₂ (Loosened omittable) items others := by
  cases loosened with
  | same => exact ⟨items, rfl, List.forall₂_same.mpr fun item _ => .same item⟩
  | list each => exact ⟨_, rfl, each⟩

theorem Loosened.exists_object {members : List (String × Value)}
    (loosened : Loosened omittable (.object members) other) :
    ∃ kept written, other = .object written ∧
      KeptMembers omittable (Loosened omittable) members kept ∧ kept.Perm written := by
  cases loosened with
  | same => exact ⟨members, members, rfl, .refl .same members, .refl members⟩
  | object each permuted => exact ⟨_, _, rfl, each, permuted⟩

/-! ## Depth and numbers -/

theorem exists_of_mem_right {R : α → β → Prop} {values : List α} {others : List β} {other : β}
    (each : List.Forall₂ R values others) (member : other ∈ others) :
    ∃ value ∈ values, R value other := by
  induction each with
  | nil => cases member
  | cons related _ induction =>
      rcases List.mem_cons.mp member with rfl | member
      · exact ⟨_, List.mem_cons_self, related⟩
      · obtain ⟨value, found, related⟩ := induction member
        exact ⟨value, List.mem_cons_of_mem _ found, related⟩

theorem Loosened.exact (loosened : Loosened omittable value other) (exact : value.Exact) :
    other.Exact := by
  induction value generalizing other with
  | null | flag _ | number _ | text _ =>
      rw [loosened.eq_of_scalar (by simp) (by simp)]
      exact exact
  | list items induction =>
      obtain ⟨others, rfl, each⟩ := loosened.exists_list
      cases exact with
      | list exact =>
          refine .list fun other member => ?_
          obtain ⟨item, found, loosened⟩ := exists_of_mem_right each member
          exact induction item found loosened (exact item found)
  | object members induction =>
      obtain ⟨kept, written, rfl, each, permuted⟩ := loosened.exists_object
      cases exact with
      | object exact =>
          refine .object fun entry member => ?_
          obtain ⟨value, found, loosened⟩ := each.exists_of_mem (permuted.mem_iff.mpr member)
          exact induction _ found loosened (exact _ found)

theorem Loosened.fits {room : Nat} (loosened : Loosened omittable value other)
    (fits : value.Fits room) : other.Fits room := by
  induction value generalizing room other with
  | null | flag _ | number _ | text _ =>
      rw [loosened.eq_of_scalar (by simp) (by simp)]
      exact fits
  | list items induction =>
      obtain ⟨others, rfl, each⟩ := loosened.exists_list
      cases fits with
      | list fits =>
          refine .list fun other member => ?_
          obtain ⟨item, found, loosened⟩ := exists_of_mem_right each member
          exact induction item found loosened (fits item found)
  | object members induction =>
      obtain ⟨kept, written, rfl, each, permuted⟩ := loosened.exists_object
      cases fits with
      | object fits =>
          refine .object fun entry member => ?_
          obtain ⟨value, found, loosened⟩ := each.exists_of_mem (permuted.mem_iff.mpr member)
          exact induction _ found loosened (fits _ found)

/-! ## Meaning -/

/-- However loosely the value is written, it means the same for the shape. -/
def Keeps (omittable : List (String × Value)) (shape : Shape α) (value : Value) (found : α) :
    Prop :=
  ∀ other, Loosened omittable value other → shape.meaning other = some found

def KeepsAll (omittable : List (String × Value)) (related : Value → Value → Prop)
    (members : Members σ γ) (entries : List (String × Value)) (values : γ) : Prop :=
  ∀ others, KeptMembers omittable related entries others → members.meaning others = some values

theorem keeps_text (string : String) : Keeps omittable .text (.text string) string := by
  intro other loosened
  exact meaning_text_iff.mpr loosened.text

theorem keeps_flag (flag : Bool) : Keeps omittable .flag (.flag flag) flag := by
  intro other loosened
  exact meaning_flag_iff.mpr (loosened.eq_of_scalar (by simp) (by simp))

theorem keeps_offset (number : Nat) :
    Keeps omittable .offset (.number (.natural number)) number := by
  intro other loosened
  exact meaning_offset_iff.mpr ⟨_, loosened.eq_of_scalar (by simp) (by simp), rfl⟩

theorem keeps_choice {options : List (String × α)} {name : String} {chosen : α}
    (known : option options name = .ok chosen) :
    Keeps omittable (.choice options) (.text name) chosen := by
  intro other loosened
  exact meaning_choice_iff.mpr ⟨name, .inl loosened.text, known⟩

theorem keeps_list {item : Shape α} {encode : α → Value} {values : List α}
    (each : ∀ value ∈ values, Keeps omittable item (encode value) value) :
    Keeps omittable (.list item) (.list (values.map encode)) values := by
  intro other loosened
  obtain ⟨others, rfl, related⟩ := loosened.exists_list
  rw [List.forall₂_map_left_iff] at related
  have means := forall₂_imp_of_mem related fun value member other => each value member other
  exact meaning_list_iff.mpr ⟨others, rfl, mapM_eq_some_iff.mpr means.flip⟩

section

variable {key : String} {shape : Shape α} {fallback : Option α} {rest : Members σ γ}
variable {members written : List (String × Value)} {found : α} {values : γ}
variable {related : Value → Value → Prop}

theorem keepsAll_nil (entries : List (String × Value)) :
    KeepsAll omittable related .nil entries () := by
  intro others _
  rw [Members.meaning]

/-- The first of some members means what its value means, or what the fallback is where it is left
out; the others mean what they mean without it. -/
theorem keepsAll_cons (fresh : ∀ entry ∈ members, entry.1 ≠ key)
    (first : ∀ other, related value other → shape.meaning other = some found)
    (absent : (key, value) ∈ omittable → fallback = some found)
    (later : KeepsAll omittable related rest members values) :
    KeepsAll omittable related (.member key shape fallback rest) ((key, value) :: members)
      (found, values) := by
  intro written kept
  have freshIn {others : List (String × Value)}
      (kept : KeptMembers omittable related members others) : ∀ entry ∈ others, entry.1 ≠ key := by
    intro entry member
    obtain ⟨value, found, _⟩ := kept.exists_of_mem member
    exact fresh (entry.1, value) found
  rw [Members.meaning]
  cases kept with
  | @keep _ _ other _ others same kept =>
      have values : valuesOf key ((key, other) :: others) = [other] := by
        have none := valuesOf_eq_nil (freshIn kept)
        simpa [valuesOf] using none
      have remaining : without key ((key, other) :: others) = others := by
        have all := without_eq_self (freshIn kept)
        simpa [without] using all
      rw [values, remaining, oneOf, first other same, later others kept]
      rfl
  | drop isOmittable kept =>
      rw [valuesOf_eq_nil (freshIn kept), without_eq_self (freshIn kept), oneOf,
        absent isOmittable, later written kept]
      rfl

theorem keepsAll_skip {known : Members σ γ} (unknown : known.knows key = false)
    (later : KeepsAll omittable related known members values) :
    KeepsAll omittable related known ((key, value) :: members) values := by
  intro written kept
  cases kept with
  | @keep _ _ other _ others _ kept =>
      rw [← later others kept, ← meaning_filter known others fun _ isKnown => isKnown,
        ← meaning_filter known ((key, other) :: others) fun _ isKnown => isKnown,
        List.filter_cons_of_neg (by simp [unknown])]
  | drop _ kept => exact later written kept

theorem KeepsAll.of_eq {known : Members σ γ}
    (keeps : KeepsAll omittable (Loosened omittable) known members values) :
    KeepsAll omittable Eq known members values :=
  fun others kept => keeps others (kept.mono fun _ _ same => same ▸ .same _)

theorem keeps_record {name : String} {members : Members σ γ} {build : γ → α}
    {entries : List (String × Value)} {values : γ}
    (each : KeepsAll omittable (Loosened omittable) members entries values) :
    Keeps omittable (.record name members build) (.object entries) (build values) := by
  intro other loosened
  obtain ⟨kept, written, rfl, related, permuted⟩ := loosened.exists_object
  refine meaning_record_iff.mpr ⟨values, rfl, .inr ⟨written, rfl, ?_⟩⟩
  rw [← meaning_perm _ permuted]
  exact each kept related

end

theorem KeptMembers.forall₂ {related : Value → Value → Prop}
    {members others : List (String × Value)} (kept : KeptMembers omittable related members others)
    (needed : ∀ entry ∈ members, entry ∉ omittable) :
    List.Forall₂ (fun entry other => other.1 = entry.1 ∧ related entry.2 other.2)
      members others := by
  induction kept with
  | nil => exact .nil
  | keep same _ induction =>
      exact .cons ⟨rfl, same⟩ (induction fun entry member => needed entry (by simp [member]))
  | drop isOmittable _ _ => exact absurd isOmittable (needed _ (by simp))

theorem exists_meaning_table {entry : Shape α} {encode : α → Value} {entries : List (String × α)}
    (needed : ∀ found ∈ entries, (found.1, encode found.2) ∉ omittable)
    (each : ∀ found ∈ entries, Keeps omittable entry (encode found.2) found.2)
    (loosened : Loosened omittable
      (.object (entries.map fun found => (found.1, encode found.2))) other) :
    ∃ found, (Shape.table entry).meaning other = some found ∧ found.Perm entries := by
  obtain ⟨kept, written, rfl, members, permuted⟩ := loosened.exists_object
  have related := members.forall₂ (List.forall_mem_map.mpr needed)
  rw [List.forall₂_map_left_iff] at related
  have means : List.Forall₂ (fun found other =>
      (entry.meaning other.2).map (other.1, ·) = some found) entries kept := by
    refine forall₂_imp_of_mem related fun found member other both => ?_
    rw [each found member other.2 both.2, both.1]
    rfl
  obtain ⟨found, means, reordered⟩ := List.perm_comp_forall₂ permuted.symm means.flip
  exact ⟨found, meaning_table_iff.mpr ⟨written, rfl, mapM_eq_some_iff.mpr means⟩, reordered⟩

end LensPath.Json
