import LensPath.Proofs.Json.Meaning

/-!
Values that were kept stand for what they mean: keeping a value and reading it when the text is
over gives what reading it as the text goes by gives.
-/

namespace LensPath.Json

mutual

/-- A shape none of whose objects keeps members for later. -/
def Shape.IsPlain : Shape α → Prop
  | .text | .flag | .offset | .choice _ => True
  | .list item => item.IsPlain
  | .table entry => entry.IsPlain
  | .record _ members _ => members.IsPlain
  | .split .. => False

def Members.IsPlain : Members σ γ → Prop
  | .nil => True
  | .member _ shape _ rest => shape.IsPlain ∧ rest.IsPlain

end

def PutAgrees (members : Members σ γ) : Prop :=
  ∀ name value seen next, members.put? name value seen = some next →
    members.putMember name value seen = some (.ok next) ∨
      members.putMember name value seen = none ∧ next = seen

theorem putMembers_of_foldlM {members : Members σ γ} (agrees : PutAgrees members)
    {entries : List (String × Value)} {seen final : σ}
    (put : entries.foldlM (fun seen entry => members.put? entry.1 entry.2 seen) seen =
      some final) : putMembers members.putMember entries seen = .ok final := by
  induction entries generalizing seen with
  | nil =>
      cases put
      rfl
  | cons entry entries induction =>
      rw [List.foldlM_cons] at put
      obtain ⟨next, first, later⟩ := Option.bind_eq_some_iff.mp put
      rw [putMembers]
      rcases agrees _ _ _ _ first with found | ⟨unknown, rfl⟩
      · rw [found]
        exact induction later
      · rw [unknown]
        exact induction later

theorem PutAgrees.exists_putMembers {members : Members σ γ} (agrees : PutAgrees members)
    {entries : List (String × Value)} {values : γ} (means : members.meaning entries = some values) :
    ∃ seen, putMembers members.putMember entries members.unseen = .ok seen ∧
      members.complete seen = .ok values := by
  rw [← foldlM_put?_complete] at means
  obtain ⟨seen, put, complete⟩ := Option.bind_eq_some_iff.mp means
  exact ⟨seen, putMembers_of_foldlM agrees put, toOption_eq_some_iff.mp complete⟩

theorem mapM_ok_of_some {f : α → Except Error β} {g : α → Option β} {values : List α}
    (each : ∀ value ∈ values, ∀ found, g value = some found → f value = .ok found)
    {results : List β} (found : values.mapM g = some results) : values.mapM f = .ok results := by
  induction values generalizing results with
  | nil =>
      cases found
      rfl
  | cons value values induction =>
      rw [List.mapM_cons] at found ⊢
      obtain ⟨first, here, found⟩ := Option.bind_eq_some_iff.mp found
      obtain ⟨others, later, same⟩ := Option.bind_eq_some_iff.mp found
      cases same
      rw [each value (by simp) first here,
        induction (fun value member => each value (by simp [member])) later]
      rfl

mutual

theorem ofValue_of_meaning : ∀ (shape : Shape α), shape.IsPlain → ∀ {value : Value} {found : α},
    shape.meaning value = some found → shape.ofValue value = .ok found
  | .text, _, value, found, means => by
      rw [meaning_text_iff.mp means, Shape.ofValue]
  | .flag, _, value, found, means => by
      rw [meaning_flag_iff.mp means, Shape.ofValue]
  | .offset, _, value, found, means => by
      obtain ⟨numeral, rfl, offset⟩ := meaning_offset_iff.mp means
      rw [Shape.ofValue, offset]
  | .choice options, _, value, found, means => by
      obtain ⟨name, rfl | rfl, chosen⟩ := meaning_choice_iff.mp means
      · rw [Shape.ofValue, chosen]
      · rw [Shape.ofValue, chosen]
        rfl
  | .list item, plain, value, found, means => by
      obtain ⟨items, rfl, each⟩ := meaning_list_iff.mp means
      rw [Shape.ofValue]
      exact mapM_ok_of_some (fun value _ _ => ofValue_of_meaning item plain) each
  | .table entry, plain, value, found, means => by
      obtain ⟨entries, rfl, each⟩ := meaning_table_iff.mp means
      rw [Shape.ofValue]
      refine mapM_ok_of_some (fun member _ found means => ?_) each
      obtain ⟨here, meant, rfl⟩ := Option.map_eq_some_iff.mp means
      rw [ofValue_of_meaning entry plain meant]
      rfl
  | .record name members build, plain, value, found, means => by
      obtain ⟨values, rfl, ⟨items, rfl, meant⟩ | ⟨entries, rfl, meant⟩⟩ :=
        meaning_record_iff.mp means
      · rw [Shape.ofValue, ofItems_of_meaning members plain meant]
        rfl
      · obtain ⟨seen, put, complete⟩ := (putAgrees members plain).exists_putMembers meant
        rw [Shape.ofValue, put]
        change build <$> members.complete seen = _
        rw [complete]
        rfl

theorem putAgrees : ∀ (members : Members σ γ), members.IsPlain → PutAgrees members
  | .nil, _, name, value, seen, next, put => by
      cases put
      exact .inr ⟨rfl, rfl⟩
  | .member key shape fallback rest, plain, name, value, (seen, others), next, put => by
      cases same : key == name with
      | true =>
          rw [put?_of_eq same] at put
          obtain ⟨now, saw, rfl⟩ := Option.map_eq_some_iff.mp put
          cases seen with
          | some _ => cases saw
          | none =>
              obtain ⟨found, means, rfl⟩ := Option.map_eq_some_iff.mp saw
              rw [Members.putMember, if_pos same, ofValue_of_meaning shape plain.1 means]
              exact .inl rfl
      | false =>
          rw [put?_of_ne same] at put
          obtain ⟨now, later, rfl⟩ := Option.map_eq_some_iff.mp put
          have step : (Members.member key shape fallback rest).putMember name value (seen, others) =
              (rest.putMember name value others).map fun result => (seen, ·) <$> result := by
            cases seen <;> rw [Members.putMember, if_neg (by simp [same])]
          rcases putAgrees rest plain.2 name value others now later with found | ⟨unknown, rfl⟩
          · rw [step, found]
            exact .inl rfl
          · rw [step, unknown]
            exact .inr ⟨rfl, rfl⟩

theorem ofItems_of_meaning : ∀ (members : Members σ γ), members.IsPlain →
    ∀ {name : String} {count index total : Nat} {items : List Value} {values : γ},
    members.meaningOfItems items = some values →
    members.ofItems name count index total items = .ok values
  | .nil, _, name, count, index, total, items, values, means => by
      rw [Members.meaningOfItems] at means
      rw [Members.ofItems]
      split at means
      · next ended =>
          rw [if_pos ended]
      · cases means
  | .member key shape fallback rest, plain, name, count, index, total, [], values, means => by
      rw [Members.meaningOfItems] at means
      rw [Members.ofItems]
      rw [← toOption_eq_some_iff, toOption_fallbacks, means]
  | .member key shape fallback rest, plain, name, count, index, total, item :: items, values,
    means => by
      rw [Members.meaningOfItems] at means
      obtain ⟨value, meant, means⟩ := Option.bind_eq_some_iff.mp means
      obtain ⟨others, later, rfl⟩ := Option.map_eq_some_iff.mp means
      rw [Members.ofItems, ofValue_of_meaning shape plain.1 meant]
      change (do return (value, ← rest.ofItems name count (index + 1) total items)) = _
      rw [ofItems_of_meaning rest plain.2 later]
      rfl

end

theorem ofKept_of_meaning {members : Members σ γ} (plain : members.IsPlain)
    {entries : List (String × Value)} {values : γ} (means : members.meaning entries = some values) :
    members.ofKept entries = .ok values := by
  obtain ⟨seen, put, complete⟩ := (putAgrees members plain).exists_putMembers means
  rw [Members.ofKept, put]
  exact complete

end LensPath.Json
