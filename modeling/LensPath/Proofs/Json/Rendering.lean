import LensPath.Proofs.Json.Value

/-!
The compact text of a value says the value, as long as its numbers are natural numbers of 64 bits.
-/

namespace LensPath.Json

open Text (isDigit digitValue hexValue?)

/-- The numbers in a value are natural numbers that fit into 64 bits. -/
inductive Value.Exact : Value → Prop
  | null : Exact .null
  | flag (value : Bool) : Exact (.flag value)
  | number {number : Nat} (bounded : number < offsetBound) : Exact (.number (.natural number))
  | text (string : String) : Exact (.text string)
  | list {items : List Value} (each : ∀ item ∈ items, Exact item) : Exact (.list items)
  | object {members : List (String × Value)} (each : ∀ member ∈ members, Exact member.2) :
      Exact (.object members)

/-! ## Numbers -/

theorem appendDigits_append {digits : List Char} {significand kept : Nat}
    (fits : appendDigits significand digits = (kept, 0)) (more : List Char) :
    appendDigits significand (digits ++ more) = appendDigits kept more := by
  induction digits generalizing significand with
  | nil =>
      cases fits
      rfl
  | cons digit digits induction =>
      rw [appendDigits] at fits
      rw [List.cons_append, appendDigits]
      split at fits
      · next bounded =>
          rw [if_pos bounded]
          exact induction fits
      · cases fits

theorem digitValue_digitChar {digit : Nat} (single : digit < 10) :
    digitValue digit.digitChar = digit :=
  Nat.toNat_digitChar_sub_48_of_lt_ten single

theorem appendDigits_single {significand digit : Nat} (single : digit < 10)
    (bounded : significand * 10 + digit < offsetBound) :
    appendDigits significand [digit.digitChar] = (significand * 10 + digit, 0) := by
  simp [appendDigits, digitValue_digitChar single, bounded]

theorem appendDigits_toDigits {number : Nat} (bounded : number < offsetBound) :
    appendDigits 0 (Nat.toDigits 10 number) = (number, 0) := by
  induction number using Nat.strongRecOn with
  | ind number induction =>
      rw [Nat.toDigits_eq_if (by decide)]
      split
      · next single =>
          have whole := @appendDigits_single 0 _ single (by omega)
          rwa [Nat.zero_mul, Nat.zero_add] at whole
      · next several =>
          have before := induction (number / 10) (by omega) (by omega)
          rw [appendDigits_append before, appendDigits_single (by omega) (by omega)]
          congr 1
          omega

theorem isDigit_of_mem_toDigits {number : Nat} {c : Char} (member : c ∈ Nat.toDigits 10 number) :
    isDigit c = true := by
  have digit := Nat.isDigit_of_mem_toDigits (by decide) (by decide) member
  simpa [Char.isDigit, isDigit, Char.le_def] using digit

theorem head?_toDigits {number : Nat} (positive : 0 < number) :
    (Nat.toDigits 10 number).head? ≠ some '0' := by
  induction number using Nat.strongRecOn with
  | ind number induction =>
      rw [Nat.toDigits_eq_if (by decide)]
      split
      · intro zero
        rw [List.head?_cons, Option.some.injEq, Nat.digitChar_eq_zero] at zero
        omega
      · have before := induction (number / 10) (by omega) (by omega)
        rw [List.head?_append_of_ne_nil _ Nat.toDigits_ne_nil]
        exact before

theorem wholeText_toDigits (number : Nat) : WholeText (Nat.toDigits 10 number) := by
  cases number with
  | zero =>
      rw [Nat.toDigits_zero]
      exact .zero
  | succ number =>
      exact .other ⟨Nat.toDigits_ne_nil, fun _ => isDigit_of_mem_toDigits⟩
        (head?_toDigits (Nat.succ_pos number))

theorem numberText_render {number : Nat} (bounded : number < offsetBound) :
    NumberText (.natural number) (Numeral.natural number).render.toList := by
  have exact : Numeral.ofParts? false (Nat.toDigits 10 number) [] none =
      some (.natural number) := by
    rw [Numeral.ofParts?, appendDigits_toDigits bounded, if_pos ⟨rfl, rfl, rfl⟩]
    rfl
  have text := UnsignedText.intro (wholeText_toDigits number) .none .none exact
  refine .unsigned ?_
  simpa [Numeral.render, Nat.repr] using text

/-! ## Strings -/

theorem hexValue?_digitChar : ∀ digit < 16, hexValue? (Nat.digitChar digit) = some digit := by
  decide

/-- Controls are written as escapes of four digits, the first two of them zeros. -/
theorem unitText_control {c : Char} (control : c.toNat < 0x20) :
    UnitText c.toNat ['0', '0', Nat.digitChar (c.toNat / 16), Nat.digitChar (c.toNat % 16)] := by
  have unit := UnitText.intro (hexValue?_digitChar 0 (by decide))
    (hexValue?_digitChar 0 (by decide)) (hexValue?_digitChar (c.toNat / 16) (by omega))
    (hexValue?_digitChar (c.toNat % 16) (by omega))
  have value : ((0 * 16 + 0) * 16 + c.toNat / 16) * 16 + c.toNat % 16 = c.toNat := by omega
  rwa [value] at unit

theorem stringText_control {c : Char} (control : c.toNat < 0x20) {decoded text : List Char}
    (later : StringText decoded text) :
    StringText (c :: decoded) ('\\' :: 'u' :: '0' :: '0' :: Nat.digitChar (c.toNat / 16) ::
      Nat.digitChar (c.toNat % 16) :: text) := by
  have notTrailing : isTrailingSurrogate c.toNat = false := by
    simp only [isTrailingSurrogate, Bool.and_eq_false_iff, decide_eq_false_iff_not]
    omega
  have notLeading : isLeadingSurrogate c.toNat = false := by
    simp only [isLeadingSurrogate, Bool.and_eq_false_iff, decide_eq_false_iff_not]
    omega
  have escaped := StringText.unit (unitText_control control) notTrailing notLeading later
  rwa [Char.ofNat_toNat] at escaped

theorem stringText_escapeChar (c : Char) {decoded text : List Char}
    (later : StringText decoded text) : StringText (c :: decoded) (escapeChar c ++ text) := by
  unfold escapeChar
  split
  case h_8 noQuote noEscape _ _ _ _ _ =>
    split
    · next control => exact stringText_control control later
    · next noControl => exact .plain noQuote noEscape (Nat.not_lt.mp noControl) later
  all_goals exact .short rfl later

theorem stringText_flatMap (decoded : List Char) :
    StringText decoded (decoded.flatMap escapeChar) := by
  induction decoded with
  | nil => exact .nil
  | cons c decoded induction => exact stringText_escapeChar c induction

/-! ## Values -/

theorem separated_renderItems : ∀ items : List Value,
    Separated (items.map Value.renderChars) (Value.renderItems items)
  | [] => .none .nil
  | [_] => .last _
  | _ :: next :: rest => .more _ (by simp) (separated_renderItems (next :: rest))

def renderMember (member : String × Value) : List Char :=
  renderString member.1 ++ ':' :: member.2.renderChars

theorem separated_renderMembers : ∀ members : List (String × Value),
    Separated (members.map renderMember) (Value.renderMembers members)
  | [] => .none .nil
  | [_] => .last _
  | (key, value) :: next :: rest => by
      have later := separated_renderMembers (next :: rest)
      have separated := Separated.more (renderMember (key, value)) (by simp) later
      simpa [renderMember, Value.renderMembers] using separated

theorem memberText_renderMember (key : String) (value : Value) :
    MemberText (key, value.renderChars) (renderMember (key, value)) :=
  .intro ⟨stringText_flatMap key.toList, .self _⟩

theorem listText_renderChars (items : List Value) :
    ListText (items.map Value.renderChars) (Value.list items).renderChars :=
  ⟨separated_renderItems items, .self _⟩

theorem objectText_renderChars (members : List (String × Value)) :
    ObjectText (members.map fun member => (member.1, member.2.renderChars))
      (Value.object members).renderChars := by
  have texts : List.Forall₂ MemberText
      (members.map fun member => (member.1, member.2.renderChars))
      (members.map renderMember) := by
    rw [List.forall₂_map_left_iff, List.forall₂_map_right_iff, List.forall₂_same]
    exact fun member _ => memberText_renderMember member.1 member.2
  exact ⟨texts, separated_renderMembers members, .self _⟩

theorem spelledBy_renderChars {value : Value} (exact : value.Exact) :
    value.SpelledBy value.renderChars := by
  induction value with
  | null => exact .null (.self _)
  | flag value =>
      cases value with
      | true => exact .true (.self _)
      | false => exact .false (.self _)
  | number numeral =>
      cases exact with
      | number bounded => exact .number (numberText_render bounded) (.self _)
  | text string => exact .text (stringText_flatMap string.toList) (.self _)
  | list items induction =>
      cases exact with
      | list each =>
          refine .list (listText_renderChars items) ?_
          rw [List.forall₂_map_right_iff, List.forall₂_same]
          exact fun item member => induction item member (each item member)
  | object members induction =>
      cases exact with
      | object each =>
          refine .object (objectText_renderChars members) (by simp) ?_
          simp only [List.map_map, List.forall₂_map_left_iff, List.forall₂_map_right_iff,
            List.forall₂_same, Function.comp_apply]
          exact fun member mem => induction member mem (each member mem)

end LensPath.Json
