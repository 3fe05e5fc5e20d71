import LensPath.Json.Skip
import LensPath.Proofs.Json.Spelling

/-!
Strings in JSON texts: what is read is what is written between the quotes, escapes included, and
passing over a string goes as far as reading it.
-/

namespace LensPath.Json

open Text (hexValue?)

variable {input rest : List Char} {value : String}

/-! ## Strings that are written are read -/

theorem scanUnit_append {unit : Nat} {digits : List Char} (isUnit : UnitText unit digits)
    (rest : List Char) : scanUnit (digits ++ rest) = .ok (unit, rest) := by
  obtain ⟨first, second, third, fourth⟩ := isUnit
  simp [scanUnit, first, second, third, fourth]

theorem scanEscape_of_short {escape c : Char} (known : shortEscape? escape = some c)
    (rest : List Char) : scanEscape (escape :: rest) = .ok (c, rest) := by
  unfold scanEscape
  split
  · next same => cases same
  · next same =>
      cases same
      cases known
  · next same =>
      cases same
      simp [known]

theorem scanEscape_of_unit {unit : Nat} {digits : List Char} (isUnit : UnitText unit digits)
    (notTrailing : isTrailingSurrogate unit = false)
    (notLeading : isLeadingSurrogate unit = false) (rest : List Char) :
    scanEscape ('u' :: digits ++ rest) = .ok (.ofNat unit, rest) := by
  simp [scanEscape, scanUnit_append isUnit, notTrailing, notLeading]

theorem not_isTrailing_of_isLeading {unit : Nat} (leading : isLeadingSurrogate unit = true) :
    isTrailingSurrogate unit = false := by
  simp only [isLeadingSurrogate, Bool.and_eq_true, decide_eq_true_eq] at leading
  simp only [isTrailingSurrogate, Bool.and_eq_false_iff, decide_eq_false_iff_not]
  omega

theorem scanEscape_of_pair {leading trailing : Nat} {first second : List Char}
    (isFirst : UnitText leading first) (isLeading : isLeadingSurrogate leading = true)
    (isSecond : UnitText trailing second) (isTrailing : isTrailingSurrogate trailing = true)
    (rest : List Char) :
    scanEscape ('u' :: first ++ '\\' :: 'u' :: second ++ rest) =
      .ok (ofSurrogates leading trailing, rest) := by
  have paired : scanTrailing leading ('\\' :: 'u' :: (second ++ rest)) =
      .ok (ofSurrogates leading trailing, rest) := by
    simp [scanTrailing, scanUnit_append isSecond, isTrailing]
  simp [scanEscape, scanUnit_append isFirst, not_isTrailing_of_isLeading isLeading, isLeading,
    paired]

theorem scanString_of_escape {before input after : List Char} {c : Char}
    (escaped : scanEscape input = .ok (c, after)) :
    scanString before ('\\' :: input) = scanString (c :: before) after := by
  rw [scanString]
  simp only [beq_iff_eq, Char.reduceEq, ↓reduceIte]
  split
  · next failed =>
      rw [escaped] at failed
      cases failed
  · next found =>
      rw [escaped] at found
      cases found
      rfl

theorem scanString_append {decoded text : List Char} (spelled : StringText decoded text)
    (before rest : List Char) :
    scanString before (text ++ '"' :: rest) =
      .ok (String.ofList (before.reverse ++ decoded), rest) := by
  induction spelled generalizing before with
  | nil => simp [scanString]
  | plain noQuote noEscape noControl _ induction =>
      rw [List.cons_append, scanString]
      simp [noQuote, noEscape, Nat.not_lt.mpr noControl, induction]
  | short known _ induction =>
      rw [List.cons_append, List.cons_append,
        scanString_of_escape (scanEscape_of_short known _), induction]
      simp
  | unit isUnit notTrailing notLeading _ induction =>
      have escaped := scanEscape_of_unit isUnit notTrailing notLeading
      simp only [List.cons_append, List.append_assoc] at escaped ⊢
      rw [scanString_of_escape (escaped _), induction]
      simp
  | pair isFirst isLeading isSecond isTrailing _ induction =>
      have escaped := scanEscape_of_pair isFirst isLeading isSecond isTrailing
      simp only [List.cons_append, List.append_assoc] at escaped ⊢
      rw [scanString_of_escape (escaped _), induction]
      simp

/-! ## Strings that are read are written -/

theorem unitText_of_scanUnit {unit : Nat} (scanned : scanUnit input = .ok (unit, rest)) :
    ∃ digits, input = digits ++ rest ∧ UnitText unit digits := by
  unfold scanUnit at scanned
  split at scanned
  · split at scanned
    · next first second third fourth =>
        cases scanned
        exact ⟨_, rfl, .intro first second third fourth⟩
    · cases scanned
  · split at scanned <;> cases scanned

theorem trailing_of_scanTrailing {leading : Nat} {c : Char}
    (scanned : scanTrailing leading input = .ok (c, rest)) :
    ∃ trailing digits, input = '\\' :: 'u' :: (digits ++ rest) ∧ UnitText trailing digits ∧
      isTrailingSurrogate trailing = true ∧ c = ofSurrogates leading trailing := by
  unfold scanTrailing at scanned
  split at scanned
  · cases scanned
  · cases scanned
  · split at scanned
    · cases scanned
    · next unit =>
        obtain ⟨digits, rfl, isUnit⟩ := unitText_of_scanUnit unit
        split at scanned
        · next isTrailing =>
            simp only [Except.ok.injEq, Prod.mk.injEq] at scanned
            obtain ⟨rfl, rfl⟩ := scanned
            exact ⟨_, digits, rfl, isUnit, isTrailing, rfl⟩
        · cases scanned
  · cases scanned

theorem stringText_of_scanEscape {c : Char} (scanned : scanEscape input = .ok (c, rest)) :
    ∃ own, input = own ++ rest ∧ ∀ decoded text, StringText decoded text →
      StringText (c :: decoded) ('\\' :: (own ++ text)) := by
  unfold scanEscape at scanned
  split at scanned
  · cases scanned
  · split at scanned
    · cases scanned
    · next unit =>
        obtain ⟨digits, rfl, isUnit⟩ := unitText_of_scanUnit unit
        split at scanned
        · cases scanned
        · next notTrailing =>
            split at scanned
            · next isLeading =>
                obtain ⟨trailing, second, rfl, isSecond, isTrailing, same⟩ :=
                  trailing_of_scanTrailing scanned
                refine ⟨'u' :: digits ++ '\\' :: 'u' :: second, by simp, fun _ _ later => ?_⟩
                rw [same]
                have pair := StringText.pair isUnit isLeading isSecond isTrailing later
                simpa only [List.cons_append, List.append_assoc] using pair
            · next notLeading =>
                cases scanned
                refine ⟨'u' :: digits, rfl, fun _ _ later => ?_⟩
                exact .unit isUnit (by simpa using notTrailing) (by simpa using notLeading) later
  · next escape _ _ =>
      split at scanned
      · next known =>
          cases scanned
          exact ⟨[escape], rfl, fun _ _ later => .short known later⟩
      · cases scanned

theorem stringText_of_scanString {before : List Char}
    (scanned : scanString before input = .ok (value, rest)) :
    ∃ decoded text, input = text ++ '"' :: rest ∧
      value = String.ofList (before.reverse ++ decoded) ∧ StringText decoded text := by
  fun_induction scanString before input with
  | case1 => cases scanned
  | case2 before c tail quote =>
      cases scanned
      exact ⟨[], [], by simpa using quote, by simp, .nil⟩
  | case3 => cases scanned
  | case4 before c tail _ escape escaped after found induction =>
      obtain ⟨decoded, text, rfl, rfl, later⟩ := induction scanned
      obtain ⟨own, rfl, spelled⟩ := stringText_of_scanEscape found
      have isEscape : c = '\\' := by simpa using escape
      exact ⟨_, _, by simp [isEscape], by simp, spelled _ _ later⟩
  | case5 => cases scanned
  | case6 before c tail noQuote noEscape noControl induction =>
      obtain ⟨decoded, text, rfl, rfl, later⟩ := induction scanned
      exact ⟨_, _, rfl, by simp, .plain (by simpa using noQuote) (by simpa using noEscape)
        (by simpa using noControl) later⟩

/-! ## Strings that are read are passed over -/

theorem passString_of_escape {after : List Char} (passed : passEscape input = .ok after) :
    passString ('\\' :: input) = passString after := by
  rw [passString]
  simp only [beq_iff_eq, Char.reduceEq, ↓reduceIte]
  split
  · next failed =>
      rw [passed] at failed
      cases failed
  · next found =>
      rw [passed] at found
      cases found
      rfl

theorem passEscape_of_scanUnit {unit : Nat} (scanned : scanUnit input = .ok (unit, rest)) :
    passEscape ('u' :: input) = .ok rest := by
  change Prod.snd <$> scanUnit input = _
  rw [scanned]
  rfl

/-- The halves of a surrogate pair are passed over one after the other. -/
theorem passString_of_scanEscape {c : Char} (scanned : scanEscape input = .ok (c, rest)) :
    passString ('\\' :: input) = passString rest := by
  unfold scanEscape at scanned
  split at scanned
  · cases scanned
  · split at scanned
    · cases scanned
    · next unit =>
        rw [passString_of_escape (passEscape_of_scanUnit unit)]
        split at scanned
        · cases scanned
        · split at scanned
          · obtain ⟨trailing, second, rfl, isSecond, _, _⟩ := trailing_of_scanTrailing scanned
            exact passString_of_escape (passEscape_of_scanUnit (scanUnit_append isSecond rest))
          · cases scanned
            rfl
  · next noUnit =>
      split at scanned
      · next known =>
          cases scanned
          refine passString_of_escape ?_
          simp [passEscape, known]
      · cases scanned

theorem passString_of_scanString {before : List Char}
    (scanned : scanString before input = .ok (value, rest)) : passString input = .ok rest := by
  fun_induction scanString before input with
  | case1 => cases scanned
  | case2 before c tail quote =>
      cases scanned
      rw [passString, if_pos quote]
  | case3 => cases scanned
  | case4 before c tail _ escape escaped after found induction =>
      have isEscape : c = '\\' := by simpa using escape
      rw [isEscape, passString_of_scanEscape found]
      exact induction scanned
  | case5 => cases scanned
  | case6 before c tail noQuote noEscape noControl induction =>
      rw [passString, if_neg noQuote, if_neg noEscape, if_neg noControl]
      exact induction scanned

end LensPath.Json
