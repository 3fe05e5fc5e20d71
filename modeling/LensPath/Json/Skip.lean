import LensPath.Json.Scan

/-!
Passing over a value that nothing is wanted of. The value has to be JSON, but its strings may
hold halves of surrogate pairs and its numbers may be of any size, and it may be nested to any
depth: the brackets still open are kept in a list.
-/

namespace LensPath.Json

open Text (isDigit)

/-! ## Numbers and strings that are passed over -/

def passExponent (input : List Char) : Except Error (List Char) :=
  let digits := scanDigits (scanSign input).2
  if digits.1.isEmpty then .error .invalidNumber else .ok digits.2

def passScaled : List Char → Except Error (List Char)
  | 'e' :: rest | 'E' :: rest => passExponent rest
  | rest => .ok rest

def passAfterWhole : List Char → Except Error (List Char)
  | '.' :: rest =>
      let digits := scanDigits rest
      if digits.1.isEmpty then .error .invalidNumber else passScaled digits.2
  | rest => passScaled rest

def passNumber : List Char → Except Error (List Char)
  | '0' :: rest =>
      if (scanDigits rest).1.isEmpty then passAfterWhole rest else .error .invalidNumber
  | input =>
      let digits := scanDigits input
      if digits.1.isEmpty then .error .invalidNumber else passAfterWhole digits.2

def passEscape : List Char → Except Error (List Char)
  | [] => .error .endInString
  | 'u' :: rest => Prod.snd <$> scanUnit rest
  | c :: rest => if (shortEscape? c).isSome then .ok rest else .error .invalidEscape

theorem passExponent_length_le {input rest : List Char} (passed : passExponent input = .ok rest) :
    rest.length ≤ input.length := by
  simp only [passExponent] at passed
  have sign := scanSign_length_le input
  have digits := scanDigits_length_le (scanSign input).2
  split at passed <;> cases passed
  omega

theorem passScaled_length_le {input rest : List Char} (passed : passScaled input = .ok rest) :
    rest.length ≤ input.length := by
  unfold passScaled at passed
  split at passed
  · exact Nat.le_succ_of_le (passExponent_length_le passed)
  · exact Nat.le_succ_of_le (passExponent_length_le passed)
  · cases passed
    exact Nat.le_refl _

theorem passAfterWhole_length_le {input rest : List Char}
    (passed : passAfterWhole input = .ok rest) : rest.length ≤ input.length := by
  unfold passAfterWhole at passed
  split at passed
  · next tail =>
      simp only at passed
      have digits := scanDigits_length_le tail
      split at passed
      · cases passed
      · have := passScaled_length_le passed
        simp only [List.length_cons]
        omega
  · exact passScaled_length_le passed

theorem passNumber_length_lt {input rest : List Char} (passed : passNumber input = .ok rest) :
    rest.length < input.length := by
  unfold passNumber at passed
  split at passed
  · split at passed
    · exact Nat.lt_succ_of_le (passAfterWhole_length_le passed)
    · cases passed
  · simp only at passed
    have digits := scanDigits_length input
    split at passed
    · cases passed
    · next found =>
        have := passAfterWhole_length_le passed
        have : (scanDigits input).1.length ≠ 0 := by
          simpa [List.isEmpty_iff, List.length_eq_zero_iff] using found
        omega

theorem passEscape_length_le {input rest : List Char} (passed : passEscape input = .ok rest) :
    rest.length ≤ input.length := by
  unfold passEscape at passed
  split at passed
  · cases passed
  · next tail =>
      cases scanned : scanUnit tail with
      | error error => rw [scanned] at passed; cases passed
      | ok result =>
          rw [scanned] at passed
          cases passed
          exact Nat.le_succ_of_le (scanUnit_length_le scanned)
  · split at passed <;> cases passed
    simp

def passString (input : List Char) : Except Error (List Char) :=
  match input with
  | [] => .error .endInString
  | c :: rest =>
      if c == '"' then .ok rest
      else if c == '\\' then
        match _ : passEscape rest with
        | .error error => .error error
        | .ok after => passString after
      else if c.toNat < 0x20 then .error .controlCharacter
      else passString rest
termination_by input.length
decreasing_by
  · next passed =>
      have := passEscape_length_le passed
      simp only [List.length_cons]
      omega
  · simp

theorem passString_length_le {input rest : List Char} (passed : passString input = .ok rest) :
    rest.length ≤ input.length := by
  fun_induction passString input with
  | case1 => cases passed
  | case2 => cases passed; simp
  | case3 => cases passed
  | case4 c tail _ _ after escape induction =>
      have := passEscape_length_le escape
      have := induction passed
      simp only [List.length_cons]
      omega
  | case5 => cases passed
  | case6 c tail _ _ _ induction => exact Nat.le_succ_of_le (induction passed)

def passScalar : List Char → Except Error (List Char)
  | 'n' :: rest => Prod.snd <$> scanWord ['u', 'l', 'l'] rest
  | 't' :: rest => Prod.snd <$> scanWord ['r', 'u', 'e'] rest
  | 'f' :: rest => Prod.snd <$> scanWord ['a', 'l', 's', 'e'] rest
  | '-' :: rest => passNumber rest
  | '"' :: rest => passString rest
  | c :: rest => if isDigit c then passNumber (c :: rest) else .error .expectedValue
  | [] => .error .endInValue

theorem snd_map_scanWord_length_le {word input rest : List Char}
    (passed : (Prod.snd <$> scanWord word input : Except Error (List Char)) = .ok rest) :
    rest.length ≤ input.length := by
  cases scanned : scanWord word input with
  | error error => rw [scanned] at passed; cases passed
  | ok result =>
      rw [scanned] at passed
      cases passed
      exact scanWord_length_le scanned

theorem passScalar_length_lt {input rest : List Char} (passed : passScalar input = .ok rest) :
    rest.length < input.length := by
  unfold passScalar at passed
  split at passed
  · exact Nat.lt_succ_of_le (snd_map_scanWord_length_le passed)
  · exact Nat.lt_succ_of_le (snd_map_scanWord_length_le passed)
  · exact Nat.lt_succ_of_le (snd_map_scanWord_length_le passed)
  · exact Nat.lt_succ_of_lt (passNumber_length_lt passed)
  · exact Nat.lt_succ_of_le (passString_length_le passed)
  · split at passed
    · exact passNumber_length_lt passed
    · cases passed
  · cases passed

/-! ## Nested values -/

inductive Bracket
  | list
  | object
deriving DecidableEq, Repr

namespace Bracket

def closing : Bracket → Char
  | list => ']'
  | object => '}'

def cutShort : Bracket → Error
  | list => .endInList
  | object => .endInObject

def expectedComma : Bracket → Error
  | list => .expectedCommaOrBracket
  | object => .expectedCommaOrBrace

/-- The text after what stands before a value: nothing in a list, a key and a colon in an
object. -/
def passLead : Bracket → List Char → Except Error (List Char)
  | list, input => .ok input
  | object, input =>
      match skipSpace input with
      | [] => .error .endInObject
      | '"' :: rest =>
          match passString rest with
          | .error error => .error error
          | .ok after =>
              match skipSpace after with
              | [] => .error .endInObject
              | ':' :: rest => .ok rest
              | _ => .error .expectedColon
      | _ => .error .keyNotString

theorem passLead_length_le {bracket : Bracket} {input rest : List Char}
    (passed : bracket.passLead input = .ok rest) : rest.length ≤ input.length := by
  unfold passLead at passed
  split at passed
  · cases passed
    exact Nat.le_refl _
  · split at passed
    · cases passed
    · next key =>
        have before := length_lt_of_skipSpace key
        split at passed
        · cases passed
        · next name =>
            have named := passString_length_le name
            split at passed
            · cases passed
            · next colon =>
                have after := length_lt_of_skipSpace colon
                cases passed
                omega
            · cases passed
    · cases passed

end Bracket

/-- Where passing over a value stands: before a value, or inside a bracket, after an opening
bracket or after a value. -/
inductive SkipStage
  | value
  | inside (afterValue : Bool)
deriving DecidableEq, Repr

def SkipStage.weight : SkipStage → Nat
  | value => 0
  | inside _ => 1

/-- Passes over the rest of a value, given the brackets still open, the innermost first. -/
def skipFrom (stage : SkipStage) (enclosing : List Bracket) (input : List Char) :
    Except Error (List Char) :=
  match stage with
  | .value =>
      match _ : skipSpace input with
      | [] => .error .endInValue
      | c :: rest =>
          if c == '[' then skipFrom (.inside false) (.list :: enclosing) rest
          else if c == '{' then skipFrom (.inside false) (.object :: enclosing) rest
          else
            match _ : passScalar (c :: rest) with
            | .error error => .error error
            | .ok after => skipFrom (.inside true) enclosing after
  | .inside afterValue =>
      match enclosing with
      | [] => .ok input
      | bracket :: outer =>
          match _ : skipSpace input with
          | [] => .error bracket.cutShort
          | c :: rest =>
              if afterValue && c == ',' then
                match _ : bracket.passLead rest with
                | .error error => .error error
                | .ok after => skipFrom .value (bracket :: outer) after
              else if c == bracket.closing then skipFrom (.inside true) outer rest
              else if afterValue then .error bracket.expectedComma
              else
                match _ : bracket.passLead (c :: rest) with
                | .error error => .error error
                | .ok after => skipFrom .value (bracket :: outer) after
termination_by 2 * input.length + stage.weight
decreasing_by
  all_goals simp only [SkipStage.weight]
  · next skipped _ =>
      have := length_lt_of_skipSpace skipped
      omega
  · next skipped _ _ =>
      have := length_lt_of_skipSpace skipped
      omega
  · next skipped _ _ passed =>
      have := length_lt_of_skipSpace skipped
      have := passScalar_length_lt passed
      simp only [List.length_cons] at this
      omega
  · next skipped _ passed =>
      have := length_lt_of_skipSpace skipped
      have := Bracket.passLead_length_le passed
      omega
  · next skipped _ _ =>
      have := length_lt_of_skipSpace skipped
      omega
  · next skipped _ _ _ passed =>
      have := length_lt_of_skipSpace skipped
      have := Bracket.passLead_length_le passed
      simp only [List.length_cons] at this
      omega

theorem skipFrom_length_le {stage : SkipStage} {enclosing : List Bracket}
    {input rest : List Char} (skipped : skipFrom stage enclosing input = .ok rest) :
    rest.length ≤ input.length := by
  fun_induction skipFrom stage enclosing input with
  | case1 => cases skipped
  | case2 enclosing input c tail space _ induction =>
      have := length_lt_of_skipSpace space
      have := induction skipped
      omega
  | case3 enclosing input c tail space _ _ induction =>
      have := length_lt_of_skipSpace space
      have := induction skipped
      omega
  | case4 => cases skipped
  | case5 enclosing input c tail space _ _ after passed induction =>
      have := length_lt_of_skipSpace space
      have := passScalar_length_lt passed
      have := induction skipped
      simp only [List.length_cons] at *
      omega
  | case6 => cases skipped; exact Nat.le_refl _
  | case7 => cases skipped
  | case8 => cases skipped
  | case9 input afterValue bracket outer c tail space _ after passed induction =>
      have := length_lt_of_skipSpace space
      have := Bracket.passLead_length_le passed
      have := induction skipped
      omega
  | case10 input afterValue bracket outer c tail space _ _ induction =>
      have := length_lt_of_skipSpace space
      have := induction skipped
      omega
  | case11 => cases skipped
  | case12 => cases skipped
  | case13 input afterValue bracket outer c tail space _ _ _ after passed induction =>
      have := length_lt_of_skipSpace space
      have := Bracket.passLead_length_le passed
      have := induction skipped
      simp only [List.length_cons] at *
      omega

def skipValue (input : List Char) : Except Error (List Char) := skipFrom .value [] input

end LensPath.Json
