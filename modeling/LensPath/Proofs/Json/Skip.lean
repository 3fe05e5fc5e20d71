import LensPath.Proofs.Json.Value

/-!
Passing over a value: the text is passed over as far as the value is read.
-/

namespace LensPath.Json

variable {room : Nat} {input start rest after : List Char} {value : Value}
variable {bracket : Bracket} {enclosing : List Bracket} {c : Char}

/-! ## Steps -/

theorem skipFrom_value (head : skipSpace input = c :: start) :
    skipFrom .value enclosing input =
      if c == '[' then skipFrom (.inside false) (.list :: enclosing) start
      else if c == '{' then skipFrom (.inside false) (.object :: enclosing) start
      else passScalar (c :: start) >>= skipFrom (.inside true) enclosing := by
  conv_lhs => rw [skipFrom]
  split
  · next ended =>
      rw [head] at ended
      cases ended
  · next same =>
      rw [head] at same
      cases same
      congr 2
      split
      · next failed => rw [failed]; rfl
      · next passed => rw [passed]; rfl

theorem skipFrom_inside {afterValue : Bool} (head : skipSpace input = c :: start) :
    skipFrom (.inside afterValue) (bracket :: enclosing) input =
      if afterValue && c == ',' then
        bracket.passLead start >>= skipFrom .value (bracket :: enclosing)
      else if c == bracket.closing then skipFrom (.inside true) enclosing start
      else if afterValue then .error bracket.expectedComma
      else bracket.passLead (c :: start) >>= skipFrom .value (bracket :: enclosing) := by
  conv_lhs => rw [skipFrom]
  split
  · next ended =>
      rw [head] at ended
      cases ended
  · next same =>
      rw [head] at same
      cases same
      congr 1
      · split
        · next failed => rw [failed]; rfl
        · next passed => rw [passed]; rfl
      · congr 2
        split
        · next failed => rw [failed]; rfl
        · next passed => rw [passed]; rfl

theorem skipFrom_scalar (head : skipSpace input = c :: start) (noList : c ≠ '[')
    (noObject : c ≠ '{') (passed : passScalar (c :: start) = .ok rest) :
    skipFrom .value enclosing input = skipFrom (.inside true) enclosing rest := by
  rw [skipFrom_value head, if_neg (by simpa using noList), if_neg (by simpa using noObject), passed]
  rfl

theorem skipFrom_closing {afterValue : Bool} (head : skipSpace input = bracket.closing :: rest) :
    skipFrom (.inside afterValue) (bracket :: enclosing) input =
      skipFrom (.inside true) enclosing rest := by
  have noComma : bracket.closing ≠ ',' := by cases bracket <;> decide
  rw [skipFrom_inside head, if_neg (by simp [noComma]), if_pos (by simp)]

theorem skipFrom_comma (head : skipSpace input = ',' :: start)
    (lead : bracket.passLead start = .ok after) :
    skipFrom (.inside true) (bracket :: enclosing) input =
      skipFrom .value (bracket :: enclosing) after := by
  rw [skipFrom_inside head, if_pos (by simp), lead]
  rfl

theorem skipFrom_first (head : skipSpace input = c :: start) (noEnd : c ≠ bracket.closing)
    (lead : bracket.passLead (c :: start) = .ok after) :
    skipFrom (.inside false) (bracket :: enclosing) input =
      skipFrom .value (bracket :: enclosing) after := by
  rw [skipFrom_inside head, if_neg (by simp), if_neg (by simpa using noEnd), if_neg (by simp), lead]
  rfl

/-! ## Lists and objects -/

theorem passLead_object {key : String} {behind before : List Char}
    (quoted : skipSpace input = '"' :: start) (named : scanString [] start = .ok (key, behind))
    (colon : skipSpace behind = ':' :: before) : Bracket.object.passLead input = .ok before := by
  simp [Bracket.passLead, quoted, passString_of_scanString named, colon]

section

variable {place : List Char → Value → List Char → Prop}

theorem skipFrom_of_itemsAt {first : Bool} {items : List Value}
    (list : ItemsAt place first input items rest)
    (each : ∀ item ∈ items, ∀ enclosing start after, place start item after →
      skipFrom .value enclosing start = skipFrom (.inside true) enclosing after) :
    skipFrom (.inside !first) (.list :: enclosing) input =
      skipFrom (.inside true) enclosing rest := by
  induction list with
  | finish closed => exact skipFrom_closing (head_of_closed closed)
  | @item first _ _ _ _ item items opened found _ induction =>
      have passed := each item (by simp) (.list :: enclosing) _ _ found
      have later := induction fun item member => each item (by simp [member])
      rw [Bool.not_false, ← passed] at later
      rw [← later]
      cases first with
      | false => exact skipFrom_comma (head_of_comma opened) rfl
      | true =>
          obtain ⟨c, tail, rfl, head, noEnd⟩ := head_of_opened opened
          exact skipFrom_first head noEnd rfl

theorem skipFrom_of_membersAt {first : Bool} {members : List (String × Value)}
    (object : MembersAt place first input members rest)
    (each : ∀ entry ∈ members, ∀ enclosing start after, place start entry.2 after →
      skipFrom .value enclosing start = skipFrom (.inside true) enclosing after) :
    skipFrom (.inside !first) (.object :: enclosing) input =
      skipFrom (.inside true) enclosing rest := by
  induction object with
  | finish closed => exact skipFrom_closing (head_of_keyClosed closed)
  | @member first _ _ _ _ _ _ key value members opened named colon found _ induction =>
      have passed := each (key, value) (by simp) (.object :: enclosing) _ _ found
      have later := induction fun item member => each item (by simp [member])
      rw [Bool.not_false, ← passed] at later
      rw [← later]
      cases first with
      | false =>
          obtain ⟨behind, comma, quoted⟩ := head_of_laterKey opened
          exact skipFrom_comma comma (passLead_object quoted named colon)
      | true =>
          have quoted := head_of_key opened
          exact skipFrom_first quoted (by decide)
            (passLead_object (skipSpace_cons (by decide) _) named colon)

end

/-! ## Values -/

theorem passWord {word : List Char} (scanned : scanWord word input = .ok ((), rest)) :
    (Prod.snd <$> scanWord word input : Except Error (List Char)) = .ok rest := by
  rw [scanned]
  rfl

theorem passScalar_of_digit (isDigit : Text.isDigit c = true) :
    passScalar (c :: start) = passNumber (c :: start) := by
  unfold passScalar
  split
  case h_6 same =>
    cases same
    rw [if_pos isDigit]
  case h_7 same => cases same
  all_goals
    next same =>
      cases same
      cases isDigit

theorem skipFrom_of_valueAt (found : ValueAt room input value rest) :
    skipFrom .value enclosing input = skipFrom (.inside true) enclosing rest := by
  induction value generalizing room input rest enclosing with
  | null =>
      cases found with
      | null head word => exact skipFrom_scalar head (by decide) (by decide) (passWord word)
  | flag value =>
      cases found with
      | true head word | false head word =>
          exact skipFrom_scalar head (by decide) (by decide) (passWord word)
  | number numeral =>
      cases found with
      | negative head number =>
          exact skipFrom_scalar head (by decide) (by decide) (passNumber_of_scanNumber number)
      | natural head isDigit number =>
          refine skipFrom_scalar head ?_ ?_ ?_
          · rintro rfl
            cases isDigit
          · rintro rfl
            cases isDigit
          · rw [passScalar_of_digit isDigit]
            exact passNumber_of_scanNumber number
  | text string =>
      cases found with
      | text head scanned =>
          exact skipFrom_scalar head (by decide) (by decide) (passString_of_scanString scanned)
  | list items induction =>
      cases found with
      | list head list =>
          rw [skipFrom_value head, if_pos (by decide)]
          exact skipFrom_of_itemsAt list fun item member _ _ _ found =>
            induction item member (valueAt_of_run? found)
  | object members induction =>
      cases found with
      | object head object =>
          rw [skipFrom_value head, if_neg (by decide), if_pos (by decide)]
          exact skipFrom_of_membersAt object fun entry member _ _ _ found =>
            induction entry member (valueAt_of_run? found)

theorem run?_skip_of_read (read : (Value.read room).run? input = some (value, rest)) :
    Reader.skip.run? input = some ((), rest) := by
  rw [Reader.run?_skip, skipValue, skipFrom_of_valueAt (valueAt_of_run? read), skipFrom]
  rfl

end LensPath.Json
