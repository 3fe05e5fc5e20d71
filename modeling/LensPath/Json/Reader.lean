import LensPath.Json.Skip

/-!
Readers of JSON values. A reader takes the text from where it stands and answers with a value and
the text after it, or with the first error in the order of the text. That the text does not get
longer is part of the answer, so that readers of lists and objects can be built from the reader
of what is in them.
-/

namespace LensPath.Json

open Text (isDigit)

structure Read (α : Type) (input : List Char) where
  value : α
  rest : List Char
  shrinks : rest.length ≤ input.length

def Reader (α : Type) : Type := (input : List Char) → Except Error (Read α input)

namespace Reader

instance : Monad Reader where
  pure value := fun input => .ok ⟨value, input, Nat.le_refl _⟩
  bind reader next := fun input =>
    match reader input with
    | .error error => .error error
    | .ok read =>
        match next read.value read.rest with
        | .error error => .error error
        | .ok last => .ok ⟨last.value, last.rest, Nat.le_trans last.shrinks read.shrinks⟩

def fail (error : Error) : Reader α := fun _ => .error error

def ofScan (scan : List Char → Scan α)
    (bounded : ∀ {input rest : List Char} {value : α},
      scan input = .ok (value, rest) → rest.length ≤ input.length) : Reader α := fun input =>
  match scanned : scan input with
  | .error error => .error error
  | .ok (value, rest) => .ok ⟨value, rest, bounded scanned⟩

def ofPass (pass : List Char → Except Error (List Char))
    (bounded : ∀ {input rest : List Char},
      pass input = .ok rest → rest.length ≤ input.length) : Reader Unit := fun input =>
  match passed : pass input with
  | .error error => .error error
  | .ok rest => .ok ⟨(), rest, bounded passed⟩

/-- The first character after white space, which is not taken from the text. -/
def peek (atEnd : Error) : Reader Char := fun input =>
  match skipped : skipSpace input with
  | [] => .error atEnd
  | c :: rest => .ok ⟨c, c :: rest, skipped ▸ skipSpace_length_le input⟩

def advance : Reader Unit := fun input => .ok ⟨(), input.tail, by simp⟩

def word (letters : List Char) : Reader Unit := ofScan (scanWord letters) scanWord_length_le

def number (isNegative : Bool) : Reader Numeral :=
  ofScan (scanNumber isNegative) scanNumber_length_le

def string : Reader String := ofScan (scanString []) scanString_length_le

def skip : Reader Unit := ofPass skipValue skipFrom_length_le

/-- What is found at the head of the text. Scalars are read to their end. -/
def found : Reader Found := do
  match ← peek .endInValue with
  | 'n' => advance; word ['u', 'l', 'l']; return .null
  | 't' => advance; word ['r', 'u', 'e']; return .flag true
  | 'f' => advance; word ['a', 'l', 's', 'e']; return .flag false
  | '-' => advance; return .number (← number true)
  | '"' => advance; return .text (← string)
  | '[' => return .list
  | '{' => return .object
  | c => if isDigit c then return .number (← number false) else fail .expectedValue

def mistyped (expected : String) : Reader α := do
  fail (.wrongType (← found) expected)

def text : Reader String := do
  match ← peek .endInValue with
  | '"' => advance; string
  | _ => mistyped "a string"

def flag : Reader Bool := do
  match ← peek .endInValue with
  | 't' => advance; word ['r', 'u', 'e']; return true
  | 'f' => advance; word ['a', 'l', 's', 'e']; return false
  | _ => mistyped "a boolean"

def null : Reader Unit := do
  match ← peek .endInValue with
  | 'n' => advance; word ['u', 'l', 'l']
  | _ => mistyped "unit"

end Reader

def Numeral.toOffset : Numeral → Except Error Nat
  | natural value => .ok value
  | negative magnitude => .error (.wrongValue (.number (negative magnitude)) "usize")
  | real isNegative magnitude => .error (.wrongType (.number (real isNegative magnitude)) "usize")

namespace Reader

def ofExcept : Except Error α → Reader α
  | .ok value => pure value
  | .error error => fail error

def offset : Reader Nat := do
  match ← peek .endInValue with
  | '-' => advance; ofExcept (← number true).toOffset
  | c => if isDigit c then ofExcept (← number false).toOffset else mistyped "usize"

def colon : Reader Unit := do
  match ← peek .endInObject with
  | ':' => advance
  | _ => fail .expectedColon

/-- Goes into a container, when there is room for one more. The bracket is taken. -/
def enter (room : Nat) (inside : Nat → Reader α) : Reader α :=
  match room with
  | 0 => fail .tooDeep
  | room + 1 => do advance; inside room

end Reader

/-! ## Lists -/

/-- Goes to the next item of a list, or behind the bracket that closes it. -/
def scanItem (first : Bool) (input : List Char) : Scan Bool :=
  match skipSpace input with
  | [] => .error .endInList
  | c :: rest =>
      if c == ']' then .ok (false, rest)
      else if first then .ok (true, c :: rest)
      else if c == ',' then
        match skipSpace rest with
        | [] => .error .endInValue
        | ']' :: _ => .error .trailingComma
        | _ => .ok (true, rest)
      else .error .expectedCommaOrBracket

theorem scanItem_length_le {first more : Bool} {input rest : List Char}
    (scanned : scanItem first input = .ok (more, rest)) :
    2 * rest.length + 1 ≤ 2 * input.length + first.toNat := by
  unfold scanItem at scanned
  split at scanned
  · cases scanned
  · next c tail space =>
      have shorter := length_lt_of_skipSpace space
      split at scanned
      · cases scanned; omega
      · split at scanned
        · next isFirst =>
            cases scanned
            have : first.toNat = 1 := by simp [isFirst]
            simp only [List.length_cons]
            omega
        · split at scanned
          · split at scanned
            · cases scanned
            · cases scanned
            · cases scanned; omega
          · cases scanned

def scanListEnd (input : List Char) : Scan Unit :=
  match skipSpace input with
  | [] => .error .endInList
  | ']' :: rest => .ok ((), rest)
  | ',' :: rest =>
      match skipSpace rest with
      | ']' :: _ => .error .trailingComma
      | _ => .error .trailingCharacters
  | _ => .error .trailingCharacters

theorem scanListEnd_length_le {input rest : List Char} {value : Unit}
    (scanned : scanListEnd input = .ok (value, rest)) : rest.length ≤ input.length := by
  unfold scanListEnd at scanned
  split at scanned
  · cases scanned
  · next space =>
      have := length_lt_of_skipSpace space
      cases scanned
      omega
  · split at scanned <;> cases scanned
  · cases scanned

def itemsFrom (item : Reader α) (first : Bool) (input : List Char) :
    Except Error (Read (List α) input) :=
  match _ : scanItem first input with
  | .error error => .error error
  | .ok (false, rest) =>
      .ok ⟨[], rest, by
        have := scanItem_length_le (by assumption)
        have := first.toNat_le
        omega⟩
  | .ok (true, rest) =>
      match item rest with
      | .error error => .error error
      | .ok read =>
          match itemsFrom item false read.rest with
          | .error error => .error error
          | .ok last =>
              .ok ⟨read.value :: last.value, last.rest, by
                have := scanItem_length_le (by assumption)
                have := first.toNat_le
                have := read.shrinks
                have := last.shrinks
                omega⟩
termination_by 2 * input.length + first.toNat
decreasing_by
  have := scanItem_length_le (by assumption)
  have := read.shrinks
  simp only [Bool.toNat_false]
  omega

namespace Reader

def items (item : Reader α) : Reader (List α) := itemsFrom item true

def nextItem (first : Bool) : Reader Bool := ofScan (scanItem first) fun scanned => by
  have := scanItem_length_le scanned
  have := first.toNat_le
  omega

def listEnd : Reader Unit := ofScan scanListEnd scanListEnd_length_le

end Reader

/-! ## Objects -/

def scanKey (first : Bool) (input : List Char) : Scan Bool :=
  match skipSpace input with
  | [] => .error .endInObject
  | c :: rest =>
      if c == '}' then .ok (false, rest)
      else if first then
        if c == '"' then .ok (true, rest) else .error .keyNotString
      else if c == ',' then
        match skipSpace rest with
        | [] => .error .endInValue
        | '"' :: key => .ok (true, key)
        | '}' :: _ => .error .trailingComma
        | _ => .error .keyNotString
      else .error .expectedCommaOrBrace

theorem scanKey_length_lt {first more : Bool} {input rest : List Char}
    (scanned : scanKey first input = .ok (more, rest)) : rest.length < input.length := by
  unfold scanKey at scanned
  split at scanned
  · cases scanned
  · next c tail space =>
      have shorter := length_lt_of_skipSpace space
      split at scanned
      · cases scanned; exact shorter
      · split at scanned
        · split at scanned
          · cases scanned; exact shorter
          · cases scanned
        · split at scanned
          · split at scanned
            · cases scanned
            · next quote =>
                have := length_lt_of_skipSpace quote
                cases scanned
                omega
            · cases scanned
            · cases scanned
          · cases scanned

/-- The members of an object from some place in it on. Each key is handed on with the state so
far, and what is read after the key makes the next state. -/
def membersFrom (member : String → σ → Reader σ) (first : Bool) (state : σ)
    (input : List Char) : Except Error (Read σ input) :=
  match _ : scanKey first input with
  | .error error => .error error
  | .ok (false, rest) =>
      .ok ⟨state, rest, Nat.le_of_lt (scanKey_length_lt (by assumption))⟩
  | .ok (true, rest) =>
      match Reader.string rest with
      | .error error => .error error
      | .ok key =>
          match member key.value state key.rest with
          | .error error => .error error
          | .ok read =>
              match membersFrom member false read.value read.rest with
              | .error error => .error error
              | .ok last =>
                  .ok ⟨last.value, last.rest, by
                    have := scanKey_length_lt (by assumption)
                    have := key.shrinks
                    have := read.shrinks
                    have := last.shrinks
                    omega⟩
termination_by input.length
decreasing_by
  have := scanKey_length_lt (by assumption)
  have := key.shrinks
  have := read.shrinks
  omega

def Reader.members (member : String → σ → Reader σ) (state : σ) : Reader σ :=
  membersFrom member true state

end LensPath.Json
