import LensPath.Json.Error
import LensPath.Text.Cut
import LensPath.Text.Basic

/-!
The leaves of JSON texts: blanks, words, numbers and strings. A scan takes the text from where
it stands and answers with what it found and the text after it; it never makes the text longer.
-/

namespace LensPath.Json

open Text (isDigit digitValue hexValue?)

abbrev Scan (α : Type) := Except Error (α × List Char)

def isSpace (c : Char) : Bool := c == ' ' || c == '\t' || c == '\n' || c == '\r'

def skipSpace (input : List Char) : List Char := input.dropWhile isSpace

theorem skipSpace_length_le (input : List Char) : (skipSpace input).length ≤ input.length :=
  (List.dropWhile_sublist isSpace).length_le

theorem length_lt_of_skipSpace {input rest : List Char} {c : Char}
    (skipped : skipSpace input = c :: rest) : rest.length < input.length := by
  have bounded := skipSpace_length_le input
  rw [skipped] at bounded
  exact bounded

def scanWord : List Char → List Char → Scan Unit
  | [], input => .ok ((), input)
  | _ :: _, [] => .error .endInValue
  | expected :: word, c :: rest =>
      if c == expected then scanWord word rest else .error .misspelledWord

theorem scanWord_length_le {word input rest : List Char} {value : Unit}
    (scanned : scanWord word input = .ok (value, rest)) : rest.length ≤ input.length := by
  induction word generalizing input with
  | nil => cases scanned; exact Nat.le_refl _
  | cons expected word induction =>
      cases input with
      | nil => cases scanned
      | cons c tail =>
          unfold scanWord at scanned
          split at scanned
          · exact Nat.le_succ_of_le (induction scanned)
          · cases scanned

/-! ## Numbers -/

def scanDigits (input : List Char) : List Char × List Char :=
  (input.takeWhile isDigit, input.dropWhile isDigit)

/-- Appends digits to a significand as long as it fits into 64 bits, and counts the digits that
are left out from the first that does not fit. -/
def appendDigits (significand : Nat) : List Char → Nat × Nat
  | [] => (significand, 0)
  | digit :: rest =>
      let extended := significand * 10 + digitValue digit
      if extended < offsetBound then appendDigits extended rest
      else (significand, rest.length + 1)

def scaled (isNegative : Bool) (significand : Nat) (exponent : Int) (rest : List Char) :
    Scan Numeral :=
  match Decimal.Binary64.ofScientific significand exponent with
  | some magnitude => .ok (.real isNegative magnitude, rest)
  | none => .error .numberOutOfRange

def scanSign : List Char → Bool × List Char
  | '+' :: rest => (false, rest)
  | '-' :: rest => (true, rest)
  | rest => (false, rest)

def scanExponent (isNegative : Bool) (significand : Nat) (exponent : Int) (input : List Char) :
    Scan Numeral :=
  let sign := scanSign input
  let digits := scanDigits sign.2
  match digits.1 with
  | [] => if sign.2.isEmpty then .error .endInValue else .error .invalidNumber
  | _ :: _ =>
      let value : Int := Text.ofDigits digits.1
      scaled isNegative significand (if sign.1 then exponent - value else exponent + value)
        digits.2

def scanScaled (isNegative : Bool) (significand : Nat) (exponent : Int) (input : List Char) :
    Scan Numeral :=
  match input with
  | 'e' :: rest | 'E' :: rest => scanExponent isNegative significand exponent rest
  | rest => scaled isNegative significand exponent rest

def scanFraction (isNegative : Bool) (significand : Nat) (exponent : Int) (input : List Char) :
    Scan Numeral :=
  let digits := scanDigits input
  match digits.1 with
  | [] => if input.isEmpty then .error .endInValue else .error .invalidNumber
  | _ :: _ =>
      let extended := appendDigits significand digits.1
      scanScaled isNegative extended.1 (exponent - (digits.1.length - extended.2 : Nat)) digits.2

/-- What may follow the whole part of a number; `dropped` digits of it did not fit. -/
def scanAfterWhole (isNegative : Bool) (significand dropped : Nat) (input : List Char) :
    Scan Numeral :=
  match input with
  | '.' :: rest => scanFraction isNegative significand dropped rest
  | rest =>
      match rest with
      | 'e' :: _ | 'E' :: _ => scanScaled isNegative significand dropped rest
      | _ =>
          if dropped == 0 then .ok (.ofWhole isNegative significand, rest)
          else scaled isNegative significand dropped rest

def scanNumber (isNegative : Bool) (input : List Char) : Scan Numeral :=
  match input with
  | [] => .error .endInValue
  | '0' :: rest =>
      if (scanDigits rest).1.isEmpty then scanAfterWhole isNegative 0 0 rest
      else .error .invalidNumber
  | _ :: _ =>
      let digits := scanDigits input
      match digits.1 with
      | [] => .error .invalidNumber
      | _ :: _ =>
          let whole := appendDigits 0 digits.1
          scanAfterWhole isNegative whole.1 whole.2 digits.2

theorem scanDigits_length (input : List Char) :
    (scanDigits input).1.length + (scanDigits input).2.length = input.length := by
  rw [← List.length_append]
  exact congrArg List.length List.takeWhile_append_dropWhile

theorem scanDigits_length_le (input : List Char) :
    (scanDigits input).2.length ≤ input.length :=
  (List.dropWhile_sublist isDigit).length_le

theorem scanSign_length_le (input : List Char) : (scanSign input).2.length ≤ input.length := by
  unfold scanSign
  split <;> simp

theorem scaled_length_le {isNegative : Bool} {significand : Nat} {exponent : Int}
    {input rest : List Char} {value : Numeral}
    (scanned : scaled isNegative significand exponent input = .ok (value, rest)) :
    rest.length ≤ input.length := by
  unfold scaled at scanned
  split at scanned <;> cases scanned
  exact Nat.le_refl _

theorem scanExponent_length_le {isNegative : Bool} {significand : Nat} {exponent : Int}
    {input rest : List Char} {value : Numeral}
    (scanned : scanExponent isNegative significand exponent input = .ok (value, rest)) :
    rest.length ≤ input.length := by
  simp only [scanExponent] at scanned
  have sign := scanSign_length_le input
  have digits := scanDigits_length_le (scanSign input).2
  split at scanned
  · split at scanned <;> cases scanned
  · have := scaled_length_le scanned
    omega

theorem scanScaled_length_le {isNegative : Bool} {significand : Nat} {exponent : Int}
    {input rest : List Char} {value : Numeral}
    (scanned : scanScaled isNegative significand exponent input = .ok (value, rest)) :
    rest.length ≤ input.length := by
  unfold scanScaled at scanned
  split at scanned
  · exact Nat.le_succ_of_le (scanExponent_length_le scanned)
  · exact Nat.le_succ_of_le (scanExponent_length_le scanned)
  · exact scaled_length_le scanned

theorem scanFraction_length_le {isNegative : Bool} {significand : Nat} {exponent : Int}
    {input rest : List Char} {value : Numeral}
    (scanned : scanFraction isNegative significand exponent input = .ok (value, rest)) :
    rest.length ≤ input.length := by
  simp only [scanFraction] at scanned
  have digits := scanDigits_length_le input
  split at scanned
  · split at scanned <;> cases scanned
  · have := scanScaled_length_le scanned
    omega

theorem scanAfterWhole_length_le {isNegative : Bool} {significand dropped : Nat}
    {input rest : List Char} {value : Numeral}
    (scanned : scanAfterWhole isNegative significand dropped input = .ok (value, rest)) :
    rest.length ≤ input.length := by
  unfold scanAfterWhole at scanned
  split at scanned
  · exact Nat.le_succ_of_le (scanFraction_length_le scanned)
  · split at scanned
    · exact scanScaled_length_le scanned
    · exact scanScaled_length_le scanned
    · split at scanned
      · cases scanned
        exact Nat.le_refl _
      · exact scaled_length_le scanned

theorem scanNumber_length_le {isNegative : Bool} {input rest : List Char} {value : Numeral}
    (scanned : scanNumber isNegative input = .ok (value, rest)) :
    rest.length ≤ input.length := by
  unfold scanNumber at scanned
  split at scanned
  · cases scanned
  · split at scanned
    · exact Nat.le_succ_of_le (scanAfterWhole_length_le scanned)
    · cases scanned
  · next c tail _ =>
      simp only at scanned
      have digits := scanDigits_length_le (c :: tail)
      split at scanned
      · cases scanned
      · have := scanAfterWhole_length_le scanned
        omega

/-! ## Strings -/

/-- Four hexadecimal digits. Less than four bytes of text are too few of them. -/
def scanUnit : List Char → Scan Nat
  | a :: b :: c :: d :: rest =>
      match hexValue? a, hexValue? b, hexValue? c, hexValue? d with
      | some a, some b, some c, some d => .ok (((a * 16 + b) * 16 + c) * 16 + d, rest)
      | _, _, _, _ => .error .invalidEscape
  | short => if Text.byteLength short < 4 then .error .endInString else .error .invalidEscape

def isLeadingSurrogate (unit : Nat) : Bool := 0xD800 ≤ unit && unit ≤ 0xDBFF

def isTrailingSurrogate (unit : Nat) : Bool := 0xDC00 ≤ unit && unit ≤ 0xDFFF

def ofSurrogates (leading trailing : Nat) : Char :=
  .ofNat ((leading - 0xD800) * 0x400 + (trailing - 0xDC00) + 0x10000)

def scanTrailing (leading : Nat) : List Char → Scan Char
  | [] => .error .endInString
  | ['\\'] => .error .endInString
  | '\\' :: 'u' :: rest =>
      match scanUnit rest with
      | .error error => .error error
      | .ok (trailing, rest) =>
          if isTrailingSurrogate trailing then .ok (ofSurrogates leading trailing, rest)
          else .error .loneSurrogate
  | _ => .error .unpairedSurrogate

def shortEscape? : Char → Option Char
  | '"' => some '"'
  | '\\' => some '\\'
  | '/' => some '/'
  | 'b' => some '\x08'
  | 'f' => some '\x0c'
  | 'n' => some '\n'
  | 'r' => some '\r'
  | 't' => some '\t'
  | _ => none

def scanEscape : List Char → Scan Char
  | [] => .error .endInString
  | 'u' :: rest =>
      match scanUnit rest with
      | .error error => .error error
      | .ok (unit, rest) =>
          if isTrailingSurrogate unit then .error .loneSurrogate
          else if isLeadingSurrogate unit then scanTrailing unit rest
          else .ok (.ofNat unit, rest)
  | c :: rest =>
      match shortEscape? c with
      | some decoded => .ok (decoded, rest)
      | none => .error .invalidEscape

theorem scanUnit_length_le {input rest : List Char} {unit : Nat}
    (scanned : scanUnit input = .ok (unit, rest)) : rest.length ≤ input.length := by
  unfold scanUnit at scanned
  split at scanned
  · split at scanned <;> cases scanned
    simp only [List.length_cons]
    omega
  · split at scanned <;> cases scanned

theorem scanTrailing_length_le {leading : Nat} {input rest : List Char} {decoded : Char}
    (scanned : scanTrailing leading input = .ok (decoded, rest)) :
    rest.length ≤ input.length := by
  unfold scanTrailing at scanned
  split at scanned
  · cases scanned
  · cases scanned
  · split at scanned
    · cases scanned
    · next unit =>
        have := scanUnit_length_le unit
        simp only [List.length_cons]
        split at scanned
        · simp only [Except.ok.injEq, Prod.mk.injEq] at scanned
          obtain ⟨_, rfl⟩ := scanned
          omega
        · cases scanned
  · cases scanned

theorem scanEscape_length_le {input rest : List Char} {decoded : Char}
    (scanned : scanEscape input = .ok (decoded, rest)) : rest.length ≤ input.length := by
  unfold scanEscape at scanned
  split at scanned
  · cases scanned
  · split at scanned
    · cases scanned
    · next unit =>
        have bounded := scanUnit_length_le unit
        simp only [List.length_cons]
        split at scanned
        · cases scanned
        · split at scanned
          · have := scanTrailing_length_le scanned
            omega
          · cases scanned
            omega
  · split at scanned <;> cases scanned
    simp

/-- A string after its opening quote; `decoded` holds the characters so far, the last first. -/
def scanString (decoded : List Char) (input : List Char) : Scan String :=
  match input with
  | [] => .error .endInString
  | c :: rest =>
      if c == '"' then .ok (String.ofList decoded.reverse, rest)
      else if c == '\\' then
        match _ : scanEscape rest with
        | .error error => .error error
        | .ok (escaped, after) => scanString (escaped :: decoded) after
      else if c.toNat < 0x20 then .error .controlCharacter
      else scanString (c :: decoded) rest
termination_by input.length
decreasing_by
  · next scanned =>
      have := scanEscape_length_le scanned
      simp only [List.length_cons]
      omega
  · simp

theorem scanString_length_le {decoded input rest : List Char} {value : String}
    (scanned : scanString decoded input = .ok (value, rest)) :
    rest.length ≤ input.length := by
  fun_induction scanString decoded input with
  | case1 => cases scanned
  | case2 decoded c tail quote =>
      cases scanned
      simp
  | case3 => cases scanned
  | case4 decoded c tail _ _ escaped after escape induction =>
      have := scanEscape_length_le escape
      have := induction scanned
      simp only [List.length_cons]
      omega
  | case5 => cases scanned
  | case6 decoded c tail _ _ _ induction =>
      exact Nat.le_succ_of_le (induction scanned)

end LensPath.Json
