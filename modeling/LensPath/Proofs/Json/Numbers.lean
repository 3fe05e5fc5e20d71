import LensPath.Proofs.Json.Run
import LensPath.Proofs.Json.Spelling

/-!
Numbers in JSON texts: they are read exactly as far as they are written, and passed over as far.
-/

namespace LensPath.Json

open Text (isDigit ofDigits)

/-- What may follow a number: nothing that would make another number of it. -/
def NumberEnds (rest : List Char) : Prop :=
  ∀ c ∈ rest.head?, isDigit c = false ∧ c ≠ '.' ∧ ¬ ExponentMark c

def DigitsEnd (rest : List Char) : Prop := ∀ c ∈ rest.head?, isDigit c = false

theorem NumberEnds.digitsEnd {rest : List Char} (ends : NumberEnds rest) : DigitsEnd rest :=
  fun c head => (ends c head).1

theorem digitsEnd_cons {c : Char} (noDigit : isDigit c = false) (rest : List Char) :
    DigitsEnd (c :: rest) := by
  simpa [DigitsEnd] using noDigit

/-! ## Numbers that are written are read -/

theorem scanDigits_append {digits rest : List Char} (each : ∀ c ∈ digits, isDigit c = true)
    (ends : DigitsEnd rest) : scanDigits (digits ++ rest) = (digits, rest) := by
  have stopped : rest.takeWhile isDigit = [] ∧ rest.dropWhile isDigit = rest := by
    cases rest with
    | nil => exact ⟨rfl, rfl⟩
    | cons c rest => simp [ends c rfl]
  rw [scanDigits, List.takeWhile_append_of_pos each, List.dropWhile_append_of_pos each,
    stopped.1, stopped.2, List.append_nil]

theorem ExponentMark.not_isDigit {c : Char} (marked : ExponentMark c) : isDigit c = false := by
  rcases marked with rfl | rfl <;> decide

variable {isNegative : Bool} {significand : Nat} {exponent : Int} {rest : List Char}

theorem toOption_scaled :
    (scaled isNegative significand exponent rest).toOption =
      ((Decimal.Binary64.ofScientific significand exponent).map (.real isNegative)).map
        (·, rest) := by
  rw [scaled]
  cases Decimal.Binary64.ofScientific significand exponent <;> rfl

theorem toOption_scanExponent {digits sign : List Char} {isMinus : Bool}
    (signed : scanSign (sign ++ digits ++ rest) = (isMinus, digits ++ rest))
    (isDigits : IsDigits digits) (ends : DigitsEnd rest) :
    (scanExponent isNegative significand exponent (sign ++ digits ++ rest)).toOption =
      ((Decimal.Binary64.ofScientific significand
        (if isMinus then exponent - ofDigits digits else exponent + ofDigits digits)).map
          (.real isNegative)).map (·, rest) := by
  obtain ⟨first, others, rfl⟩ := List.exists_cons_of_ne_nil isDigits.nonempty
  rw [scanExponent, signed]
  simp only [scanDigits_append isDigits.each ends]
  exact toOption_scaled

theorem toOption_scanScaled {exponent? : Option Int} {text : List Char}
    (written : ExponentText exponent? text) (ends : NumberEnds rest) :
    (scanScaled isNegative significand exponent (text ++ rest)).toOption =
      ((Decimal.Binary64.ofScientific significand (exponent + exponent?.getD 0)).map
        (.real isNegative)).map (·, rest) := by
  have scanned {mark : Char} (marked : ExponentMark mark) (more : List Char) :
      scanScaled isNegative significand exponent (mark :: more) =
        scanExponent isNegative significand exponent more := by
    rcases marked with rfl | rfl <;> rfl
  cases written with
  | none =>
      have plain : scanScaled isNegative significand exponent rest =
          scaled isNegative significand exponent rest := by
        unfold scanScaled
        split
        · exact absurd (.inl rfl) (ends 'e' rfl).2.2
        · exact absurd (.inr rfl) (ends 'E' rfl).2.2
        · rfl
      rw [List.nil_append, plain, toOption_scaled]
      simp
  | @plain mark digits marked isDigits =>
      have signed : scanSign ([] ++ digits ++ rest) = (false, digits ++ rest) := by
        obtain ⟨first, others, rfl⟩ := List.exists_cons_of_ne_nil isDigits.nonempty
        have digit := isDigits.each first (by simp)
        unfold scanSign
        split
        · next same => cases same; cases digit
        · next same => cases same; cases digit
        · rfl
      rw [List.cons_append, scanned marked]
      exact toOption_scanExponent signed isDigits ends.digitsEnd
  | @plus mark digits marked isDigits =>
      rw [List.cons_append, scanned marked]
      exact @toOption_scanExponent _ _ _ _ digits ['+'] false rfl isDigits ends.digitsEnd
  | @minus mark digits marked isDigits =>
      rw [List.cons_append, scanned marked]
      exact @toOption_scanExponent _ _ _ _ digits ['-'] true rfl isDigits ends.digitsEnd

theorem ExponentText.digitsEnd {exponent? : Option Int} {text : List Char}
    (written : ExponentText exponent? text) (ends : NumberEnds rest) :
    DigitsEnd (text ++ rest) := by
  cases written with
  | none => exact ends.digitsEnd
  | plain marked _ | plus marked _ | minus marked _ =>
      exact digitsEnd_cons marked.not_isDigit _

theorem toOption_scanFraction {digits text : List Char} {exponent? : Option Int}
    (isDigits : IsDigits digits) (written : ExponentText exponent? text)
    (ends : NumberEnds rest) :
    (scanFraction isNegative significand exponent (digits ++ (text ++ rest))).toOption =
      ((Decimal.Binary64.ofScientific (appendDigits significand digits).1
        (exponent - (digits.length - (appendDigits significand digits).2 : Nat) +
          exponent?.getD 0)).map (.real isNegative)).map (·, rest) := by
  obtain ⟨first, others, rfl⟩ := List.exists_cons_of_ne_nil isDigits.nonempty
  rw [scanFraction]
  simp only [scanDigits_append isDigits.each (written.digitsEnd ends)]
  exact toOption_scanScaled written ends

theorem exponentText_cases {exponent? : Option Int} {text : List Char}
    (written : ExponentText exponent? text) :
    (exponent? = none ∧ text = []) ∨
      (exponent? ≠ none ∧ ∃ mark more, ExponentMark mark ∧ text = mark :: more) := by
  cases written with
  | none => exact .inl ⟨rfl, rfl⟩
  | plain marked _ | plus marked _ | minus marked _ =>
      exact .inr ⟨by simp, _, _, marked, rfl⟩

theorem toOption_scanAfterWhole {whole fraction fractionText exponentText : List Char}
    {exponent? : Option Int} (isFraction : FractionText fraction fractionText)
    (isExponent : ExponentText exponent? exponentText) (ends : NumberEnds rest) :
    (scanAfterWhole isNegative (appendDigits 0 whole).1 (appendDigits 0 whole).2
        (fractionText ++ (exponentText ++ rest))).toOption =
      (Numeral.ofParts? isNegative whole fraction exponent?).map (·, rest) := by
  cases isFraction with
  | some isDigits =>
      rw [Numeral.ofParts?, if_neg (fun exact => isDigits.nonempty exact.1)]
      exact toOption_scanFraction isDigits isExponent ends
  | none =>
      rw [List.nil_append]
      rcases exponentText_cases isExponent with ⟨rfl, rfl⟩ | ⟨written, mark, more, marked, rfl⟩
      · rw [List.nil_append]
        unfold scanAfterWhole
        split
        · exact absurd rfl (ends '.' rfl).2.1
        · split
          · exact absurd (.inl rfl) (ends 'e' rfl).2.2
          · exact absurd (.inr rfl) (ends 'E' rfl).2.2
          · split
            · next exact =>
                rw [Numeral.ofParts?, if_pos ⟨rfl, rfl, beq_iff_eq.mp exact⟩]
                rfl
            · next inexact =>
                rw [toOption_scaled, Numeral.ofParts?,
                  if_neg (fun exact => inexact (beq_iff_eq.mpr exact.2.2))]
                simp [appendDigits]
      · have noPoint : scanAfterWhole isNegative (appendDigits 0 whole).1 (appendDigits 0 whole).2
            (mark :: more ++ rest) = scanScaled isNegative (appendDigits 0 whole).1
              (appendDigits 0 whole).2 (mark :: more ++ rest) := by
          rcases marked with rfl | rfl <;> rfl
        rw [noPoint, toOption_scanScaled isExponent ends, Numeral.ofParts?,
          if_neg (fun exact => written exact.2.1)]
        simp [appendDigits]

theorem digitsEnd_append {fraction fractionText exponentText : List Char} {exponent? : Option Int}
    (isFraction : FractionText fraction fractionText)
    (isExponent : ExponentText exponent? exponentText) (ends : NumberEnds rest) :
    DigitsEnd (fractionText ++ (exponentText ++ rest)) := by
  cases isFraction with
  | none => exact isExponent.digitsEnd ends
  | some _ => exact digitsEnd_cons (by decide) _

theorem scanNumber_append {numeral : Numeral} {text : List Char}
    (number : UnsignedText isNegative numeral text) (ends : NumberEnds rest) :
    scanNumber isNegative (text ++ rest) = .ok (numeral, rest) := by
  obtain @⟨whole, fraction, fractionText, exponent, exponentText, isWhole, isFraction, isExponent,
    value⟩ := number
  have behind := digitsEnd_append isFraction isExponent ends
  have scanned : scanAfterWhole isNegative (appendDigits 0 whole).1 (appendDigits 0 whole).2
      (fractionText ++ (exponentText ++ rest)) = .ok (numeral, rest) := by
    rw [← toOption_eq_some_iff, toOption_scanAfterWhole isFraction isExponent ends, value]
    rfl
  rw [List.append_assoc, List.append_assoc]
  cases isWhole with
  | zero =>
      have alone : (scanDigits (fractionText ++ (exponentText ++ rest))).1 = [] :=
        congrArg Prod.fst (@scanDigits_append [] _ (by simp) behind)
      rw [List.singleton_append, scanNumber, if_pos (List.isEmpty_iff.mpr alone)]
      exact scanned
  | other isDigits noZero =>
      have digits := scanDigits_append isDigits.each behind
      obtain ⟨first, others, rfl⟩ := List.exists_cons_of_ne_nil isDigits.nonempty
      unfold scanNumber
      split
      · next same => cases same
      · next same =>
          cases same
          exact absurd rfl noZero
      · rw [digits]
        exact scanned

/-! ## Numbers that are read are written -/

theorem scanDigits_eq (input : List Char) :
    input = (scanDigits input).1 ++ (scanDigits input).2 :=
  List.takeWhile_append_dropWhile.symm

theorem isDigits_scanDigits (input : List Char) (nonempty : (scanDigits input).1 ≠ []) :
    IsDigits (scanDigits input).1 :=
  ⟨nonempty, List.all_eq_true.mp List.all_takeWhile⟩

variable {input : List Char} {numeral : Numeral}

theorem scaled_eq_ok
    (scanned : scaled isNegative significand exponent input = .ok (numeral, rest)) :
    rest = input ∧ (Decimal.Binary64.ofScientific significand exponent).map (.real isNegative) =
      some numeral := by
  have found := toOption_eq_some_iff.mpr scanned
  rw [toOption_scaled] at found
  obtain ⟨found, same, result⟩ := Option.map_eq_some_iff.mp found
  cases result
  exact ⟨rfl, same⟩

theorem exists_exponentText {mark : Char} (marked : ExponentMark mark)
    (scanned : scanExponent isNegative significand exponent input = .ok (numeral, rest)) :
    ∃ shift text, mark :: input = text ++ rest ∧ ExponentText (some shift) text ∧
      (Decimal.Binary64.ofScientific significand (exponent + shift)).map (.real isNegative) =
        some numeral := by
  have signed : ∃ sign, input = sign ++ (scanSign input).2 ∧
      (sign = [] ∧ (scanSign input).1 = false ∨ sign = ['+'] ∧ (scanSign input).1 = false ∨
        sign = ['-'] ∧ (scanSign input).1 = true) := by
    unfold scanSign
    split
    · exact ⟨['+'], rfl, .inr (.inl ⟨rfl, rfl⟩)⟩
    · exact ⟨['-'], rfl, .inr (.inr ⟨rfl, rfl⟩)⟩
    · exact ⟨[], rfl, .inl ⟨rfl, rfl⟩⟩
  obtain ⟨sign, whole, kind⟩ := signed
  simp only [scanExponent] at scanned
  split at scanned
  · split at scanned <;> cases scanned
  · next first others digits =>
      have isDigits := isDigits_scanDigits (scanSign input).2 (by simp [digits])
      obtain ⟨rfl, value⟩ := scaled_eq_ok scanned
      have text := scanDigits_eq (scanSign input).2
      rcases kind with ⟨rfl, plus⟩ | ⟨rfl, plus⟩ | ⟨rfl, minus⟩
      · refine ⟨_, _, ?_, .plain marked isDigits, ?_⟩
        · rw [List.cons_append, ← text]; exact congrArg _ whole
        · simpa [plus] using value
      · refine ⟨_, _, ?_, .plus marked isDigits, ?_⟩
        · rw [List.cons_append, List.cons_append, ← text]; exact congrArg _ whole
        · simpa [plus] using value
      · refine ⟨_, _, ?_, .minus marked isDigits, ?_⟩
        · rw [List.cons_append, List.cons_append, ← text]; exact congrArg _ whole
        · simpa [minus, Int.sub_eq_add_neg] using value

theorem exists_scaledText
    (scanned : scanScaled isNegative significand exponent input = .ok (numeral, rest)) :
    ∃ exponent? text, input = text ++ rest ∧ ExponentText exponent? text ∧
      (Decimal.Binary64.ofScientific significand (exponent + exponent?.getD 0)).map
        (.real isNegative) = some numeral := by
  unfold scanScaled at scanned
  split at scanned
  · obtain ⟨shift, found⟩ := exists_exponentText (.inl rfl) scanned
    exact ⟨some shift, found⟩
  · obtain ⟨shift, found⟩ := exists_exponentText (.inr rfl) scanned
    exact ⟨some shift, found⟩
  · obtain ⟨rfl, value⟩ := scaled_eq_ok scanned
    exact ⟨none, [], rfl, .none, by simpa using value⟩

theorem exists_fractionText
    (scanned : scanFraction isNegative significand exponent input = .ok (numeral, rest)) :
    ∃ digits exponent? text, IsDigits digits ∧ input = digits ++ (text ++ rest) ∧
      ExponentText exponent? text ∧
      (Decimal.Binary64.ofScientific (appendDigits significand digits).1
        (exponent - (digits.length - (appendDigits significand digits).2 : Nat) +
          exponent?.getD 0)).map (.real isNegative) = some numeral := by
  simp only [scanFraction] at scanned
  split at scanned
  · split at scanned <;> cases scanned
  · next first others digits =>
      obtain ⟨exponent?, text, behind, written, value⟩ := exists_scaledText scanned
      refine ⟨_, exponent?, text, isDigits_scanDigits input (by simp [digits]), ?_,
        written, value⟩
      rw [← behind]
      exact scanDigits_eq input

theorem exists_wholeText {whole : List Char}
    (scanned : scanAfterWhole isNegative (appendDigits 0 whole).1 (appendDigits 0 whole).2 input =
      .ok (numeral, rest)) :
    ∃ fraction fractionText exponent? exponentText,
      input = fractionText ++ (exponentText ++ rest) ∧ FractionText fraction fractionText ∧
      ExponentText exponent? exponentText ∧
      Numeral.ofParts? isNegative whole fraction exponent? = some numeral := by
  have inexact (exponent? : Option Int)
      (inexact : ¬ (exponent? = none ∧ (appendDigits 0 whole).2 = 0))
      (value : (Decimal.Binary64.ofScientific (appendDigits 0 whole).1
        ((appendDigits 0 whole).2 + exponent?.getD 0)).map (.real isNegative) = some numeral) :
      Numeral.ofParts? isNegative whole [] exponent? = some numeral := by
    rw [Numeral.ofParts?, if_neg (fun exact => inexact exact.2)]
    simpa [appendDigits] using value
  unfold scanAfterWhole at scanned
  split at scanned
  · obtain ⟨digits, exponent?, text, isDigits, behind, written, value⟩ :=
      exists_fractionText scanned
    refine ⟨digits, _, exponent?, text, congrArg ('.' :: ·) behind, .some isDigits, written, ?_⟩
    rw [Numeral.ofParts?, if_neg (fun exact => isDigits.nonempty exact.1)]
    exact value
  · split at scanned
    · obtain ⟨shift, text, same, written, value⟩ := exists_exponentText (.inl rfl) scanned
      exact ⟨[], [], some shift, text, same, .none, written, inexact _ (by simp) value⟩
    · obtain ⟨shift, text, same, written, value⟩ := exists_exponentText (.inr rfl) scanned
      exact ⟨[], [], some shift, text, same, .none, written, inexact _ (by simp) value⟩
    · split at scanned
      · next exact =>
          cases scanned
          refine ⟨[], [], none, [], rfl, .none, .none, ?_⟩
          rw [Numeral.ofParts?, if_pos ⟨rfl, rfl, beq_iff_eq.mp exact⟩]
      · next dropped =>
          obtain ⟨rfl, value⟩ := scaled_eq_ok scanned
          exact ⟨[], [], none, [], rfl, .none, .none,
            inexact none (by simpa using dropped) (by simpa using value)⟩

theorem unsignedText_of_scanNumber
    (scanned : scanNumber isNegative input = .ok (numeral, rest)) :
    ∃ text, input = text ++ rest ∧ UnsignedText isNegative numeral text := by
  have written {whole behind : List Char} (isWhole : WholeText whole)
      (scanned : scanAfterWhole isNegative (appendDigits 0 whole).1 (appendDigits 0 whole).2
        behind = .ok (numeral, rest)) :
      ∃ text, whole ++ behind = text ++ rest ∧ UnsignedText isNegative numeral text := by
    obtain ⟨fraction, fractionText, exponent?, exponentText, rfl, isFraction, isExponent, value⟩ :=
      exists_wholeText scanned
    exact ⟨_, by simp only [List.append_assoc], .intro isWhole isFraction isExponent value⟩
  unfold scanNumber at scanned
  split at scanned
  · cases scanned
  · split at scanned
    · exact written .zero scanned
    · cases scanned
  · next first others noZero =>
      simp only at scanned
      split at scanned
      · cases scanned
      · next digit more digits =>
          have isDigits := isDigits_scanDigits (first :: others) (by simp [digits])
          have same := scanDigits_eq (first :: others)
          have notZero : (scanDigits (first :: others)).1.head? ≠ some '0' := by
            rw [digits] at same ⊢
            intro zero
            cases zero
            exact noZero (List.cons.inj same).1
          obtain ⟨text, behind, number⟩ := written (.other isDigits notZero) scanned
          exact ⟨text, same.trans behind, number⟩

/-! ## Numbers that are read are passed over -/

theorem passExponent_of_scanExponent
    (scanned : scanExponent isNegative significand exponent input = .ok (numeral, rest)) :
    passExponent input = .ok rest := by
  simp only [scanExponent] at scanned
  split at scanned
  · split at scanned <;> cases scanned
  · next digits =>
      obtain ⟨rfl, _⟩ := scaled_eq_ok scanned
      simp [passExponent, digits]

theorem passScaled_eq_self (noSmall : ∀ more, input = 'e' :: more → False)
    (noCapital : ∀ more, input = 'E' :: more → False) : passScaled input = .ok input := by
  unfold passScaled
  split
  · exact absurd rfl (noSmall _)
  · exact absurd rfl (noCapital _)
  · rfl

theorem passScaled_of_scanScaled
    (scanned : scanScaled isNegative significand exponent input = .ok (numeral, rest)) :
    passScaled input = .ok rest := by
  unfold scanScaled at scanned
  split at scanned
  · exact passExponent_of_scanExponent scanned
  · exact passExponent_of_scanExponent scanned
  · next noSmall noCapital =>
      obtain ⟨rfl, _⟩ := scaled_eq_ok scanned
      exact passScaled_eq_self noSmall noCapital

theorem passAfterWhole_of_scanAfterWhole {dropped : Nat}
    (scanned : scanAfterWhole isNegative significand dropped input = .ok (numeral, rest)) :
    passAfterWhole input = .ok rest := by
  unfold scanAfterWhole at scanned
  split at scanned
  · simp only [scanFraction] at scanned
    split at scanned
    · split at scanned <;> cases scanned
    · next digits =>
        simp only [passAfterWhole, digits]
        exact passScaled_of_scanScaled scanned
  · next noPoint =>
      have plain : passAfterWhole input = passScaled input := by
        unfold passAfterWhole
        split
        · exact absurd rfl (noPoint _)
        · rfl
      rw [plain]
      split at scanned
      · exact passScaled_of_scanScaled scanned
      · exact passScaled_of_scanScaled scanned
      · next noSmall noCapital =>
          have whole : rest = input := by
            split at scanned
            · cases scanned
              rfl
            · exact (scaled_eq_ok scanned).1
          subst whole
          exact passScaled_eq_self noSmall noCapital

theorem passNumber_of_scanNumber
    (scanned : scanNumber isNegative input = .ok (numeral, rest)) :
    passNumber input = .ok rest := by
  unfold scanNumber at scanned
  split at scanned
  · cases scanned
  · split at scanned
    · next alone =>
        simp only [passNumber, alone]
        exact passAfterWhole_of_scanAfterWhole scanned
    · cases scanned
  · next first others noZero =>
      simp only at scanned
      split at scanned
      · cases scanned
      · next digits =>
          unfold passNumber
          split
          · next same =>
              cases same
              exact absurd rfl noZero
          · simp only [digits]
            exact passAfterWhole_of_scanAfterWhole scanned

end LensPath.Json
