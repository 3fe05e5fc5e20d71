import LensPath.Json.Value
import Mathlib.Data.List.Forall2

/-!
The grammar of JSON texts, with what each text says. Blanks may stand around every value, strings
may hold escapes, and numbers have a value only as long as they are not too large. A list or an
object is told by the texts of its items, so the text of each of them can be pointed at.
-/

namespace LensPath.Json

open Text (isDigit hexValue? ofDigits)

/-! ## Blanks -/

def Blanks (text : List Char) : Prop := ∀ c ∈ text, isSpace c = true

inductive Padded (core : List Char) : List Char → Prop
  | intro {before after : List Char} (blanksBefore : Blanks before) (blanksAfter : Blanks after) :
      Padded core (before ++ core ++ after)

/-! ## Numbers -/

structure IsDigits (text : List Char) : Prop where
  nonempty : text ≠ []
  each : ∀ c ∈ text, isDigit c = true

/-- The whole part of a number. Only zero itself starts with a zero. -/
inductive WholeText : List Char → Prop
  | zero : WholeText ['0']
  | other {digits : List Char} (isDigits : IsDigits digits) (noZero : digits.head? ≠ some '0') :
      WholeText digits

/-- The fraction of a number, by its digits: nothing at all, or digits behind a point. -/
inductive FractionText : List Char → List Char → Prop
  | none : FractionText [] []
  | some {digits : List Char} (isDigits : IsDigits digits) : FractionText digits ('.' :: digits)

def ExponentMark (c : Char) : Prop := c = 'e' ∨ c = 'E'

instance : DecidablePred ExponentMark := fun c => inferInstanceAs (Decidable (c = 'e' ∨ c = 'E'))

inductive ExponentText : Option Int → List Char → Prop
  | none : ExponentText none []
  | plain {mark : Char} {digits : List Char} (marked : ExponentMark mark)
      (isDigits : IsDigits digits) : ExponentText (some (ofDigits digits)) (mark :: digits)
  | plus {mark : Char} {digits : List Char} (marked : ExponentMark mark)
      (isDigits : IsDigits digits) : ExponentText (some (ofDigits digits)) (mark :: '+' :: digits)
  | minus {mark : Char} {digits : List Char} (marked : ExponentMark mark)
      (isDigits : IsDigits digits) :
      ExponentText (some (-(ofDigits digits))) (mark :: '-' :: digits)

/-- The number that is written with these parts; `none` if it is too large. It is exact if it has
neither fraction nor exponent and its digits fit into 64 bits. -/
def Numeral.ofParts? (isNegative : Bool) (whole fraction : List Char) (exponent : Option Int) :
    Option Numeral :=
  let kept := appendDigits 0 whole
  let extended := appendDigits kept.1 fraction
  if fraction = [] ∧ exponent = none ∧ kept.2 = 0 then some (ofWhole isNegative kept.1)
  else
    (Decimal.Binary64.ofScientific extended.1
      (kept.2 - (fraction.length - extended.2 : Nat) + exponent.getD 0)).map (real isNegative)

inductive UnsignedText (isNegative : Bool) (numeral : Numeral) : List Char → Prop
  | intro {whole fraction fractionText : List Char} {exponent : Option Int}
      {exponentText : List Char}
      (isWhole : WholeText whole) (isFraction : FractionText fraction fractionText)
      (isExponent : ExponentText exponent exponentText)
      (value : Numeral.ofParts? isNegative whole fraction exponent = some numeral) :
      UnsignedText isNegative numeral (whole ++ fractionText ++ exponentText)

inductive NumberText (numeral : Numeral) : List Char → Prop
  | unsigned {text : List Char} (number : UnsignedText false numeral text) :
      NumberText numeral text
  | negative {text : List Char} (number : UnsignedText true numeral text) :
      NumberText numeral ('-' :: text)

/-! ## Strings -/

inductive UnitText : Nat → List Char → Prop
  | intro {a b c d : Char} {valueA valueB valueC valueD : Nat} (first : hexValue? a = some valueA)
      (second : hexValue? b = some valueB) (third : hexValue? c = some valueC)
      (fourth : hexValue? d = some valueD) :
      UnitText (((valueA * 16 + valueB) * 16 + valueC) * 16 + valueD) [a, b, c, d]

inductive StringText : List Char → List Char → Prop
  | nil : StringText [] []
  | plain {c : Char} {decoded text : List Char} (noQuote : c ≠ '"') (noEscape : c ≠ '\\')
      (noControl : 0x20 ≤ c.toNat) (later : StringText decoded text) :
      StringText (c :: decoded) (c :: text)
  | short {escape c : Char} {decoded text : List Char} (known : shortEscape? escape = some c)
      (later : StringText decoded text) :
      StringText (c :: decoded) ('\\' :: escape :: text)
  | unit {unit : Nat} {digits decoded text : List Char} (isUnit : UnitText unit digits)
      (notTrailing : isTrailingSurrogate unit = false)
      (notLeading : isLeadingSurrogate unit = false) (later : StringText decoded text) :
      StringText (.ofNat unit :: decoded) ('\\' :: 'u' :: digits ++ text)
  | pair {leading trailing : Nat} {first second decoded text : List Char}
      (isFirst : UnitText leading first) (isLeading : isLeadingSurrogate leading = true)
      (isSecond : UnitText trailing second) (isTrailing : isTrailingSurrogate trailing = true)
      (later : StringText decoded text) :
      StringText (ofSurrogates leading trailing :: decoded)
        ('\\' :: 'u' :: first ++ '\\' :: 'u' :: second ++ text)

/-! ## Lists and objects -/

/-- Texts with a comma behind each but the last. Where there is no text there are only blanks. -/
inductive Separated : List (List Char) → List Char → Prop
  | none {text : List Char} (blanks : Blanks text) : Separated [] text
  | last (piece : List Char) : Separated [piece] piece
  | more (piece : List Char) {pieces : List (List Char)} {text : List Char}
      (nonempty : pieces ≠ []) (later : Separated pieces text) :
      Separated (piece :: pieces) (piece ++ ',' :: text)

inductive ListText (pieces : List (List Char)) : List Char → Prop
  | intro {inner text : List Char} (separated : Separated pieces inner)
      (padded : Padded ('[' :: inner ++ [']']) text) : ListText pieces text

inductive KeyText (key : String) : List Char → Prop
  | intro {core text : List Char} (spelled : StringText key.toList core)
      (padded : Padded ('"' :: core ++ ['"']) text) : KeyText key text

inductive MemberText : String × List Char → List Char → Prop
  | intro {key : String} {keyText piece : List Char} (named : KeyText key keyText) :
      MemberText (key, piece) (keyText ++ ':' :: piece)

inductive ObjectText (pieces : List (String × List Char)) : List Char → Prop
  | intro {members : List (List Char)} {inner text : List Char}
      (each : List.Forall₂ MemberText pieces members) (separated : Separated members inner)
      (padded : Padded ('{' :: inner ++ ['}']) text) : ObjectText pieces text

/-- A text says a value. -/
inductive Value.SpelledBy : Value → List Char → Prop
  | null {text : List Char} (padded : Padded ['n', 'u', 'l', 'l'] text) : SpelledBy .null text
  | true {text : List Char} (padded : Padded ['t', 'r', 'u', 'e'] text) :
      SpelledBy (.flag true) text
  | false {text : List Char} (padded : Padded ['f', 'a', 'l', 's', 'e'] text) :
      SpelledBy (.flag false) text
  | number {numeral : Numeral} {core text : List Char} (number : NumberText numeral core)
      (padded : Padded core text) : SpelledBy (.number numeral) text
  | text {string : String} {core text : List Char} (spelled : StringText string.toList core)
      (padded : Padded ('"' :: core ++ ['"']) text) : SpelledBy (.text string) text
  | list {items : List Value} {pieces : List (List Char)} {text : List Char}
      (layout : ListText pieces text) (each : List.Forall₂ SpelledBy items pieces) :
      SpelledBy (.list items) text
  | object {members : List (String × Value)} {pieces : List (String × List Char)}
      {text : List Char} (layout : ObjectText pieces text)
      (keys : members.map Prod.fst = pieces.map Prod.fst)
      (each : List.Forall₂ SpelledBy (members.map Prod.snd) (pieces.map Prod.snd)) :
      SpelledBy (.object members) text

/-- A value is nested no deeper than there is room for containers around each other. -/
inductive Value.Fits : (room : Nat) → Value → Prop
  | null {room : Nat} : Fits room .null
  | flag {room : Nat} (value : Bool) : Fits room (.flag value)
  | number {room : Nat} (numeral : Numeral) : Fits room (.number numeral)
  | text {room : Nat} (string : String) : Fits room (.text string)
  | list {room : Nat} {items : List Value} (each : ∀ item ∈ items, Fits room item) :
      Fits (room + 1) (.list items)
  | object {room : Nat} {members : List (String × Value)}
      (each : ∀ member ∈ members, Fits room member.2) : Fits (room + 1) (.object members)

@[elab_as_elim, induction_eliminator]
theorem Value.induction {motive : Value → Prop} (null : motive .null)
    (flag : ∀ value, motive (.flag value)) (number : ∀ numeral, motive (.number numeral))
    (text : ∀ string, motive (.text string))
    (list : ∀ items, (∀ item ∈ items, motive item) → motive (.list items))
    (object : ∀ members, (∀ member ∈ members, motive member.2) → motive (.object members))
    (value : Value) : motive value :=
  @Value.rec motive (fun items => ∀ item ∈ items, motive item)
    (fun members => ∀ member ∈ members, motive member.2) (fun member => motive member.2)
    null flag number text list object
    (by simp) (fun _ _ first later => List.forall_mem_cons.mpr ⟨first, later⟩)
    (by simp) (fun _ _ first later => List.forall_mem_cons.mpr ⟨first, later⟩)
    (fun _ _ value => value) value

end LensPath.Json
