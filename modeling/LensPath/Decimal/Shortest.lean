import LensPath.Decimal.Binary64

/-!
The shortest decimal that reads back as a given double, and its text. Of the decimals with the
fewest digits the nearest one counts.
-/

namespace LensPath.Decimal

/-- A decimal fraction `0.d₁d₂… · 10 ^ point`, its digits as one whole number. -/
structure Digits where
  number : Nat
  point : Int
deriving DecidableEq, Repr

namespace Binary64

/-- The smallest number of places by which a number below one has to be moved to reach one.
The search is over after as many steps as there can be. -/
def placesToOne (units : Nat) : (steps : Nat) → Nat
  | 0 => 0
  | steps + 1 => if one ≤ units then 0 else 1 + placesToOne (10 * units) steps

/-- The place of the decimal point: the magnitude is at least `10 ^ (point - 1)` and less than
`10 ^ point`. -/
def decimalPoint (magnitude : Binary64) : Int :=
  if one ≤ magnitude.units then (Nat.toDigits 10 (magnitude.units / one)).length
  else 1 - placesToOne magnitude.units 324

/-- Four times the distance, in units, from a magnitude down to the lowest number that rounds to
it: half the step below it, which is shorter right above a power of two. -/
def reachBelow (magnitude : Binary64) : Nat :=
  let last := lastBit magnitude.units
  if magnitude.units == 1 <<< (52 + last) && 0 < last then 1 <<< last else 2 <<< last

/-- Four times the distance, in units, from a magnitude up to the highest number that rounds to
it: half a step. -/
def reachAbove (magnitude : Binary64) : Nat := 2 <<< lastBit magnitude.units

def gridStep : Int → Nat × Nat
  | .ofNat exponent => (Nat.pow 10 exponent, 1)
  | .negSucc exponent => (1, Nat.pow 10 (exponent + 1))

/-- The decimal with at most the given number of digits that is nearest to a magnitude, if it
rounds to the magnitude. -/
def nearest? (magnitude : Binary64) (count : Nat) : Option Digits :=
  let point := magnitude.decimalPoint
  let step := gridStep (point - count)
  let value := 4 * magnitude.units * step.2
  let unit := 4 * one * step.1
  let low := value / unit
  let isEven := magnitude.units >>> lastBit magnitude.units % 2 == 0
  let reads (distance reach : Nat) : Bool :=
    distance < reach * step.2 || (isEven && distance == reach * step.2)
  let below := value - low * unit
  let above := (low + 1) * unit - value
  let lowReads := reads below magnitude.reachBelow
  let highReads := reads above magnitude.reachAbove
  let choice :=
    if lowReads && highReads then
      some (if below < above || (below == above && low % 2 == 0) then low else low + 1)
    else if lowReads then some low
    else if highReads then some (low + 1)
    else none
  choice.map fun number =>
    ⟨number, point - count + (Nat.toDigits 10 number).length⟩

/-- The fewest digits that read back. Seventeen always do. -/
def shortest (magnitude : Binary64) : Digits :=
  ((List.range 17).findSome? fun count => magnitude.nearest? (count + 1)).getD ⟨0, 1⟩

end Binary64

structure Style where
  /-- Numbers from `10 ^ (lowest - 1)` on are written out. -/
  lowest : Int
  /-- Numbers below `10 ^ highest` are written out. -/
  highest : Int

/-- Numbers from 0.00001 on and below 10¹⁶ are written out. -/
def Style.usual : Style := ⟨-4, 16⟩

def Digits.significant (digits : Digits) : List Char :=
  ((Nat.toDigits 10 digits.number).reverse.dropWhile (· == '0')).reverse

/-- The text of a decimal: written out with a point, or with one digit before the point and a
signed exponent. -/
def Digits.render (style : Style) (digits : Digits) : String :=
  let shown := digits.significant
  let point := digits.point
  if shown.isEmpty then "0.0"
  else if style.lowest ≤ point && point ≤ style.highest then
    if point ≤ 0 then
      String.ofList (['0', '.'] ++ List.replicate point.natAbs '0' ++ shown)
    else if shown.length ≤ point.toNat then
      String.ofList (shown ++ List.replicate (point.toNat - shown.length) '0' ++ ['.', '0'])
    else
      String.ofList (shown.take point.toNat ++ ['.'] ++ shown.drop point.toNat)
  else
    let mantissa := if shown.length == 1 then shown else shown.take 1 ++ ['.'] ++ shown.drop 1
    let sign := if point ≤ 0 then "e-" else "e+"
    String.ofList mantissa ++ sign ++ toString (point - 1).natAbs

def Binary64.render (magnitude : Binary64) : String := magnitude.shortest.render .usual

end LensPath.Decimal
