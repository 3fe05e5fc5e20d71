/-!
Magnitudes of double-precision numbers, computed exactly. Every finite double is a whole number
of units of 2⁻¹⁰⁷⁴, so a magnitude is that whole number, and rounding picks the nearest multiple
of a power of two.
-/

namespace LensPath.Decimal

/-- The nearest whole number to a quotient; halfway between two, the even one. -/
def roundDiv (numerator denominator : Nat) : Nat :=
  let quotient := numerator / denominator
  let twice := 2 * (numerator % denominator)
  if twice < denominator then quotient
  else if denominator < twice then quotient + 1
  else quotient + quotient % 2

/-- A magnitude in units of 2⁻¹⁰⁷⁴. -/
structure Binary64 where
  units : Nat
deriving DecidableEq, Repr

namespace Binary64

def one : Nat := 1 <<< 1074

/-- Magnitudes are below 2¹⁰²⁴. -/
def bound : Nat := 1 <<< 2098

def isZero (magnitude : Binary64) : Bool := magnitude.units == 0

/-- The exponent of the last of 53 bits of a number of units. -/
def lastBit (units : Nat) : Nat := Nat.log2 units + 1 - 53

/-- The double nearest to a quotient, without a bound. -/
def ofRatio (numerator denominator : Nat) : Binary64 :=
  let scaled := numerator * one
  let last := lastBit (scaled / denominator)
  ⟨roundDiv scaled (denominator <<< last) <<< last⟩

def ofNat (value : Nat) : Binary64 := ofRatio value 1

def mul (left right : Binary64) : Binary64 :=
  ofRatio (left.units * right.units) (one * one)

def div (left right : Binary64) : Binary64 := ofRatio left.units right.units

def tenPow (exponent : Nat) : Binary64 := ofNat (Nat.pow 10 exponent)

/-- The largest exponent for which a power of ten is a double. -/
def maxTenPow : Nat := 308

/-- Divides by a power of ten, in steps that are doubles. -/
def scaleDown (magnitude : Binary64) (exponent : Nat) : Binary64 :=
  if exponent ≤ maxTenPow then magnitude.div (tenPow exponent)
  else if magnitude.isZero then magnitude
  else scaleDown (magnitude.div (tenPow maxTenPow)) (exponent - maxTenPow)
termination_by exponent
decreasing_by simp only [maxTenPow] at *; omega

/-- Multiplies by a power of ten; `none` when the product is too large. -/
def scaleUp (magnitude : Binary64) (exponent : Nat) : Option Binary64 :=
  if exponent ≤ maxTenPow then
    let product := magnitude.mul (tenPow exponent)
    if product.units < bound then some product else none
  else if magnitude.isZero then some magnitude
  else none

/-- A whole number times a power of ten: the number is rounded first, the product after it. -/
def ofScientific (significand : Nat) : Int → Option Binary64
  | .ofNat exponent => (ofNat significand).scaleUp exponent
  | .negSucc exponent => some ((ofNat significand).scaleDown (exponent + 1))

end Binary64

end LensPath.Decimal
