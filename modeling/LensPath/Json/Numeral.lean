import LensPath.Decimal.Shortest
import LensPath.Span

/-!
Numbers in JSON texts. A number without fraction and exponent is exact as long as it fits into
64 bits; every other number is a double.
-/

namespace LensPath.Json

inductive Numeral
  /-- A number from 0 up to 2⁶⁴ - 1. -/
  | natural (value : Nat)
  /-- A number from -1 down to -2⁶³, by its magnitude. -/
  | negative (magnitude : Nat)
  | real (isNegative : Bool) (magnitude : Decimal.Binary64)
deriving DecidableEq, Repr

namespace Numeral

/-- The largest magnitude of a negative number that is kept exactly, which is 2⁶³. -/
def negativeBound : Nat := 9223372036854775808

/-- A number without fraction and exponent. Negative zero is a double. -/
def ofWhole (isNegative : Bool) (significand : Nat) : Numeral :=
  if isNegative then
    if 0 < significand && significand ≤ negativeBound then negative significand
    else real true (.ofNat significand)
  else natural significand

def isWhole : Numeral → Bool
  | natural _ | negative _ => true
  | real .. => false

def render : Numeral → String
  | natural value => toString value
  | negative magnitude => "-" ++ toString magnitude
  | real isNegative magnitude => (if isNegative then "-" else "") ++ magnitude.render

end Numeral

end LensPath.Json
