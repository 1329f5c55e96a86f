/-!
# Decimals

A decimal is a whole number times a power of ten, and it stands for the floating-point number that
is nearest to it.
-/

namespace ClassDiagram.Text

/-- A number as a decimal numeral gives it: digits, and a power of ten to multiply by. -/
structure Decimal where
  digits : Nat
  exponent : Int
  deriving DecidableEq, Repr

namespace Decimal

/-- The floating-point number nearest to a decimal.  Far outside the range of such numbers the
answer is plain, and powers of ten are not computed. -/
def toFloat (d : Decimal) : Float :=
  if d.digits = 0 then 0.0
  else
    let size : Int := (Nat.toDigits 10 d.digits).length + d.exponent
    if 400 < size then 1.0 / 0.0
    else if size < -400 then 0.0
    else if 0 ≤ d.exponent then Float.ofScientific (d.digits * Nat.pow 10 d.exponent.toNat) false 0
    else Float.ofScientific d.digits true (-d.exponent).toNat

end Decimal

end ClassDiagram.Text
