/-!
# Binary fractions

A finite floating-point number is, up to its sign, a whole number times a power of two.  Its texts
are computed from these two, and never by floating-point arithmetic.
-/

namespace ClassDiagram.Text

/-- The quotient of two numbers rounded to the nearest integer, ties to even. -/
def roundDiv (num den : Nat) : Nat :=
  let q := num / den
  let twice := 2 * (num % den)
  if twice < den ∨ (twice = den ∧ q % 2 = 0) then q else q + 1

theorem two_mul_roundDiv_mul_le (num den : Nat) :
    2 * (roundDiv num den * den) ≤ 2 * num + den := by
  have h := Nat.div_add_mod' num den
  simp only [roundDiv]
  split <;> rename_i hr
  · omega
  · rw [Nat.add_mul]
    omega

theorem two_mul_le_roundDiv_mul (num : Nat) {den : Nat} (pos : 0 < den) :
    2 * num ≤ 2 * (roundDiv num den * den) + den := by
  have h := Nat.div_add_mod' num den
  have hr := Nat.mod_lt num pos
  simp only [roundDiv]
  split
  · omega
  · rw [Nat.add_mul]
    omega

/-- A whole number times a power of two. -/
structure Binary where
  significand : Nat
  exponent : Int
  deriving DecidableEq, Repr

namespace Binary

def minExponent : Int := -1074

/-- What 64 bits encode up to the sign: eleven of them are the exponent, 52 the fraction, and a
leading one is left out unless the exponent is zero. -/
def ofBits (bits : Nat) : Binary :=
  let exponent := bits / Nat.pow 2 52 % Nat.pow 2 11
  let fraction := bits % Nat.pow 2 52
  if exponent = 0 then ⟨fraction, minExponent⟩
  else ⟨Nat.pow 2 52 + fraction, minExponent + ((exponent - 1 : Nat) : Int)⟩

def ofFloat (x : Float) : Binary := ofBits x.toBits.toNat

def num (b : Binary) : Nat := b.significand * Nat.pow 2 b.exponent.toNat

def den (b : Binary) : Nat := Nat.pow 2 (-b.exponent).toNat

theorem den_pos (b : Binary) : 0 < b.den := Nat.two_pow_pos _

end Binary

def isNegative (x : Float) : Bool := x.toBits.toNat / Nat.pow 2 63 == 1

/-- Whether a floating-point number is exactly the whole number `n`. -/
def isWhole (x : Float) (n : Int) : Bool :=
  let b := Binary.ofFloat x
  !x.isNaN && !x.isInf && b.num == n.natAbs * b.den && (n == 0 || isNegative x == decide (n < 0))

end ClassDiagram.Text
