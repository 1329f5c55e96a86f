import ClassDiagram.Text.Binary
import ClassDiagram.Text.Decimal

/-!
# Shortest decimals

A floating-point number is written with the fewest digits that are read back as the same number,
and of several such decimals the nearest is taken.  Numbers of ordinary size are written out; very
large and very small ones have an exponent.
-/

namespace ClassDiagram.Text

namespace Binary

/-- Whether a decimal is read back as this number: it lies between the middles to the two
neighbours, or on one of them if the significand is even.  Everything is counted in quarters of the
last binary place, because the lower neighbour of a power of two is nearer. -/
def covers (b : Binary) (d : Decimal) : Bool :=
  let below := if b.significand = Nat.pow 2 52 ∧ minExponent < b.exponent then 1 else 2
  let point := d.digits * Nat.pow 10 d.exponent.toNat * Nat.pow 2 (2 - b.exponent).toNat
  let quarter := Nat.pow 2 (b.exponent - 2).toNat * Nat.pow 10 (-d.exponent).toNat
  let low := (4 * b.significand - below) * quarter
  let high := (4 * b.significand + 2) * quarter
  if b.significand % 2 = 0 then low ≤ point && point ≤ high else low < point && point < high

/-- More decimal places than the smallest number needs to show a digit. -/
def places : Nat := 340

/-- How many digits the number has before the point; below zero, how many zeros follow it. -/
def size (b : Binary) : Int :=
  ((Nat.toDigits 10 (b.num * Nat.pow 10 places / b.den)).length : Int) - places

/-- The two decimals with `n` digits next to the number, the nearer one first. -/
def neighbours (b : Binary) (n : Nat) : List Decimal :=
  let exponent := b.size - n
  let num := b.num * Nat.pow 10 (-exponent).toNat
  let den := b.den * Nat.pow 10 exponent.toNat
  let nearest := roundDiv num den
  let other := if nearest = num / den then nearest + 1 else nearest - 1
  [⟨nearest, exponent⟩, ⟨other, exponent⟩]

def enough : Nat := 17

/-- The decimal with the fewest digits that is read back as the number. -/
def shortest (b : Binary) : Decimal :=
  if b.significand = 0 then ⟨0, 0⟩
  else
    ((List.range enough).findSome? fun n => (b.neighbours (n + 1)).find? b.covers).getD
      ⟨b.significand, 0⟩

end Binary

/-- How formats differ in the numbers they write. -/
structure FloatStyle where
  infinity : String
  notANumber : String
  /-- Whether there is a point before every exponent. -/
  alwaysPointed : Bool

/-- Digits without the zeros at the end, but at least one. -/
def significantDigits (d : Decimal) : List Char :=
  if d.digits = 0 then ['0']
  else ((Nat.toDigits 10 d.digits).reverse.dropWhile (· == '0')).reverse

/-- Digits written out, with the point at the given place and at least one digit on both sides. -/
def writtenOut (digits : List Char) (point : Int) : List Char :=
  let whole := digits.take point.toNat ++ List.replicate (point.toNat - digits.length) '0'
  let fraction := List.replicate (-point).toNat '0' ++ digits.drop point.toNat
  (if whole = [] then ['0'] else whole) ++ '.' :: (if fraction = [] then ['0'] else fraction)

/-- An exponent with its sign and at least two digits. -/
def exponentText (exponent : Int) : List Char :=
  let digits := Nat.toDigits 10 exponent.natAbs
  'e' :: (if exponent < 0 then '-' else '+') :: (List.replicate (2 - digits.length) '0' ++ digits)

/-- Digits with a point after the first, and an exponent. -/
def withExponent (alwaysPointed : Bool) (digits : List Char) (point : Int) : List Char :=
  let fraction := digits.drop 1
  let fraction := if fraction = [] ∧ alwaysPointed then ['0'] else fraction
  digits.take 1 ++ (if fraction = [] then [] else '.' :: fraction) ++ exponentText (point - 1)

/-- A decimal as a floating-point number is written.  Up to sixteen digits before the point and up
to three zeros after it are written out. -/
def decimalText (alwaysPointed : Bool) (d : Decimal) : List Char :=
  let point := ((Nat.toDigits 10 d.digits).length : Int) + d.exponent
  if -4 < point ∧ point ≤ 16 then writtenOut (significantDigits d) point
  else withExponent alwaysPointed (significantDigits d) point

def FloatStyle.write (style : FloatStyle) (x : Float) : String :=
  let sign := if isNegative x then "-" else ""
  if x.isNaN then style.notANumber
  else if x.isInf then sign ++ style.infinity
  else sign ++ String.ofList (decimalText style.alwaysPointed (Binary.ofFloat x).shortest)

end ClassDiagram.Text
