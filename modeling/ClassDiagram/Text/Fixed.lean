import ClassDiagram.Text.Binary

/-!
# Fixed notation

A floating-point number with a fixed number of places: its exact value is rounded to the nearest
such decimal, and a tie goes to the even neighbour.  Its whole part is not rounded.
-/

namespace ClassDiagram.Text

def pointed (places n : Nat) : List Char :=
  let digits := Nat.toDigits 10 n
  let digits := List.replicate (places + 1 - digits.length) '0' ++ digits
  if places = 0 then digits
  else digits.take (digits.length - places) ++ '.' :: digits.drop (digits.length - places)

def fixed (places : Nat) (x : Float) : String :=
  if x.isNaN then "nan"
  else
    let sign := if isNegative x then "-" else ""
    if x.isInf then sign ++ "inf"
    else
      let b := Binary.ofFloat x
      sign ++ String.ofList (pointed places (roundDiv (b.num * Nat.pow 10 places) b.den))

/-- The whole part of a floating-point number: what stands before its point. -/
def wholePart (x : Float) : Int :=
  let b := Binary.ofFloat x
  let whole := b.num / b.den
  if isNegative x then -whole else whole

end ClassDiagram.Text
