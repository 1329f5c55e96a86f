/-!
# The digits of an integer

Integers have at most 4300 digits where they are read or written: reading a longer numeral fails,
and so does writing an integer that would need more.
-/

namespace ClassDiagram.Text

def maxDigits : Nat := 4300

/-- The least number that needs more digits than it may have.  It is never computed in proofs. -/
@[irreducible] def firstTooLong : Nat := Nat.pow 10 maxDigits

def Writable (n : Int) : Prop := n.natAbs < firstTooLong

instance : DecidablePred Writable :=
  fun n => inferInstanceAs (Decidable (n.natAbs < firstTooLong))

def write? (n : Int) : Option String := if Writable n then some (toString n) else none

/-- What is said of an integer that cannot be written. -/
def tooLong : String :=
  "Exceeds the limit (4300 digits) for integer string conversion; " ++
    "use sys.set_int_max_str_digits() to increase the limit"

/-- Numbers of one digit are short. -/
theorem writable_of_natAbs_lt {n : Int} (h : n.natAbs < 10) : Writable n := by
  have hpow : ∀ k : Nat, k ≠ 0 → 10 ≤ Nat.pow 10 k := fun k hk => Nat.le_self_pow hk 10
  have hdigits : maxDigits ≠ 0 := by
    unfold maxDigits
    omega
  have hlong : 10 ≤ firstTooLong := by
    unfold firstTooLong
    generalize maxDigits = digits at *
    exact hpow digits hdigits
  exact Nat.lt_of_lt_of_le h hlong

theorem not_writable_firstTooLong : ¬ Writable firstTooLong :=
  fun h => Nat.lt_irrefl firstTooLong h

end ClassDiagram.Text
