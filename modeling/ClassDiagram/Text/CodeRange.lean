/-!
# Ranges of code points

A property of characters that follows no formula is given as a list of inclusive ranges of code
points.  Membership looks at the ranges one after the other; the properties here are asked rarely
enough outside ASCII for that to do.
-/

namespace ClassDiagram.Text

/-- The code points from `first` to `last`, both included. -/
abbrev CodeRange := Nat × Nat

namespace CodeRange

def contains (r : CodeRange) (c : Char) : Bool :=
  r.1 ≤ c.toNat && c.toNat ≤ r.2

def covers (ranges : List CodeRange) (c : Char) : Bool :=
  ranges.any (·.contains c)

theorem covers_eq_true_iff {ranges : List CodeRange} {c : Char} :
    covers ranges c = true ↔ ∃ r ∈ ranges, r.1 ≤ c.toNat ∧ c.toNat ≤ r.2 := by
  simp [covers, contains]

end CodeRange

end ClassDiagram.Text
