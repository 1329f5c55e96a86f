/-!
# Random draws

Random choices are made by drawing integers from a source and reducing them to the range that is
wanted.  A source either goes round a list of integers or is a linear congruential generator; what
is drawn from it may be any sequence of integers.

To choose from nothing is a fault, and draws nothing.
-/

namespace ClassDiagram.Fuzz

inductive Draws where
  /-- Goes round a list, of which `rest` is left before it starts again. -/
  | cycle (all rest : List Int)
  /-- A linear congruential generator modulo 2⁶⁴, of which the upper 31 bits are drawn. -/
  | congruential (state : UInt64)
  deriving DecidableEq, Repr

namespace Draws

def ofList (all : List Int) : Draws := cycle all all

def ofSeed (seed : Int) : Draws := congruential (UInt64.ofInt seed)

def next : Draws → Int × Draws
  | cycle all (d :: rest) => (d, cycle all rest)
  | cycle [] [] => (0, cycle [] [])
  | cycle (d :: rest) [] => (d, cycle (d :: rest) rest)
  | congruential state =>
    let state := state * 6364136223846793005 + 1442695040888963407
    ((state >>> 33).toNat, congruential state)

end Draws

inductive DrawFault where
  | emptySequence
  | emptyRange
  deriving DecidableEq, Repr

def DrawFault.message : DrawFault → String
  | emptySequence => "empty sequence"
  | emptyRange => "empty range"

abbrev Gen := EStateM DrawFault Draws

namespace Gen

variable {α : Type}

def draw : Gen Int := fun s => .ok s.next.1 s.next.2

def below (n : Nat) : Gen Nat :=
  if n = 0 then throw .emptyRange else return (← draw).emod n |>.toNat

/-- A number from `low` on, one of `count` many. -/
def among (low count : Nat) : Gen Nat := (low + ·) <$> below count

def choose : List α → Gen α
  | [] => throw .emptySequence
  | x :: rest => return (x :: rest).getD (← below (rest.length + 1)) x

def permille : Gen Nat := return (← draw).emod 1000 |>.toNat

/-- True as often as the given number of thousandths. -/
def chance (thousandths : Nat) : Gen Bool := return (← permille) < thousandths

def times : (n : Nat) → Gen α → Gen (List α)
  | 0, _ => return []
  | n + 1, g => do
    let first ← g
    let rest ← times n g
    return first :: rest

/-- Something random, as often as the given number of thousandths. -/
def sometimes (thousandths : Nat) (g : Gen α) : Gen (Option α) := do
  if ← chance thousandths then some <$> g else return none

end Gen

end ClassDiagram.Fuzz
