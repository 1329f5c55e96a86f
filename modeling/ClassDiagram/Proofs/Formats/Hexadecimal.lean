import ClassDiagram.Text.Hex
import Mathlib.Algebra.Group.Nat.Defs
import Mathlib.Data.List.Basic

/-!
# Reading hexadecimal numerals

Digits may be written in either case.  What is written with enough digits is read back.
-/

namespace ClassDiagram.Text

def hexValue? (c : Char) : Option Nat :=
  if '0' ≤ c ∧ c ≤ '9' then some (c.toNat - 0x30)
  else if 'a' ≤ c ∧ c ≤ 'f' then some (c.toNat - 0x57)
  else if 'A' ≤ c ∧ c ≤ 'F' then some (c.toNat - 0x37)
  else none

/-- The number that hexadecimal digits write, after digits that have come to `n` before them. -/
def hexNumber? (n : Nat) : List Char → Option Nat
  | [] => some n
  | c :: rest =>
    match hexValue? c with
    | some d => hexNumber? (16 * n + d) rest
    | none => none

/-- Every character of a numeral is a digit. -/
theorem exists_of_mem_hex {width n : Nat} {c : Char} (h : c ∈ hex width n) :
    ∃ d < 16, c = hexDigit d := by
  induction width generalizing n with
  | zero => cases h
  | succ width ih =>
      rcases List.mem_append.mp h with h | h
      · exact ih h
      · exact ⟨n % 16, Nat.mod_lt _ (by decide), List.mem_singleton.mp h⟩

theorem hexValue?_hexDigit {n : Nat} (h : n < 16) : hexValue? (hexDigit n) = some n := by
  have hall : ∀ m < 16, hexValue? (hexDigit m) = some m := by decide
  exact hall n h

theorem hexValue?_toUpper_hexDigit {n : Nat} (h : n < 16) :
    hexValue? (hexDigit n).toUpper = some n := by
  have hall : ∀ m < 16, hexValue? (hexDigit m).toUpper = some m := by decide
  exact hall n h

theorem hexNumber?_append (n : Nat) (digits more : List Char) :
    hexNumber? n (digits ++ more) = (hexNumber? n digits).bind (hexNumber? · more) := by
  induction digits generalizing n with
  | nil => rfl
  | cons c digits ih =>
      simp only [List.cons_append, hexNumber?]
      cases hexValue? c with
      | none => rfl
      | some d => exact ih _

/-- Digits that are those of a numeral, up to the way that they are written, are read as it. -/
theorem hexNumber?_map_hex {f : Char → Char}
    (hf : ∀ n < 16, hexValue? (f (hexDigit n)) = some n) (width n : Nat) (h : n < 16 ^ width) :
    hexNumber? 0 ((hex width n).map f) = some n := by
  induction width generalizing n with
  | zero =>
      have hn : n = 0 := by simpa using h
      rw [hn]
      rfl
  | succ width ih =>
      have hquotient : n / 16 < 16 ^ width := by
        rw [Nat.div_lt_iff_lt_mul (by decide)]
        rwa [Nat.pow_succ] at h
      have hlast : hexValue? (f (hexDigit (n % 16))) = some (n % 16) :=
        hf _ (Nat.mod_lt _ (by decide))
      rw [hex, List.map_append, hexNumber?_append, ih _ hquotient]
      simp only [Option.bind_some, List.map_cons, List.map_nil, hexNumber?, hlast]
      rw [Nat.div_add_mod]

theorem hexNumber?_hex {width n : Nat} (h : n < 16 ^ width) :
    hexNumber? 0 (hex width n) = some n := by
  simpa using hexNumber?_map_hex (f := id) (fun _ => hexValue?_hexDigit) width n h

theorem hexNumber?_hexUpper {width n : Nat} (h : n < 16 ^ width) :
    hexNumber? 0 (hexUpper width n) = some n :=
  hexNumber?_map_hex (fun _ => hexValue?_toUpper_hexDigit) width n h

end ClassDiagram.Text
