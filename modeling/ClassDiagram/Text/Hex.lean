/-!
# Hexadecimal numerals of a fixed width

Escapes in quoted text write a code point with a fixed number of hexadecimal digits, leading
zeros included, in lower or upper case as the format asks.
-/

namespace ClassDiagram.Text

def hexDigit (n : Nat) : Char :=
  if n < 10 then Char.ofNat (0x30 + n) else Char.ofNat (0x57 + n)

def hex : Nat → Nat → List Char
  | 0, _ => []
  | width + 1, n => hex width (n / 16) ++ [hexDigit (n % 16)]

def hexUpper (width n : Nat) : List Char :=
  (hex width n).map Char.toUpper

@[simp] theorem hex_zero (n : Nat) : hex 0 n = [] := rfl

theorem length_hex (width n : Nat) : (hex width n).length = width := by
  induction width generalizing n with
  | zero => rfl
  | succ width ih => simp [hex, ih]

theorem length_hexUpper (width n : Nat) : (hexUpper width n).length = width := by
  simp [hexUpper, length_hex]

end ClassDiagram.Text
