import ClassDiagram.Text.Hex

/-!
# Strict UTF-8

A character is one byte below 0x80, or a lead byte from 0xC2 to 0xF4 followed by one, two or three
continuation bytes.  After 0xE0, 0xED, 0xF0 and 0xF4 the first continuation byte has a narrower
range, which keeps out overlong forms, surrogates and code points past the last one.

Decoding stops at the first fault and tells the bytes that are at fault: a byte that starts no
character, a character broken off by a byte that does not continue it, or one broken off by the end
of the text.
-/

namespace ClassDiagram.Text.Utf8

inductive Problem where
  | invalidStart
  | invalidContinuation
  | unexpectedEnd
  deriving DecidableEq, Repr

/-- Bytes that are no character: where they start, the first of them, and how many they are. -/
structure Fault where
  position : Nat
  byte : UInt8
  length : Nat
  problem : Problem
  deriving DecidableEq, Repr

def Problem.reason : Problem → String
  | invalidStart => "invalid start byte"
  | invalidContinuation => "invalid continuation byte"
  | unexpectedEnd => "unexpected end of data"

/-- Which bytes are at fault and what is wrong with them, in words. -/
def Fault.message (e : Fault) : String :=
  "'utf-8' codec can't decode " ++
    (if e.length = 1 then
      "byte 0x" ++ String.ofList (hex 2 e.byte.toNat) ++ " in position " ++ toString e.position
    else
      "bytes in position " ++ toString e.position ++ "-" ++ toString (e.position + e.length - 1)) ++
    ": " ++ e.problem.reason

structure ByteRange where
  first : UInt8
  last : UInt8
  deriving DecidableEq, Repr

def continuation : ByteRange := ⟨0x80, 0xBF⟩

/-- The bits that a lead byte contributes, and the ranges of the bytes that must follow it. -/
def lead? (b : UInt8) : Option (Nat × List ByteRange) :=
  if b < 0x80 then some (b.toNat, [])
  else if b < 0xC2 then none
  else if b < 0xE0 then some (b.toNat - 0xC0, [continuation])
  else if b = 0xE0 then some (0, [⟨0xA0, 0xBF⟩, continuation])
  else if b = 0xED then some (0xD, [⟨0x80, 0x9F⟩, continuation])
  else if b < 0xF0 then some (b.toNat - 0xE0, [continuation, continuation])
  else if b = 0xF0 then some (0, [⟨0x90, 0xBF⟩, continuation, continuation])
  else if b < 0xF4 then some (b.toNat - 0xF0, [continuation, continuation, continuation])
  else if b = 0xF4 then some (4, [⟨0x80, 0x8F⟩, continuation, continuation])
  else none

/-- What the bytes after a lead byte come to: the code point and the rest of the bytes, or how many
bytes were good before the fault. -/
inductive Tail where
  | complete (code : Nat) (rest : List UInt8)
  | broken (good : Nat) (problem : Problem)

/-- Reads the bytes after a lead byte, of which `good` bytes have been read with the value
`code`. -/
def tail (code good : Nat) : List ByteRange → List UInt8 → Tail
  | [], bytes => .complete code bytes
  | _ :: _, [] => .broken good .unexpectedEnd
  | r :: ranges, b :: bytes =>
    if r.first ≤ b ∧ b ≤ r.last then tail (code * 0x40 + (b.toNat - 0x80)) (good + 1) ranges bytes
    else .broken good .invalidContinuation

theorem length_le_of_tail {code good : Nat} {ranges : List ByteRange} {bytes rest : List UInt8}
    {code' : Nat} (h : tail code good ranges bytes = .complete code' rest) :
    rest.length ≤ bytes.length := by
  fun_induction tail code good ranges bytes with
  | case1 => cases h; exact Nat.le_refl _
  | case2 => cases h
  | case3 _ _ _ _ _ _ _ ih => exact Nat.le_succ_of_le (ih h)
  | case4 => cases h

/-- The characters of a sequence of bytes whose first byte stands at `position`. -/
def decodeFrom (position : Nat) : List UInt8 → Except Fault (List Char)
  | [] => .ok []
  | b :: bytes =>
    match lead? b with
    | none => .error ⟨position, b, 1, .invalidStart⟩
    | some (code, ranges) =>
      match h : tail code 1 ranges bytes with
      | .broken good problem => .error ⟨position, b, good, problem⟩
      | .complete code rest =>
        have := length_le_of_tail h
        (decodeFrom (position + 1 + ranges.length) rest).map (Char.ofNat code :: ·)
termination_by bytes => bytes.length

def decode (bytes : List UInt8) : Except Fault (List Char) := decodeFrom 0 bytes

end ClassDiagram.Text.Utf8
