import ClassDiagram.Text.Quoted

/-!
# Encodings of what is printed

Standard output encodes what is printed on it.  Every encoding has the characters of ASCII, and
UTF-8 has all others as well, while some have only a few of them.  A text with a character that the
encoding lacks is not printed at all; the failure tells where the first such character stands, and
how many follow it.
-/

namespace ClassDiagram.Text

structure Encoding where
  name : String
  /-- What is said of characters that are lacking. -/
  reason : String
  encodes : Char → Bool
  encodes_ascii : ∀ c : Char, c.toNat < 0x80 → encodes c = true

namespace Encoding

def utf8 : Encoding where
  name := "utf-8"
  reason := "surrogates not allowed"
  encodes _ := true
  encodes_ascii _ _ := rfl

/-- Characters that an encoding lacks, one after the other, and the index of the first. -/
structure Fault where
  encoding : String
  reason : String
  position : Nat
  characters : List Char
  deriving DecidableEq, Repr

def Fault.message (e : Fault) : String :=
  "'" ++ e.encoding ++ "' codec can't encode " ++
    (match e.characters with
    | [c] =>
      "character '" ++ String.ofList (escaped c) ++ "' in position " ++ toString e.position
    | cs =>
      "characters in position " ++ toString e.position ++ "-" ++
        toString (e.position + cs.length - 1)) ++
    ": " ++ e.reason

def encodesAll (encoding : Encoding) (text : String) : Bool :=
  text.toList.all encoding.encodes

/-- Why a text cannot be encoded, if it cannot. -/
def fault? (encoding : Encoding) (text : String) : Option Fault :=
  if encoding.encodesAll text then none
  else
    some {
      encoding := encoding.name
      reason := encoding.reason
      position := (text.toList.takeWhile encoding.encodes).length
      characters :=
        (text.toList.dropWhile encoding.encodes).takeWhile fun c => !encoding.encodes c }

variable {encoding : Encoding} {text : String}

theorem fault?_eq_none (h : encoding.encodesAll text = true) : encoding.fault? text = none :=
  if_pos h

theorem encodesAll_utf8 (text : String) : utf8.encodesAll text = true :=
  List.all_eq_true.mpr fun _ _ => rfl

theorem encodesAll_of_ascii (encoding : Encoding) (h : ∀ c ∈ text.toList, c.toNat < 0x80) :
    encoding.encodesAll text = true :=
  List.all_eq_true.mpr fun c hc => encoding.encodes_ascii c (h c hc)

end Encoding

end ClassDiagram.Text
