import ClassDiagram.Text.Blank
import ClassDiagram.Text.Decimal
import ClassDiagram.Text.Digits

/-!
# Numerals

Numbers given on a command line may be written with the decimal digits of any script, with single
underscores between digits, and with white space around them; the information separators are no
white space here.  Whole numbers have a limited number of digits.  Other numbers may have a point
and an exponent, and infinity and the absence of a number have names.
-/

namespace ClassDiagram.Text

/-- The code points of the digits zero; the other digits of a script follow its zero. -/
def zeros : List Nat :=
  [0x30, 0x660, 0x6F0, 0x7C0, 0x966, 0x9E6, 0xA66, 0xAE6, 0xB66, 0xBE6, 0xC66, 0xCE6, 0xD66, 0xDE6,
    0xE50, 0xED0, 0xF20, 0x1040, 0x1090, 0x17E0, 0x1810, 0x1946, 0x19D0, 0x1A80, 0x1A90, 0x1B50,
    0x1BB0, 0x1C40, 0x1C50, 0xA620, 0xA8D0, 0xA900, 0xA9D0, 0xA9F0, 0xAA50, 0xABF0, 0xFF10, 0x104A0,
    0x10D30, 0x11066, 0x110F0, 0x11136, 0x111D0, 0x112F0, 0x11450, 0x114D0, 0x11650, 0x116C0,
    0x11730, 0x118E0, 0x11950, 0x11C50, 0x11D50, 0x11DA0, 0x16A60, 0x16AC0, 0x16B50, 0x1D7CE,
    0x1D7D8, 0x1D7E2, 0x1D7EC, 0x1D7F6, 0x1E140, 0x1E2F0, 0x1E950, 0x1FBF0]

def digitValue? (c : Char) : Option Nat :=
  (zeros.find? fun first => first ≤ c.toNat && c.toNat < first + 10).map (c.toNat - ·)

def isDecimalDigit (c : Char) : Bool := (digitValue? c).isSome

/-- White space that may stand around a numeral: all but the information separators. -/
def isMargin (c : Char) : Bool := isBlank c && !(0x1C ≤ c.toNat && c.toNat ≤ 0x1F)

/-- Text without the white space at its ends. -/
def trimMargins (text : List Char) : List Char :=
  ((text.dropWhile isMargin).reverse.dropWhile isMargin).reverse

/-- The sign at the start of a numeral, true for a minus, and the rest. -/
def takeSign : List Char → Bool × List Char
  | '-' :: rest => (true, rest)
  | '+' :: rest => (false, rest)
  | text => (false, text)

/-- The values of the digits that come next, with single underscores between digits, and the rest.
An underscore that no digit follows is left where it is. -/
def takeDigits : List Char → List Nat × List Char
  | [] => ([], [])
  | c :: rest =>
    match digitValue? c with
    | none => ([], c :: rest)
    | some d =>
      match rest with
      | '_' :: e :: more =>
        if isDecimalDigit e then
          let after := takeDigits (e :: more)
          (d :: after.1, after.2)
        else ([d], rest)
      | rest =>
        let after := takeDigits rest
        (d :: after.1, after.2)

def ofDigits (digits : List Nat) : Nat := digits.foldl (fun n d => n * 10 + d) 0

def negateIf (negative : Bool) (n : Int) : Int := if negative then -n else n

def int? (text : String) : Option Int :=
  let signed := takeSign (trimMargins text.toList)
  match takeDigits signed.2 with
  | ([], _) => none
  | (digits, []) =>
    if digits.length ≤ maxDigits then some (negateIf signed.1 (ofDigits digits)) else none
  | _ => none

/-- The exponent that a text consists of; the empty text is the exponent zero. -/
def exponent? : List Char → Option Int
  | [] => some 0
  | e :: rest =>
    if e = 'e' ∨ e = 'E' then
      let signed := takeSign rest
      match takeDigits signed.2 with
      | ([], _) => none
      | (digits, []) => some (negateIf signed.1 (ofDigits digits))
      | _ => none
    else none

/-- The decimal that a text without sign and margins writes. -/
def decimal? (text : List Char) : Option Decimal :=
  let whole := takeDigits text
  let fraction : List Nat × List Char :=
    match whole.2 with
    | '.' :: rest => takeDigits rest
    | rest => ([], rest)
  if whole.1 = [] ∧ fraction.1 = [] then none
  else
    (exponent? fraction.2).map fun e =>
      ⟨ofDigits (whole.1 ++ fraction.1), e - (fraction.1.length : Int)⟩

/-- The floating-point number that a text without sign and margins writes. -/
def unsignedFloat? (text : List Char) : Option Float :=
  let lower := String.ofList (text.map Char.toLower)
  if lower = "inf" ∨ lower = "infinity" then some (1.0 / 0.0)
  else if lower = "nan" then some (0.0 / 0.0)
  else (decimal? text).map Decimal.toFloat

def float? (text : String) : Option Float :=
  let signed := takeSign (trimMargins text.toList)
  (unsignedFloat? signed.2).map fun x => if signed.1 then -x else x

end ClassDiagram.Text
