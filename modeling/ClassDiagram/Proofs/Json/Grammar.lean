import ClassDiagram.Proofs.Formats.Hexadecimal
import ClassDiagram.Proofs.Formats.Textual
import ClassDiagram.Record.Json
import ClassDiagram.Text.Numeral

/-!
# The grammar of JSON

What texts are well-formed, and what each part of them says.  Between quotes stand characters from
the space on, other than quote and backslash, and escapes; two escapes that are the halves of a
UTF-16 pair stand for one character.  A number without point and exponent is whole, and of two
members with one name the later one counts.
-/

namespace ClassDiagram.Json

def isBlank (c : Char) : Bool := c == ' ' || c == '\t' || c == '\n' || c == '\r'

/-- Text between the parts of a value, which says nothing. -/
def Blanks (text : List Char) : Prop := ∀ c ∈ text, isBlank c = true

/-- The code that a backslash and the letter stand for. -/
def letterCode? (c : Char) : Option Nat :=
  [('"', 0x22), ('\\', 0x5C), ('/', 0x2F), ('b', 0x08), ('f', 0x0C), ('n', 0x0A), ('r', 0x0D),
    ('t', 0x09)].lookup c

/-- What stands between quotes, and its codes: one for each character or escape. -/
inductive Codes : List Char → List Nat → Prop
  | nil : Codes [] []
  | character {c : Char} {text : List Char} {codes : List Nat} (hcontrol : 0x20 ≤ c.toNat)
      (hquote : c ≠ '"') (hbackslash : c ≠ '\\') (h : Codes text codes) :
      Codes (c :: text) (c.toNat :: codes)
  | letter {c : Char} {code : Nat} {text : List Char} {codes : List Nat}
      (hcode : letterCode? c = some code) (h : Codes text codes) :
      Codes ('\\' :: c :: text) (code :: codes)
  | number {a b c d : Char} {code : Nat} {text : List Char} {codes : List Nat}
      (hcode : Text.hexNumber? 0 [a, b, c, d] = some code) (h : Codes text codes) :
      Codes ('\\' :: 'u' :: a :: b :: c :: d :: text) (code :: codes)

/-- The characters that codes stand for; halves of pairs stand for none on their own. -/
def characters? : List Nat → Option (List Char)
  | [] => some []
  | code :: rest =>
    if 0xD800 ≤ code ∧ code < 0xDC00 then
      match rest with
      | [] => none
      | low :: rest =>
        if 0xDC00 ≤ low ∧ low < 0xE000 then
          (characters? rest).map
            (Char.ofNat (0x10000 + (code - 0xD800) * 0x400 + (low - 0xDC00)) :: ·)
        else none
    else if 0xDC00 ≤ code ∧ code < 0xE000 then none
    else (characters? rest).map (Char.ofNat code :: ·)

/-- A text in quotes, and what it says. -/
inductive Quoted : List Char → String → Prop
  | mk {text : List Char} {codes : List Nat} {chars : List Char} (h : Codes text codes)
      (hchars : characters? codes = some chars) : Quoted ('"' :: (text ++ ['"'])) (.ofList chars)

/-- A number in its parts: whether there is a minus, the digits before the point and those after it,
and the exponent with the characters before its digits. -/
structure Numeral where
  negative : Bool
  whole : List Char
  fraction : Option (List Char)
  exponent : Option (List Char × List Char)

namespace Numeral

def digitsOf (digits : List Char) : List Nat := digits.map fun c => c.toNat - 0x30

def text (m : Numeral) : List Char :=
  (if m.negative then ['-'] else []) ++ m.whole ++
    (match m.fraction with
      | none => []
      | some digits => '.' :: digits) ++
    match m.exponent with
    | none => []
    | some (mark, digits) => mark ++ digits

/-- Every part has digits, and zeros come first only where one stands alone. -/
structure WellFormed (m : Numeral) : Prop where
  whole : m.whole ≠ [] ∧ m.whole.all Char.isDigit = true ∧
    (m.whole.head? = some '0' → m.whole = ['0'])
  fraction : ∀ digits ∈ m.fraction, digits ≠ [] ∧ digits.all Char.isDigit = true
  exponent : ∀ e ∈ m.exponent,
    e.1 ∈ [['e'], ['E'], ['e', '+'], ['E', '+'], ['e', '-'], ['E', '-']] ∧
    e.2 ≠ [] ∧ e.2.all Char.isDigit = true

def exponentValue (m : Numeral) : Int :=
  match m.exponent with
  | none => 0
  | some (mark, digits) => Text.negateIf (mark.contains '-') (Text.ofDigits (digitsOf digits))

def value (m : Numeral) : Value :=
  if m.fraction = none ∧ m.exponent = none then
    .int (Text.negateIf m.negative (Text.ofDigits (digitsOf m.whole)))
  else
    let fraction := m.fraction.getD []
    let x := Text.Decimal.toFloat
      ⟨Text.ofDigits (digitsOf (m.whole ++ fraction)), m.exponentValue - fraction.length⟩
    .float (if m.negative then -x else x)

end Numeral

mutual

/-- A text, without blanks around it, and the value that it denotes. -/
inductive Denotes : List Char → Value → Prop
  | null : Denotes ['n', 'u', 'l', 'l'] .null
  | true : Denotes ['t', 'r', 'u', 'e'] (.bool Bool.true)
  | false : Denotes ['f', 'a', 'l', 's', 'e'] (.bool Bool.false)
  | number {m : Numeral} (h : m.WellFormed) : Denotes m.text m.value
  | text {text : List Char} {s : String} (h : Quoted text s) : Denotes text (.text s)
  | emptyList {blanks : List Char} (h : Blanks blanks) :
      Denotes ('[' :: (blanks ++ [']'])) (.list [])
  | list {text : List Char} {items : List Value} (h : Elements text items) :
      Denotes ('[' :: (text ++ [']'])) (.list items)
  | emptyRecord {blanks : List Char} (h : Blanks blanks) :
      Denotes ('\x7b' :: (blanks ++ ['\x7d'])) (.record [])
  | record {text : List Char} {entries : List (String × Value)} (h : Members text entries) :
      Denotes ('\x7b' :: (text ++ ['\x7d'])) (.gather entries)

/-- What stands between the brackets of a list that is not empty. -/
inductive Elements : List Char → List Value → Prop
  | one {before text after : List Char} {v : Value} (hbefore : Blanks before) (h : Denotes text v)
      (hafter : Blanks after) : Elements (before ++ text ++ after) [v]
  | more {before text after rest : List Char} {v : Value} {items : List Value}
      (hbefore : Blanks before) (h : Denotes text v) (hafter : Blanks after)
      (hrest : Elements rest items) :
      Elements (before ++ text ++ after ++ ',' :: rest) (v :: items)

/-- What stands between the braces of a record that is not empty. -/
inductive Members : List Char → List (String × Value) → Prop
  | one {text : List Char} {e : String × Value} (h : Member text e) : Members text [e]
  | more {text rest : List Char} {e : String × Value} {entries : List (String × Value)}
      (h : Member text e) (hrest : Members rest entries) :
      Members (text ++ ',' :: rest) (e :: entries)

/-- A name, a colon and a value, with blanks around them. -/
inductive Member : List Char → String × Value → Prop
  | mk {before name middle middle' text after : List Char} {key : String} {v : Value}
      (hbefore : Blanks before) (hname : Quoted name key) (hmiddle : Blanks middle)
      (hmiddle' : Blanks middle') (h : Denotes text v) (hafter : Blanks after) :
      Member (before ++ name ++ middle ++ ':' :: (middle' ++ text ++ after)) (key, v)

end

/-- A whole text: a value with blanks around it. -/
inductive IsText : List Char → Value → Prop
  | mk {before text after : List Char} {v : Value} (hbefore : Blanks before) (h : Denotes text v)
      (hafter : Blanks after) : IsText (before ++ text ++ after) v

end ClassDiagram.Json
