import ClassDiagram.Text.Pattern

/-!
# Implicit types of plain scalars

A plain scalar that looks like a truth value, a null, a number, a timestamp, a merge key or a
default value is read as one.  Text that looks like one of these is therefore never written plain.
-/

namespace ClassDiagram.Yaml

open Text (Pattern)
open Text.Pattern

def digit : Pattern := range '0' '9'

def sign : Pattern := optional (anyOf ['-', '+'])

/-- Decimal digits and underscores, perhaps none. -/
def digitsOrUnderscores : Pattern := many (alt digit (anyOf ['_']))

/-- Sixtieths after a colon, at least once. -/
def sixtieths : Pattern :=
  Pattern.some (sequence [anyOf [':'], optional (range '0' '5'), digit])

def booleans : Pattern :=
  choice ([['y', 'e', 's'], ['Y', 'e', 's'], ['Y', 'E', 'S'], ['n', 'o'], ['N', 'o'], ['N', 'O'],
    ['t', 'r', 'u', 'e'], ['T', 'r', 'u', 'e'], ['T', 'R', 'U', 'E'], ['f', 'a', 'l', 's', 'e'],
    ['F', 'a', 'l', 's', 'e'], ['F', 'A', 'L', 'S', 'E'], ['o', 'n'], ['O', 'n'], ['O', 'N'],
    ['o', 'f', 'f'], ['O', 'f', 'f'], ['O', 'F', 'F']].map word)

/-- The spellings of null, the empty text among them. -/
def nulls : Pattern :=
  choice ([[], ['~'], ['n', 'u', 'l', 'l'], ['N', 'u', 'l', 'l'], ['N', 'U', 'L', 'L']].map word)

/-- The default value and the merge key. -/
def keys : Pattern := choice ([['='], ['<', '<']].map word)

/-- Integers: binary, octal, decimal, hexadecimal, and in sixtieths. -/
def integers : Pattern :=
  choice [
    sequence [sign, word ['0', 'b'], Pattern.some (anyOf ['0', '1', '_'])],
    sequence [sign, anyOf ['0'], Pattern.some (alt (range '0' '7') (anyOf ['_']))],
    sequence [sign, alt (anyOf ['0']) (seq (range '1' '9') digitsOrUnderscores)],
    sequence [sign, word ['0', 'x'], Pattern.some
      (choice [digit, range 'a' 'f', range 'A' 'F', anyOf ['_']])],
    sequence [sign, range '1' '9', digitsOrUnderscores, sixtieths]]

def exponent : Pattern :=
  optional (sequence [anyOf ['e', 'E'], anyOf ['-', '+'], Pattern.some digit])

/-- Numbers with a point, infinities, and what is not a number. -/
def floats : Pattern :=
  choice [
    sequence [sign, digit, digitsOrUnderscores, anyOf ['.'], digitsOrUnderscores, exponent],
    sequence [anyOf ['.'], digit, digitsOrUnderscores, exponent],
    sequence [sign, digit, digitsOrUnderscores, sixtieths, anyOf ['.'], digitsOrUnderscores],
    sequence [sign, anyOf ['.'],
      choice ([['i', 'n', 'f'], ['I', 'n', 'f'], ['I', 'N', 'F']].map word)],
    sequence [anyOf ['.'],
      choice ([['n', 'a', 'n'], ['N', 'a', 'N'], ['N', 'A', 'N']].map word)]]

def upToTwoDigits : Pattern := seq digit (optional digit)

def twoDigits : Pattern := seq digit digit

def blank : Pattern := anyOf [' ', '\t']

/-- A time zone: `Z`, or hours and perhaps minutes with a sign. -/
def zone : Pattern :=
  alt (anyOf ['Z'])
    (sequence [anyOf ['-', '+'], upToTwoDigits, optional (seq (anyOf [':']) twoDigits)])

def timestamps : Pattern :=
  let year := sequence [digit, digit, digit, digit]
  let dash := anyOf ['-']
  let colon := anyOf [':']
  choice [
    sequence [year, dash, twoDigits, dash, twoDigits],
    sequence [year, dash, upToTwoDigits, dash, upToTwoDigits,
      alt (anyOf ['T', 't']) (Pattern.some blank),
      upToTwoDigits, colon, twoDigits, colon, twoDigits,
      optional (seq (anyOf ['.']) (many digit)),
      optional (seq (many blank) zone)]]

/-- Whether a plain scalar is read as something else than text. -/
def isTyped (text : List Char) : Bool :=
  booleans.accepts text || nulls.accepts text || keys.accepts text || integers.accepts text ||
    floats.accepts text || timestamps.accepts text

end ClassDiagram.Yaml
