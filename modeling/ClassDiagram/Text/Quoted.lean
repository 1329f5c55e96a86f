import ClassDiagram.Text.Hex
import ClassDiagram.Text.Printable

/-!
# Quoted text

Messages show a piece of text between quotes, so that blanks and control characters in it can be
seen.  Apostrophes are the usual quotes; text that holds an apostrophe and no double quote is put
between double quotes instead.  The quote in use and the backslash get a backslash before them,
line feed, carriage return and tab have letters of their own, and every other character that is
not printable is written as its code point with two, four or eight hexadecimal digits.
-/

namespace ClassDiagram.Text

def quoteFor (cs : List Char) : Char :=
  if cs.contains '\x27' && !cs.contains '"' then '"' else '\x27'

/-- A character written as its code point. -/
def escaped (c : Char) : List Char :=
  if c.toNat ≤ 0xFF then '\\' :: 'x' :: hex 2 c.toNat
  else if c.toNat ≤ 0xFFFF then '\\' :: 'u' :: hex 4 c.toNat
  else '\\' :: 'U' :: hex 8 c.toNat

/-- One character of quoted text, as it is written between the given quotes. -/
def quoteChar (quote c : Char) : List Char :=
  if c == quote || c == '\\' then ['\\', c]
  else if c == '\n' then ['\\', 'n']
  else if c == '\r' then ['\\', 'r']
  else if c == '\t' then ['\\', 't']
  else if isPrintable c then [c]
  else escaped c

def quotedChars (cs : List Char) : List Char :=
  let quote := quoteFor cs
  quote :: (cs.flatMap (quoteChar quote) ++ [quote])

def quoted (s : String) : String :=
  String.ofList (quotedChars s.toList)

end ClassDiagram.Text
