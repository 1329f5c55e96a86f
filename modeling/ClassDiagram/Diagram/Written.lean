import ClassDiagram.Diagram.Basic
import ClassDiagram.Token.Label

/-!
# Writing declarations

How the parts of a diagram are written: one space where a space is wanted, commas between
parameters, and labels with escapes for the quote, the backslash and the line feed.
-/

namespace ClassDiagram

namespace Label

def escape (c : Char) : List Char :=
  if c = '"' then ['\\', '"']
  else if c = '\\' then ['\\', '\\']
  else if c = '\n' then ['\\', 'n']
  else [c]

/-- A label between its quotes. -/
def written (label : List Char) : List Char := '"' :: (label.flatMap escape ++ ['"'])

end Label

/-- A text after the text that introduces it, if there is one. -/
def writtenAfter (introduction : List Char) : Option String → List Char
  | none => []
  | some s => introduction ++ s.toList

namespace Field

def written (f : Field) : List Char :=
  (f.visibility.map Visibility.mark).toList ++ f.name.toList ++
    writtenAfter [':', ' '] f.valueType ++ writtenAfter [' ', '=', ' '] f.defaultValue

end Field

namespace Method

def written (m : Method) : List Char :=
  (m.visibility.map Visibility.mark).toList ++ m.name.toList ++
    '(' :: ([',', ' '].intercalate (m.parameters.map Field.written) ++ [')']) ++
    writtenAfter [':', ' '] m.returnType

end Method

namespace Member

def written : Member → List Char
  | field f => f.written
  | method m => m.written

end Member

end ClassDiagram
