import ClassDiagram.Record.Value
import ClassDiagram.Yaml.Scalar

/-!
# Values as YAML

Records and lists are written in block style, an entry or item a line: the entries of a record
inside another are indented by two columns, the items of a list under a key are not.  Empty lists
and records are written in place.
-/

namespace ClassDiagram.Yaml

/-- Floating-point numbers as YAML has them: only with a point is a number read as one of these. -/
def floatStyle : Text.FloatStyle := ⟨".inf", ".nan", true⟩

/-- What is written for a value that is neither list nor record; continuation lines are indented by
`indent`, and the first character stands in the column `column`. -/
def scalar (indent column : Nat) : Value → List Char
  | .null => ['n', 'u', 'l', 'l']
  | .bool true => ['t', 'r', 'u', 'e']
  | .bool false => ['f', 'a', 'l', 's', 'e']
  | .int n => (toString n).toList
  | .float x => (floatStyle.write x).toList
  | .text s => write indent column s.toList (styleOf s.toList)
  | .list _ => ['[', ']']
  | .record _ => ['\x7b', '\x7d']

/-- Whether a key can be followed by its colon: it is not empty, has no line break, and is short. -/
def isSimpleKey (key : List Char) : Bool :=
  key ≠ [] && key.length ≤ 122 &&
    key.all fun c => c != '\n' && c != '\x85' && c != '\u2028' && c != '\u2029'

/-- A text on one line, whatever its length. -/
def simpleKey (key : List Char) : List Char :=
  match styleOf key with
  | .plain => key
  | .single => '\x27' :: (key.flatMap (fun c => if c = '\x27' then [c, c] else [c]) ++ ['\x27'])
  | .double => '"' :: (key.flatMap (fun c => (escape? c).getD [c]) ++ ['"'])

/-- What a value stands beside: its key, or the mark of an item. -/
inductive Beside where
  | key
  | mark
  deriving DecidableEq, Repr

/-- The key of an entry with all that comes before the value; what the value then stands beside; and
the column in which a value on the same line starts. -/
structure Lead where
  text : List Char
  beside : Beside
  column : Nat

/-- The key of an entry.  One that is not simple has a line of its own, and a mark before it. -/
def lead (indent : Nat) (key : String) : Lead :=
  if isSimpleKey key.toList then
    ⟨simpleKey key.toList ++ [':'], .key, indent + (simpleKey key.toList).length + 2⟩
  else
    ⟨'?' :: ' ' :: (scalar (indent + 2) (indent + 2) (.text key) ++ newline indent ++ [':']), .mark,
      indent + 2⟩

def beforeItems (indent : Nat) : Beside → List Char
  | .key => newline indent
  | .mark => [' ']

def itemIndent (indent : Nat) : Beside → Nat
  | .key => indent
  | .mark => indent + 2

def beforeEntries (indent : Nat) : Beside → List Char
  | .key => newline (indent + 2)
  | .mark => [' ']

mutual

/-- A value that stands beside a key or a mark in a block with the given indentation. -/
def value (indent column : Nat) (beside : Beside) : Value → List Char
  | .list (v :: rest) =>
    let inner := itemIndent indent beside
    beforeItems indent beside ++ '-' :: value inner (inner + 2) .mark v ++ moreItems inner rest
  | .record ((key, v) :: rest) =>
    let first := lead (indent + 2) key
    beforeEntries indent beside ++ first.text ++
      value (indent + 2) first.column first.beside v ++ moreEntries (indent + 2) rest
  | v => ' ' :: scalar (indent + 2) column v

/-- The items of a list after the first, each on a new line. -/
def moreItems (indent : Nat) : List Value → List Char
  | [] => []
  | v :: rest => newline indent ++ '-' :: value indent (indent + 2) .mark v ++ moreItems indent rest

/-- The entries of a record after the first, each on a new line. -/
def moreEntries (indent : Nat) : List (String × Value) → List Char
  | [] => []
  | (key, v) :: rest =>
    let next := lead indent key
    newline indent ++ next.text ++ value indent next.column next.beside v ++
      moreEntries indent rest

end

def document : Value → List Char
  | .list (v :: rest) => '-' :: value 0 2 .mark v ++ moreItems 0 rest
  | .record ((key, v) :: rest) =>
    let first := lead 0 key
    first.text ++ value 0 first.column first.beside v ++ moreEntries 0 rest
  | v => scalar 2 0 v

def render (v : Value) : String :=
  String.ofList (document v ++ ['\n'])

end ClassDiagram.Yaml
