import ClassDiagram.Record.Value
import ClassDiagram.Text.Hex

/-!
# Values as JSON

Values are written in ASCII: every other character, and the delete character, is escaped by its
UTF-16 code units.  Without an indent all stands on one line, separated by commas and blanks; with
one, every item and entry has a line of its own, indented by its depth, and only empty lists and
records stay on theirs.
-/

namespace ClassDiagram.Json

/-- The escape of a UTF-16 code unit. -/
def escapeUnit (unit : Nat) : List Char := '\\' :: 'u' :: Text.hex 4 unit

def escape (c : Char) : List Char :=
  if c = '"' then ['\\', '"']
  else if c = '\\' then ['\\', '\\']
  else if c = '\n' then ['\\', 'n']
  else if c = '\r' then ['\\', 'r']
  else if c = '\t' then ['\\', 't']
  else if c = '\x08' then ['\\', 'b']
  else if c = '\x0c' then ['\\', 'f']
  else if 0x20 ≤ c.toNat ∧ c.toNat ≤ 0x7E then [c]
  else if c.toNat < 0x10000 then escapeUnit c.toNat
  else
    escapeUnit (0xD800 + (c.toNat - 0x10000) / 0x400) ++
      escapeUnit (0xDC00 + (c.toNat - 0x10000) % 0x400)

def string (s : String) : List Char :=
  '"' :: (s.toList.flatMap escape ++ ['"'])

/-- Floating-point numbers as JSON has them, with names for those that it does not have. -/
def floatStyle : Text.FloatStyle := ⟨"Infinity", "NaN", false⟩

/-- What stands before an item at the given depth: a new line and its indentation, or nothing where
all stands on one line. -/
def lead (indent : Option Nat) (depth : Nat) : List Char :=
  match indent with
  | none => []
  | some n => '\n' :: List.replicate (n * depth) ' '

/-- What stands between two items at the given depth. -/
def separator (indent : Option Nat) (depth : Nat) : List Char :=
  match indent with
  | none => [',', ' ']
  | some _ => ',' :: lead indent depth

mutual

/-- A value whose line lies at the given depth. -/
def write (indent : Option Nat) (depth : Nat) : Value → List Char
  | .null => ['n', 'u', 'l', 'l']
  | .bool true => ['t', 'r', 'u', 'e']
  | .bool false => ['f', 'a', 'l', 's', 'e']
  | .int n => (toString n).toList
  | .float x => (floatStyle.write x).toList
  | .text s => string s
  | .list [] => ['[', ']']
  | .list (v :: rest) =>
    '[' :: (lead indent (depth + 1) ++ write indent (depth + 1) v ++
      writeItems indent (depth + 1) rest ++ lead indent depth ++ [']'])
  | .record [] => ['\x7b', '\x7d']
  | .record ((key, v) :: rest) =>
    '\x7b' :: (lead indent (depth + 1) ++ string key ++ [':', ' '] ++ write indent (depth + 1) v ++
      writeEntries indent (depth + 1) rest ++ lead indent depth ++ ['\x7d'])

/-- The items of a list after the first, each with the separator before it. -/
def writeItems (indent : Option Nat) (depth : Nat) : List Value → List Char
  | [] => []
  | v :: rest => separator indent depth ++ write indent depth v ++ writeItems indent depth rest

/-- The entries of a record after the first, each with the separator before it. -/
def writeEntries (indent : Option Nat) (depth : Nat) : List (String × Value) → List Char
  | [] => []
  | (key, v) :: rest =>
    separator indent depth ++ string key ++ [':', ' '] ++ write indent depth v ++
      writeEntries indent depth rest

end

def render (indent : Option Nat) (v : Value) : String :=
  String.ofList (write indent 0 v)

end ClassDiagram.Json
