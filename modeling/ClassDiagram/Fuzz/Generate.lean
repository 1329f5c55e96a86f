import ClassDiagram.Fuzz.Draws
import ClassDiagram.Fuzz.Sketch

/-!
# Random documents

Names are mostly taken from a small pool, so that they meet each other and look like other things:
`o` begins an operator, and `42` a number.  Labels may hold any printable character that does not
end or break a label.
-/

namespace ClassDiagram.Fuzz.Gen

def digits : List Char := "0123456789".toList

def letters : List Char := "abcdefghijklmnopqrstuvwxyzABCDEFGHIJKLMNOPQRSTUVWXYZ".toList

def labelAlphabet : List Char :=
  digits ++ letters ++ "!#$%&'()*+,-./:;<=>?@[]^_\x60\x7b|\x7d~ \t\x0b\x0c".toList

def namePool : List String :=
  ["x", "y", "foo", "bar", "A", "B", "Customer", "Order", "o", "_id", "42"]

def typePool : List String :=
  ["int", "string", "bool", "float", "List", "Map", "Order", "void"]

def labelPool : List String := ["", "1", "*", "0..1", "many", "has a"]

def identifier : Gen String := do
  if ← chance 700 then choose namePool
  else
    let length ← among 1 20
    let first ← choose (letters ++ ['_'])
    let rest ← times (length - 1) (choose (letters ++ digits ++ ['_']))
    return String.ofList (first :: rest)

def label : Gen (List Char) := do
  if ← chance 200 then String.toList <$> choose labelPool
  else
    let length ← below 21
    times length (choose labelAlphabet)

def typeName : Gen String := do
  let base ← choose typePool
  return if ← chance 300 then base ++ "[]" else base

def visibility : Gen (Option Visibility) := sometimes 500 (choose Visibility.all)

/-- A field, or a parameter, which has no visibility. -/
def field (withVisibility : Bool) : Gen Field := do
  let name ← identifier
  let visibility ← if withVisibility then visibility else pure none
  let valueType ← sometimes 600 typeName
  let defaultValue ← sometimes 200 identifier
  return { name, visibility, valueType, defaultValue }

def method : Gen Method := do
  let name ← identifier
  let visibility ← visibility
  let count ← below 4
  let parameters ← times count (field false)
  let returnType ← sometimes 500 typeName
  return { name, visibility, parameters, returnType }

def member : Gen Member := do
  if ← chance 500 then Member.field <$> field true else Member.method <$> method

def members : Gen (List Member) := do
  let count ← below 5
  times count member

def relationship : Gen SketchedRelationship := do
  let source ← identifier
  let left ← sometimes 300 label
  let operator ← choose Operator.table
  let right ← sometimes 300 label
  let target ← identifier
  let middle ← sometimes 300 label
  return { source, left, operator, right, target, middle }

def sketch : Gen Sketch := do
  match ← below 3 with
  | 0 =>
    let name ← identifier
    let body ← sometimes 700 members
    return .classDeclaration name body
  | 1 => Sketch.interfaceDeclaration <$> identifier
  | _ => Sketch.relationship <$> relationship

def sketches : Gen (List Sketch) := do
  let count ← among 1 5
  times count sketch

def document : Gen String := (String.ofList ∘ Sketch.writtenAll) <$> sketches

end ClassDiagram.Fuzz.Gen
