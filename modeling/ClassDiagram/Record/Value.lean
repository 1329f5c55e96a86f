import ClassDiagram.Text.Digits
import ClassDiagram.Text.Quoted
import ClassDiagram.Text.Shortest

/-!
# Plain values

The values that data formats exchange: null, truth values, integers, floating-point numbers, text,
lists, and records whose entries keep their order.
-/

namespace ClassDiagram

inductive Value where
  | null
  | bool (b : Bool)
  | int (n : Int)
  | float (x : Float)
  | text (s : String)
  | list (items : List Value)
  | record (entries : List (String × Value))
  deriving Repr, Inhabited

namespace Value

/-- Text, or null where there is none. -/
def ofText? : Option String → Value
  | none => null
  | some s => text s

def isNull : Value → Bool
  | null => true
  | _ => false

/-- Whether a value counts as the integer `n`: a number counts as itself, and a truth value as one
or zero. -/
def counts (n : Int) : Value → Bool
  | bool b => n == if b then 1 else 0
  | int m => n == m
  | float x => Text.isWhole x n
  | _ => false

/-- Whether a value counts as a floating-point number.  What is not a number does not even count as
itself. -/
def countsAs (x : Float) : Value → Bool
  | bool b => Text.isWhole x (if b then 1 else 0)
  | int n => Text.isWhole x n
  | float y => x == y
  | _ => false

def floatStyle : Text.FloatStyle := ⟨"inf", "nan", false⟩

mutual

/-- A value as it is written, unless there is an integer in it that is too long. -/
def display? : Value → Option String
  | null => some "None"
  | bool true => some "True"
  | bool false => some "False"
  | int n => Text.write? n
  | float x => some (floatStyle.write x)
  | text s => some (Text.quoted s)
  | list items => return "[" ++ ", ".intercalate (← displayItems? items) ++ "]"
  | record entries => return "\x7b" ++ ", ".intercalate (← displayEntries? entries) ++ "\x7d"

def displayItems? : List Value → Option (List String)
  | [] => some []
  | v :: rest => return (← display? v) :: (← displayItems? rest)

def displayEntries? : List (String × Value) → Option (List String)
  | [] => some []
  | (key, v) :: rest =>
    return (Text.quoted key ++ ": " ++ (← display? v)) :: (← displayEntries? rest)

end

mutual

/-- Whether two values are the same: numbers by what they count as, lists item by item, and
records entry by entry in any order. -/
def same : Value → Value → Bool
  | null, w => w.isNull
  | bool b, w => w.counts (if b then 1 else 0)
  | int n, w => w.counts n
  | float x, w => w.countsAs x
  | text s, text t => s == t
  | list items, list others => sameItems items others
  | record entries, record others =>
    entries.length == others.length && sameEntries entries others
  | _, _ => false

def sameItems : List Value → List Value → Bool
  | [], [] => true
  | v :: rest, w :: others => same v w && sameItems rest others
  | _, _ => false

/-- Whether every entry has a counterpart among the others. -/
def sameEntries : List (String × Value) → List (String × Value) → Bool
  | [], _ => true
  | (key, v) :: rest, others =>
    (match others.lookup key with
      | some w => same v w
      | none => false) && sameEntries rest others

end

end Value

end ClassDiagram
