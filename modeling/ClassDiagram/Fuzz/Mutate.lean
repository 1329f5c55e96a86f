import ClassDiagram.Fuzz.Generate
import ClassDiagram.Fuzz.Pieces

/-!
# Mutations

A mutation makes one edit to the pieces of a text: it drops one, doubles one, swaps two neighbours,
puts in a random one, replaces an operator by an operator, or changes one character in its lowest
seven bits.  Such a change never leaves the characters: code points come in blocks of 128 of which
either all are characters or none is.
-/

namespace ClassDiagram.Fuzz

namespace Gen

def keywords : List String := ["class", "interface"]

def punctuation : List String := ["\x7b", "\x7d", "(", ")", "[", "]", ":", "=", ",", "\""]

/-- Texts that lexers may stumble over. -/
def oddities : List String :=
  ["\x00", "\xff", "\r\n", "\t", "\x0c", "🎉", "α", "\\", "//", "@", "."]

/-- A random piece.  One of every sort is made, and then one of them is taken. -/
def piece : Gen (List Char) := do
  let keyword ← choose keywords
  let operator ← choose Operator.table
  let mark ← choose punctuation
  let visibility ← choose Visibility.all
  let oddity ← choose oddities
  let name ← identifier
  let label ← label
  choose [keyword.toList, operator.spelling, mark.toList, [visibility.mark], oddity.toList,
    name.toList, Label.written label, [' '], ['\n']]

def drop (pieces : List (List Char)) : Gen (List (List Char)) := do
  let i ← below pieces.length
  return pieces.eraseIdx i

def duplicate (pieces : List (List Char)) : Gen (List (List Char)) := do
  let i ← below pieces.length
  return pieces.take i ++ (pieces.drop i).take 1 ++ pieces.drop i

def swapFirst : List (List Char) → List (List Char)
  | p :: q :: rest => q :: p :: rest
  | pieces => pieces

def swap (pieces : List (List Char)) : Gen (List (List Char)) := do
  if pieces.length < 2 then return pieces
  else
    let i ← below (pieces.length - 1)
    return pieces.take i ++ swapFirst (pieces.drop i)

def insert (pieces : List (List Char)) : Gen (List (List Char)) := do
  let i ← below (pieces.length + 1)
  let new ← piece
  return pieces.take i ++ new :: pieces.drop i

def isOperator (piece : List Char) : Bool := Operator.table.any (·.spelling == piece)

def operatorPositions (pieces : List (List Char)) : List Nat :=
  (List.range pieces.length).filter fun i => pieces[i]?.any isOperator

/-- Replaces an operator by an operator, or puts in a piece if there is none. -/
def replaceOperator (pieces : List (List Char)) : Gen (List (List Char)) :=
  match operatorPositions pieces with
  | [] => insert pieces
  | positions => do
    let operator ← choose Operator.table
    let i ← choose positions
    return pieces.set i operator.spelling

def flipBits (mask : Nat) (c : Char) : Char := Char.ofNat (c.toNat ^^^ mask)

def flip (pieces : List (List Char)) : Gen (List (List Char)) := do
  let i ← below pieces.length
  let piece := pieces.getD i []
  let j ← below piece.length
  let mask ← among 1 127
  return pieces.set i (piece.modify j (flipBits mask))

/-- Makes one random edit to a text; an empty text becomes a random piece. -/
def mutate (text : List Char) : Gen (List Char) :=
  match Pieces.split text with
  | [] => piece
  | pieces => do
    let edit ← choose [drop, duplicate, swap, insert, replaceOperator, flip]
    return (← edit pieces).flatten

def mutateTimes : (n : Nat) → List Char → Gen (List Char)
  | 0, text => return text
  | n + 1, text => do mutateTimes n (← mutate text)

/-- The next input: a new document, a text of the corpus with some edits, or such a text as it
is. -/
def nextInput (corpus : List String) : Gen String := do
  let strategy ← permille
  if strategy < 300 then document
  else if strategy < 800 then
    let source ← choose corpus
    let edits ← among 1 4
    String.ofList <$> mutateTimes edits source.toList
  else choose corpus

end Gen

end ClassDiagram.Fuzz
