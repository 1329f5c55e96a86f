import ClassDiagram.Grammar.State

/-!
# Rejections

The grammar rejects a text at the first lexeme that may not come next, at a point where no terminal
fits, or at the end of a text that stops too early; the end is blamed on the last lexeme's place.
The report lists what could have come instead.  Where no terminal fits, it shows the line around
the point with a caret below; there the list is that of all terminals, since the automaton was
never asked.
-/

namespace ClassDiagram.Grammar

/-- The line around a point of a text: what stands before the point and what from it on. -/
structure Excerpt where
  before : List Char
  after : List Char
  deriving DecidableEq, Repr

namespace Excerpt

def span : Nat := 40

def lastLine (text : List Char) : List Char :=
  (text.reverse.takeWhile (· != '\n')).reverse

/-- The excerpt of `text` around the point at `offset`. -/
def around (text : List Char) (offset : Nat) : Excerpt where
  before := lastLine ((text.take offset).drop (offset - span))
  after := ((text.drop offset).take span).takeWhile (· != '\n')

/-- The width of text when tab stops are eight columns apart; a carriage return starts the columns
anew, though it takes up width itself. -/
def width (text : List Char) : Nat :=
  let step (w : Nat × Nat) (c : Char) : Nat × Nat :=
    if c = '\t' then (w.1 + (8 - w.2 % 8), w.2 + (8 - w.2 % 8))
    else if c = '\r' then (w.1 + 1, 0)
    else (w.1 + 1, w.2 + 1)
  (text.foldl step (0, 0)).1

def display (e : Excerpt) : String :=
  String.ofList (e.before ++ e.after ++ '\n' :: List.replicate (width e.before) ' ' ++ ['^', '\n'])

end Excerpt

inductive Rejection where
  | unexpectedLexeme (found : Lexeme) (expected : List Terminal)
  | unexpectedCharacter (character : Char) (offset : Nat) (place : Place) (excerpt : Excerpt)
      (previous : Option Lexeme)

namespace Rejection

def place : Rejection → Place
  | unexpectedLexeme found _ => found.place
  | unexpectedCharacter _ _ place _ _ => place

/-- The terminals listed where no terminal fits: all but the keywords, which are words before they
are keywords, and the end. -/
def lexical : List Terminal :=
  Terminal.all.filter fun t => t != .endOfText && t != .classWord && t != .interfaceWord

/-- The list of terminals to suggest, a line each. -/
def suggest (terminals : List Terminal) : String :=
  "Expected one of: \n" ++ String.join (terminals.map fun t => "\t* " ++ t.label ++ "\n")

/-- What is wrong and what could have come instead, in words. -/
def message : Rejection → String
  | unexpectedLexeme found expected =>
    "Unexpected token " ++ found.display ++ " at line " ++ toString found.place.line ++
      ", column " ++ toString found.place.column ++ ".\n" ++ suggest expected
  | unexpectedCharacter character _ place excerpt previous =>
    "No terminal matches '" ++ String.singleton character ++
      "' in the current parser context, at line " ++ toString place.line ++ " col " ++
      toString place.column ++ "\n\n" ++ excerpt.display ++ suggest lexical ++
      match previous with
      | none => ""
      | some x => "\nPrevious tokens: " ++ x.display ++ "\n"

end Rejection

end ClassDiagram.Grammar
