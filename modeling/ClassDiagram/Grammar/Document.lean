import ClassDiagram.Grammar.Rejection

/-!
# Reading documents by the grammar

The automaton runs over the lexemes of a text.  The first thing in the order of the text decides:
a lexeme that may not come next is found before a later point where no terminal fits.
-/

namespace ClassDiagram.Grammar

/-- The lexeme that stands for the end of a text: it is empty, and has the place of the last
lexeme. -/
def endLexeme (previous : Option Lexeme) : Lexeme where
  terminal := .endOfText
  content := ()
  offset := previous.elim 0 (·.offset)
  place := previous.elim .start (·.place)

/-- What is wrong at a point of `text` where no terminal fits. -/
def Rejection.atPoint (text : List Char) (previous : Option Lexeme) (p : Point) : Rejection :=
  .unexpectedCharacter (p.rest.headD '\x00') p.offset p.place (.around text p.offset) previous

namespace State

/-- Runs over lexemes of `text`, of which `previous` came last. -/
def run (text : List Char) (stuck : Option Point) :
    List Lexeme → Option Lexeme → State → Except Rejection Diagram
  | x :: more, _, s =>
    match s.shift? x.terminal with
    | some next => run text stuck more (some x) (next x.content x.place)
    | none => .error (.unexpectedLexeme x (s.expected x.terminal))
  | [], previous, s =>
    match stuck, s.complete? with
    | some p, _ => .error (.atPoint text previous p)
    | none, some d => .ok d
    | none, none => .error (.unexpectedLexeme (endLexeme previous) (s.expected .endOfText))

end State

def diagramOf (text : String) : Except Rejection Diagram :=
  let lexing := Lexing.ofPoint (.ofString text)
  State.run text.toList lexing.stuck lexing.lexemes none .start

end ClassDiagram.Grammar
