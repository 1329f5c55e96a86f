import ClassDiagram.Diagram.Rules
import ClassDiagram.Grammar.Document
import ClassDiagram.Token.Scanner

/-!
# Reading diagrams from text

There are two readers.  By descent, the whole text is first turned into tokens, which the rules of
class diagrams then read; by grammar, an automaton reads lexeme by lexeme.  They accept the same
texts and read the same diagrams from them, but they report errors in their own ways.
-/

namespace ClassDiagram

namespace Scanner

/-- Scanning to the end leaves a closed sequence of tokens. -/
theorem closed_of_scanAll {s s' : Scanner} (h : scanAll s = .ok () s') :
    Token.Closed s'.tokens.toList := by
  change EStateM.bind scanRest _ s = .ok () s' at h
  simp only [EStateM.bind] at h
  split at h
  · rename_i u s₁ _
    change EStateM.Result.ok () (s₁.push .endOfText [] s₁.point.place) = .ok () s' at h
    cases h
    simp only [push, Array.toList_push]
    exact Token.closed_append rfl
  · cases h

end Scanner

theorem Token.closed_of_ofString? {text : String} {tokens : List Token}
    (h : Token.ofString? text = .ok tokens) : Token.Closed tokens := by
  unfold Token.ofString? at h
  split at h
  · rename_i hs
    cases h
    exact Scanner.closed_of_scanAll hs
  · cases h

inductive ReadError where
  | lex (error : LexError)
  | parse (error : ParseError)
  | grammar (error : Grammar.Rejection)

namespace ReadError

def place : ReadError → Place
  | lex e => e.place
  | parse e => e.token.place
  | grammar e => e.place

def message : ReadError → String
  | lex e => e.message
  | parse e => e.message
  | grammar e => e.message

end ReadError

namespace Diagram

def ofString (text : String) : Except ReadError Diagram :=
  match h : Token.ofString? text with
  | .error e => .error (.lex e)
  | .ok tokens => (ofClosedTokens tokens (Token.closed_of_ofString? h)).mapError .parse

end Diagram

inductive Reader where
  | descent
  | grammar
  deriving DecidableEq, Repr

namespace Reader

def read : Reader → String → Except ReadError Diagram
  | descent, text => Diagram.ofString text
  | grammar, text => (Grammar.diagramOf text).mapError .grammar

def name : Reader → String
  | descent => "rd"
  | grammar => "peg"

def all : List Reader := [grammar, descent]

def ofName? (name : String) : Option Reader := all.find? (·.name == name)

end Reader

end ClassDiagram
