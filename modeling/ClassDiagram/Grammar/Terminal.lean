import ClassDiagram.Token.Operator

/-!
# Terminals

The terminals of the grammar of class diagrams, and what a lexeme of each terminal carries: a
visibility its visibility, an operator its spelling, a name its characters, a string its raw text.
The others are always written the same way and carry nothing.  The text of a lexeme can be told
from its terminal and what it carries.
-/

namespace ClassDiagram.Grammar

/-- The terminals of the grammar; the last one stands after every text. -/
inductive Terminal where
  | classWord
  | interfaceWord
  | name
  | string
  | operator
  | visibility
  | leftBrace
  | rightBrace
  | leftParenthesis
  | rightParenthesis
  | leftBracket
  | rightBracket
  | colon
  | equal
  | comma
  | endOfText
  deriving DecidableEq, Repr

namespace Terminal

def label : Terminal → String
  | classWord => "CLASS"
  | interfaceWord => "INTERFACE"
  | name => "NAME"
  | string => "STRING"
  | operator => "OPERATOR"
  | visibility => "VISIBILITY"
  | leftBrace => "LBRACE"
  | rightBrace => "RBRACE"
  | leftParenthesis => "LPAR"
  | rightParenthesis => "RPAR"
  | leftBracket => "LSQB"
  | rightBracket => "RSQB"
  | colon => "COLON"
  | equal => "EQUAL"
  | comma => "COMMA"
  | endOfText => "$END"

def all : List Terminal :=
  [endOfText, classWord, colon, comma, equal, interfaceWord, leftBrace, leftParenthesis,
    leftBracket, name, operator, rightBrace, rightParenthesis, rightBracket, string, visibility]

theorem mem_all (t : Terminal) : t ∈ all := by
  cases t <;> decide

def Content : Terminal → Type
  | name => List Char
  | string => List Char
  | operator => Operator
  | visibility => Visibility
  | _ => Unit

def spell : (t : Terminal) → t.Content → List Char
  | classWord, _ => ['c', 'l', 'a', 's', 's']
  | interfaceWord, _ => ['i', 'n', 't', 'e', 'r', 'f', 'a', 'c', 'e']
  | name, (word : List Char) => word
  | string, (raw : List Char) => raw
  | operator, (o : Operator) => o.spelling
  | visibility, (v : Visibility) => [v.mark]
  | leftBrace, _ => ['\x7b']
  | rightBrace, _ => ['\x7d']
  | leftParenthesis, _ => ['(']
  | rightParenthesis, _ => [')']
  | leftBracket, _ => ['[']
  | rightBracket, _ => [']']
  | colon, _ => [':']
  | equal, _ => ['=']
  | comma, _ => [',']
  | endOfText, _ => []

end Terminal

end ClassDiagram.Grammar
