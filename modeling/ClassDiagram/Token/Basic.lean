import ClassDiagram.Diagram.Basic
import ClassDiagram.Text.Digits
import ClassDiagram.Text.Quoted

/-!
# Tokens

A token has a kind, the text it stands for, and the place it starts at.  For a label the text is
what stands between the quotes, escapes resolved; for every other token it is the token as written.
-/

namespace ClassDiagram

namespace Token

inductive Kind where
  | classWord
  | interfaceWord
  | operator (kind : RelationshipKind)
  | leftBrace
  | rightBrace
  | leftParenthesis
  | rightParenthesis
  | leftBracket
  | rightBracket
  | colon
  | equals
  | comma
  | marker (visibility : Visibility)
  | quotation
  | identifier
  | endOfText
  deriving DecidableEq, Repr

namespace Kind

/-- The name by which messages call a kind of token. -/
def name : Kind → String
  | classWord => "CLASS"
  | interfaceWord => "INTERFACE"
  | operator k => k.name
  | leftBrace => "LBRACE"
  | rightBrace => "RBRACE"
  | leftParenthesis => "LPAREN"
  | rightParenthesis => "RPAREN"
  | leftBracket => "LBRACKET"
  | rightBracket => "RBRACKET"
  | colon => "COLON"
  | equals => "EQUALS"
  | comma => "COMMA"
  | marker .toHeirs => "POUND"
  | marker .toAll => "PLUS"
  | marker .toSelf => "DASH"
  | marker .toPackage => "TILDE"
  | quotation => "QUOTATION"
  | identifier => "IDENTIFIER"
  | endOfText => "EOF"

def all : List Kind :=
  [classWord, interfaceWord] ++ RelationshipKind.all.map operator ++
    [leftBrace, rightBrace, leftParenthesis, rightParenthesis, leftBracket, rightBracket, colon,
      equals, comma] ++ Visibility.all.map marker ++ [quotation, identifier, endOfText]

def ofName? (name : String) : Option Kind := all.find? (·.name == name)

def relationship? : Kind → Option RelationshipKind
  | operator k => some k
  | _ => none

def visibility? : Kind → Option Visibility
  | marker v => some v
  | _ => none

def isOperator (k : Kind) : Bool := k.relationship?.isSome

theorem mem_all (k : Kind) : k ∈ all := by
  cases k with
  | operator k => cases k <;> decide
  | marker v => cases v <;> decide
  | _ => decide

end Kind

end Token

structure Token where
  kind : Token.Kind
  value : String
  place : Place := .nowhere
  deriving DecidableEq, Repr

namespace Token

/-- A token as error messages name it: its kind and its text in quotes. -/
def describe (t : Token) : String :=
  t.kind.name ++ " " ++ Text.quoted t.value

/-- A token in full: kind, quoted text, line and column, if these can be written. -/
def display? (t : Token) : Option String := do
  let line ← Text.write? t.place.line
  let column ← Text.write? t.place.column
  return "Token(" ++ t.kind.name ++ ", " ++ Text.quoted t.value ++ ", " ++
    line ++ ":" ++ column ++ ")"

end Token

end ClassDiagram
