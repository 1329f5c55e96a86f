import ClassDiagram.Text.Place

/-!
# Labels

A label is written between double quotes on one line.  Inside, a backslash takes the next
character with it: `\n` is a line feed, `\t` a tab, and any other character stands for itself.
-/

namespace ClassDiagram

inductive LexProblem where
  | unexpectedCharacter (c : Char)
  | unterminatedString
  | unterminatedEscape
  deriving DecidableEq, Repr

namespace Label

/-- The character that a backslash and `c` stand for. -/
def unescape (c : Char) : Char :=
  if c = 'n' then '\n' else if c = 't' then '\t' else c

/-- Reads the text after an opening quote: how many characters were read, the closing quote
included, and what the label says or why it is none.  A line feed and the end of the text close no
label, and neither is read. -/
def body : List Char → Nat × Except LexProblem (List Char)
  | [] => (0, .error .unterminatedString)
  | '"' :: _ => (1, .ok [])
  | '\n' :: _ => (0, .error .unterminatedString)
  | ['\\'] => (1, .error .unterminatedEscape)
  | '\\' :: '\n' :: _ => (1, .error .unterminatedEscape)
  | '\\' :: c :: rest =>
    let after := body rest
    (after.1 + 2, after.2.map (unescape c :: ·))
  | c :: rest =>
    let after := body rest
    (after.1 + 1, after.2.map (c :: ·))

end Label

end ClassDiagram
