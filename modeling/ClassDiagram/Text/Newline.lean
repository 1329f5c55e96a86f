/-!
# Line ends

Texts come with three kinds of line ends: a line feed, a carriage return, and both in this order.
Reading a file turns each of them into a line feed.
-/

namespace ClassDiagram.Text

/-- The text with every line end written as a line feed. -/
def normalizeLineEnds : List Char → List Char
  | [] => []
  | '\r' :: '\n' :: rest => '\n' :: normalizeLineEnds rest
  | '\r' :: rest => '\n' :: normalizeLineEnds rest
  | c :: rest => c :: normalizeLineEnds rest

end ClassDiagram.Text
