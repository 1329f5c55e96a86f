import ClassDiagram.Text.Alphanumeric
import ClassDiagram.Text.Blank
import ClassDiagram.Token.Operator

/-!
# Pieces

Any text, whether or not it is made of tokens, falls into pieces: quoted labels, open or closed, on
one line; comments; operators; words; runs of white space; and single characters.  The first of
these that fits is taken, and as much of it as there is.  Put together, the pieces are the text.
-/

namespace ClassDiagram.Fuzz.Pieces

/-- The length of the rest of a quoted label: up to a quote, which belongs to it, or a line feed,
which does not. -/
def labelLength : List Char → Nat
  | [] => 0
  | '"' :: _ => 1
  | '\n' :: _ => 0
  | _ :: rest => labelLength rest + 1

/-- The length of the first piece of a text that begins with `c`. -/
def pieceLength (c : Char) (rest : List Char) : Nat :=
  if c = '"' then labelLength rest + 1
  else if c = '/' ∧ rest.head? = some '/' then ((c :: rest).takeWhile (· != '\n')).length
  else
    match Operator.at? (c :: rest) with
    | some o => o.spelling.length
    | none =>
      if Text.isWordChar c then ((c :: rest).takeWhile Text.isWordChar).length
      else if Text.isBlank c then ((c :: rest).takeWhile Text.isBlank).length
      else 1

theorem pieceLength_pos (c : Char) (rest : List Char) : 0 < pieceLength c rest := by
  unfold pieceLength
  split
  · omega
  split
  · next h => simp [List.takeWhile, h.1]
  split
  · next o ho =>
    exact List.length_pos_iff.mpr (Operator.spelling_ne_nil (Operator.mem_table_of_at? ho))
  split
  · next h => simp [List.takeWhile, h]
  split
  · next h => simp [List.takeWhile, h]
  · omega

def split : List Char → List (List Char)
  | [] => []
  | c :: rest =>
    let n := pieceLength c rest
    (c :: rest).take n :: split ((c :: rest).drop n)
termination_by text => text.length
decreasing_by
  have := pieceLength_pos c rest
  simp
  omega

end ClassDiagram.Fuzz.Pieces
