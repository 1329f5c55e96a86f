/-!
# Layout

Blanks and comments stand between tokens and mean nothing.  A comment runs from two slashes to the
end of its line.
-/

namespace ClassDiagram.Layout

/-- The blanks: space, tab, carriage return and line feed. -/
def isSpace (c : Char) : Bool :=
  c == ' ' || c == '\t' || c == '\r' || c == '\n'

/-- The number of characters of layout that a text starts with; `comment` tells whether a comment
is under way. -/
def length (comment : Bool) : List Char → Nat
  | [] => 0
  | c :: rest =>
    if comment then length (c != '\n') rest + 1
    else if isSpace c then length false rest + 1
    else if c == '/' && rest.head? == some '/' then length true rest + 1
    else 0

@[simp] theorem length_nil (comment : Bool) : length comment [] = 0 := rfl

theorem length_le (comment : Bool) (text : List Char) :
    length comment text ≤ text.length := by
  induction text generalizing comment with
  | nil => simp
  | cons c rest ih =>
      simp only [length, List.length_cons]
      have h₁ := ih (c != '\n')
      have h₂ := ih false
      have h₃ := ih true
      split
      · omega
      split
      · omega
      split <;> omega

end ClassDiagram.Layout
