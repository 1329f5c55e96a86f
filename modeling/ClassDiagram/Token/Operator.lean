import ClassDiagram.Diagram.Basic

/-!
# Relationship operators

The thirteen spellings of a relationship operator.  Some begin with others (`--` begins `-->`), so
the table lists longer spellings first: the first spelling that the text starts with is then the
longest one.
-/

namespace ClassDiagram

/-- A spelling of a relationship operator, and the kind of relationship it stands for. -/
structure Operator where
  spelling : List Char
  kind : RelationshipKind
  deriving DecidableEq, Repr

namespace Operator

/-- All spellings, longer ones first. -/
def table : List Operator :=
  [⟨['<', '|', '-', '-'], .inheritance⟩,
   ⟨['-', '-', '|', '>'], .inheritance⟩,
   ⟨['<', '|', '.', '.'], .realization⟩,
   ⟨['.', '.', '|', '>'], .realization⟩,
   ⟨['*', '-', '-'], .composition⟩,
   ⟨['-', '-', '*'], .composition⟩,
   ⟨['o', '-', '-'], .aggregation⟩,
   ⟨['-', '-', 'o'], .aggregation⟩,
   ⟨['<', '-', '-'], .association⟩,
   ⟨['-', '-', '>'], .association⟩,
   ⟨['<', '.', '.'], .dependency⟩,
   ⟨['.', '.', '>'], .dependency⟩,
   ⟨['-', '-'], .association⟩]

def at? (text : List Char) : Option Operator :=
  table.find? (·.spelling.isPrefixOf text)

def text (o : Operator) : String := String.ofList o.spelling

theorem spelling_ne_nil {o : Operator} (h : o ∈ table) : o.spelling ≠ [] := by
  revert o
  decide

theorem mem_table_of_at? {text : List Char} {o : Operator} (h : at? text = some o) : o ∈ table :=
  List.mem_of_find?_eq_some h

theorem spelling_append_of_at? {text : List Char} {o : Operator} (h : at? text = some o) :
    ∃ rest, text = o.spelling ++ rest := by
  have := List.find?_some h
  obtain ⟨rest, hrest⟩ := List.isPrefixOf_iff_prefix.mp this
  exact ⟨rest, hrest.symm⟩

end Operator

end ClassDiagram
