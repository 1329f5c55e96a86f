import ClassDiagram.Diagram.Written
import ClassDiagram.Token.Operator

/-!
# Sketches

A sketch is a document before it is written out.  It differs from a diagram in that nothing has a
place, and that a class with an empty body is not a class without one.
-/

namespace ClassDiagram.Fuzz

structure SketchedRelationship where
  source : String
  left : Option (List Char)
  operator : Operator
  right : Option (List Char)
  target : String
  middle : Option (List Char)
  deriving DecidableEq, Repr

inductive Sketch where
  | classDeclaration (name : String) (body : Option (List Member))
  | interfaceDeclaration (name : String)
  | relationship (r : SketchedRelationship)
  deriving DecidableEq, Repr

namespace SketchedRelationship

/-- The words of a relationship, one space apart. -/
def written (r : SketchedRelationship) : List Char :=
  [' '].intercalate
    ([r.source.toList] ++ (r.left.map Label.written).toList ++ [r.operator.spelling] ++
      (r.right.map Label.written).toList ++ [r.target.toList] ++
      (r.middle.map fun label => ':' :: ' ' :: Label.written label).toList)

end SketchedRelationship

namespace Sketch

/-- An entity as it is written; members have a line each. -/
def written : Sketch → List Char
  | classDeclaration name none => ['c', 'l', 'a', 's', 's', ' '] ++ name.toList
  | classDeclaration name (some members) =>
    ['c', 'l', 'a', 's', 's', ' '] ++ name.toList ++ [' ', '\x7b', ' '] ++
      ['\n'].intercalate (members.map Member.written) ++ [' ', '\x7d']
  | interfaceDeclaration name =>
    ['i', 'n', 't', 'e', 'r', 'f', 'a', 'c', 'e', ' '] ++ name.toList
  | relationship r => r.written

/-- A document as it is written; entities start on lines of their own. -/
def writtenAll (sketches : List Sketch) : List Char :=
  ['\n'].intercalate (sketches.map written)

end Sketch

end ClassDiagram.Fuzz
