import ClassDiagram.Text.Place

/-!
# Class diagrams

A diagram is a list of entities: classes with their members, interfaces, and relationships between
two of them.  Every declaration knows the place at which its text starts.

Types, defaults and names are kept as they are written.  A missing type, default, label or
visibility is `none`; an empty label is not a missing one.
-/

namespace ClassDiagram

/-- Who may see a member: everyone, the class alone, the class and its heirs, or its package. -/
inductive Visibility where
  | toAll
  | toSelf
  | toHeirs
  | toPackage
  deriving DecidableEq, Repr

namespace Visibility

/-- The marker written before a member's name. -/
def mark : Visibility → Char
  | toAll => '+'
  | toSelf => '-'
  | toHeirs => '#'
  | toPackage => '~'

def name : Visibility → String
  | toAll => "PUBLIC"
  | toSelf => "PRIVATE"
  | toHeirs => "PROTECTED"
  | toPackage => "PACKAGE"

def all : List Visibility := [toAll, toSelf, toHeirs, toPackage]

theorem mem_all (v : Visibility) : v ∈ all := by
  cases v <;> simp [all]

end Visibility

/-- What a relationship says of its two ends. -/
inductive RelationshipKind where
  | inheritance
  | composition
  | aggregation
  | association
  | dependency
  | realization
  deriving DecidableEq, Repr

namespace RelationshipKind

def name : RelationshipKind → String
  | inheritance => "INHERITANCE"
  | composition => "COMPOSITION"
  | aggregation => "AGGREGATION"
  | association => "ASSOCIATION"
  | dependency => "DEPENDENCY"
  | realization => "REALIZATION"

def all : List RelationshipKind :=
  [inheritance, composition, aggregation, association, dependency, realization]

theorem mem_all (k : RelationshipKind) : k ∈ all := by
  cases k <;> simp [all]

end RelationshipKind

/-- A field of a class, or a parameter of a method; parameters have no visibility.  An array type
keeps its brackets: `int[]`. -/
structure Field where
  name : String
  visibility : Option Visibility := none
  valueType : Option String := none
  defaultValue : Option String := none
  place : Place := .nowhere
  deriving DecidableEq, Repr

structure Method where
  name : String
  visibility : Option Visibility := none
  parameters : List Field := []
  returnType : Option String := none
  place : Place := .nowhere
  deriving DecidableEq, Repr

/-- What a class body lists. -/
inductive Member where
  | field (declaration : Field)
  | method (declaration : Method)
  deriving DecidableEq, Repr

/-- A class.  A class without a body and one with an empty body are the same. -/
structure ClassDeclaration where
  name : String
  members : List Member := []
  place : Place := .nowhere
  deriving DecidableEq, Repr

/-- An interface; it has no body. -/
structure InterfaceDeclaration where
  name : String
  place : Place := .nowhere
  deriving DecidableEq, Repr

/-- A relationship from a source to a target.  The labels stand before the operator, after it, and
after the target. -/
structure Relationship where
  name : String
  source : String
  target : String
  kind : RelationshipKind
  operator : String
  leftLabel : Option String := none
  middleLabel : Option String := none
  rightLabel : Option String := none
  place : Place := .nowhere
  deriving DecidableEq, Repr

namespace Relationship

/-- The name of a relationship: source, operator and target as written. -/
def nameOf (source operator target : String) : String :=
  source ++ " " ++ operator ++ " " ++ target

end Relationship

/-- What a diagram lists. -/
inductive Entity where
  | classDeclaration (declaration : ClassDeclaration)
  | interfaceDeclaration (declaration : InterfaceDeclaration)
  | relationship (declaration : Relationship)
  deriving DecidableEq, Repr

namespace Entity

def name : Entity → String
  | classDeclaration c => c.name
  | interfaceDeclaration i => i.name
  | relationship r => r.name

def class? : Entity → Option ClassDeclaration
  | classDeclaration c => some c
  | _ => none

def interface? : Entity → Option InterfaceDeclaration
  | interfaceDeclaration i => some i
  | _ => none

def relationship? : Entity → Option Relationship
  | relationship r => some r
  | _ => none

end Entity

/-- A class diagram: its entities in the order of the text. -/
structure Diagram where
  entities : List Entity := []
  name : String := "root"
  deriving DecidableEq, Repr

namespace Diagram

def classes (d : Diagram) : List ClassDeclaration := d.entities.filterMap Entity.class?

def interfaces (d : Diagram) : List InterfaceDeclaration := d.entities.filterMap Entity.interface?

def relationships (d : Diagram) : List Relationship := d.entities.filterMap Entity.relationship?

end Diagram

end ClassDiagram
