import ClassDiagram.Record.Shape
import ClassDiagram.Text.Raised

/-!
# Drafts

A draft has the shape of a diagram's tree, but nothing in it has been checked: a node may hold
nodes of any kind as its children, foreign values among them, and its attributes may be any plain
values.  Foreign values are of any type; all that is asked of them is how they are written, if they
can be.  A draft has a record if no foreign value stands in the place of a node.
-/

namespace ClassDiagram

/-- A tree of nodes whose parts may be of the wrong kind. -/
inductive Draft (α : Type) where
  | foreign (value : α)
  | diagram (name : Value) (entities : List (Draft α))
  | classDeclaration (name : Value) (members : List (Draft α)) (line column : Value)
  | interfaceDeclaration (name : Value) (line column : Value)
  | field (name : Value) (visibility : Option Visibility) (valueType defaultValue : Value)
      (line column : Value)
  | method (name : Value) (visibility : Option Visibility) (parameters : List (Draft α))
      (returnType : Value) (line column : Value)
  | relationship (name source target : Value) (kind : RelationshipKind)
      (operator leftLabel middleLabel rightLabel : Value) (line column : Value)
  deriving Repr, Inhabited

namespace Draft

variable {α : Type}

/-- The first foreign value that stands in the place of a node. -/
structure NotANode (α : Type) where
  value : α
  deriving Repr, Inhabited

/-- What is raised for a foreign value: a message that shows it, if it can be written. -/
def NotANode.raised (display? : α → Option String) (e : NotANode α) : Raised String :=
  match display? e.value with
  | some shown => .error ("Not an AST node: " ++ shown)
  | none => .unwritable

mutual

/-- The record of a draft.  Children come in order, and each before the next; so the foreign value
that is blamed is the first one. -/
def toRecord : Draft α → Except (NotANode α) Value
  | foreign value => .error ⟨value⟩
  | diagram name entities => (toRecords entities).map (Value.ofDiagram name)
  | classDeclaration name members _ _ => (toRecords members).map (Value.ofClass name)
  | interfaceDeclaration name _ _ => .ok (Value.ofInterface name)
  | field name visibility valueType defaultValue _ _ =>
    .ok (Value.ofField name visibility valueType defaultValue)
  | method name visibility parameters returnType _ _ =>
    (toRecords parameters).map fun records => Value.ofMethod name visibility records returnType
  | relationship name source target kind operator left middle right _ _ =>
    .ok (Value.ofRelationship name source target kind operator left middle right)

def toRecords : List (Draft α) → Except (NotANode α) (List Value)
  | [] => .ok []
  | d :: rest =>
    match toRecord d with
    | .error e => .error e
    | .ok r => (toRecords rest).map (r :: ·)

end

/-- The record of a draft, or what is raised if there is none. -/
def convert (display? : α → Option String) (d : Draft α) : Except (Raised String) Value :=
  d.toRecord.mapError (NotANode.raised display?)

section Same

variable (sameForeign : α → α → Bool)

mutual

/-- Whether two drafts are nodes of the same kind with the same attributes and children. -/
def same : Draft α → Draft α → Bool
  | foreign v, foreign w => sameForeign v w
  | diagram name entities, diagram name' entities' => name.same name' && sameList entities entities'
  | classDeclaration name members line column, classDeclaration name' members' line' column' =>
    name.same name' && sameList members members' && line.same line' && column.same column'
  | interfaceDeclaration name line column, interfaceDeclaration name' line' column' =>
    name.same name' && line.same line' && column.same column'
  | field name visibility valueType defaultValue line column,
      field name' visibility' valueType' defaultValue' line' column' =>
    name.same name' && visibility == visibility' && valueType.same valueType' &&
      defaultValue.same defaultValue' && line.same line' && column.same column'
  | method name visibility parameters returnType line column,
      method name' visibility' parameters' returnType' line' column' =>
    name.same name' && visibility == visibility' && sameList parameters parameters' &&
      returnType.same returnType' && line.same line' && column.same column'
  | relationship name source target kind operator left middle right line column,
      relationship name' source' target' kind' operator' left' middle' right' line' column' =>
    name.same name' && source.same source' && target.same target' && kind == kind' &&
      operator.same operator' && left.same left' && middle.same middle' && right.same right' &&
      line.same line' && column.same column'
  | _, _ => false

def sameList : List (Draft α) → List (Draft α) → Bool
  | [], [] => true
  | d :: rest, e :: others => same d e && sameList rest others
  | _, _ => false

end

end Same

end Draft

end ClassDiagram
