import ClassDiagram.Diagram.Basic
import ClassDiagram.Record.Value

/-!
# The shapes of records

Every node of a diagram has a record: its kind under `type`, then its attributes by name.  A
visibility and an optional attribute have an entry only if there is something to say; lists always
have one.  Places are left out.
-/

namespace ClassDiagram.Value

/-- The entry of an optional attribute: none if the value is null. -/
def given (key : String) (value : Value) : List (String × Value) :=
  if value.isNull then [] else [(key, value)]

def visibilityEntry : Option Visibility → List (String × Value)
  | none => []
  | some v => [("visibility", text (String.singleton v.mark))]

def ofDiagram (name : Value) (entities : List Value) : Value :=
  record [("type", text "ROOT"), ("name", name), ("entities", list entities)]

def ofClass (name : Value) (members : List Value) : Value :=
  record [("type", text "CLASS"), ("name", name), ("members", list members)]

def ofInterface (name : Value) : Value :=
  record [("type", text "INTERFACE"), ("name", name)]

def ofField (name : Value) (visibility : Option Visibility) (valueType defaultValue : Value) :
    Value :=
  record ([("type", text "FIELD"), ("name", name)] ++ visibilityEntry visibility ++
    given "value_type" valueType ++ given "default" defaultValue)

def ofMethod (name : Value) (visibility : Option Visibility) (parameters : List Value)
    (returnType : Value) : Value :=
  record ([("type", text "METHOD"), ("name", name)] ++ visibilityEntry visibility ++
    [("parameters", list parameters)] ++ given "return_type" returnType)

def ofRelationship (name source target : Value) (kind : RelationshipKind)
    (operator leftLabel middleLabel rightLabel : Value) : Value :=
  record ([("type", text "RELATIONSHIP"), ("name", name), ("source_class", source),
      ("target_class", target), ("relationship_type", text kind.name), ("operator", operator)] ++
    given "left_label" leftLabel ++ given "middle_label" middleLabel ++
    given "right_label" rightLabel)

/-- The entries of a record; other values have none. -/
def entries : Value → List (String × Value)
  | record es => es
  | _ => []

end ClassDiagram.Value

namespace ClassDiagram

def Field.toRecord (f : Field) : Value :=
  .ofField (.text f.name) f.visibility (.ofText? f.valueType) (.ofText? f.defaultValue)

def Method.toRecord (m : Method) : Value :=
  .ofMethod (.text m.name) m.visibility (m.parameters.map Field.toRecord) (.ofText? m.returnType)

def Member.toRecord : Member → Value
  | field f => f.toRecord
  | method m => m.toRecord

def ClassDeclaration.toRecord (c : ClassDeclaration) : Value :=
  .ofClass (.text c.name) (c.members.map Member.toRecord)

def InterfaceDeclaration.toRecord (i : InterfaceDeclaration) : Value :=
  .ofInterface (.text i.name)

def Relationship.toRecord (r : Relationship) : Value :=
  .ofRelationship (.text r.name) (.text r.source) (.text r.target) r.kind (.text r.operator)
    (.ofText? r.leftLabel) (.ofText? r.middleLabel) (.ofText? r.rightLabel)

def Entity.toRecord : Entity → Value
  | classDeclaration c => c.toRecord
  | interfaceDeclaration i => i.toRecord
  | relationship r => r.toRecord

def Diagram.toRecord (d : Diagram) : Value :=
  .ofDiagram (.text d.name) (d.entities.map Entity.toRecord)

end ClassDiagram
