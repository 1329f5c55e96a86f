import ClassDiagram.Grammar.Lexeme
import ClassDiagram.Token.Label

/-!
# The states of the grammar

The grammar of class diagrams nests nothing without bound, so a finite automaton can read it; each
of its states carries what has been read so far.  A state says for every terminal whether a lexeme
of it may come next, and if so, how the state goes on with what the lexeme carries.  That a lexeme
is welcome thus never depends on more than its terminal.

The automaton is layered: a field or parameter under way, a class body under way, and a document.
A part that could end where it is leaves the next lexeme to the layer around it.
-/

namespace ClassDiagram.Grammar

/-- How to go on with a lexeme of the terminal `t`. -/
abbrev Shift (σ : Type) (t : Terminal) := t.Content → Place → σ

/-- How far the declaration of a field or parameter has come. -/
inductive FieldStage where
  | named
  | colon
  | typed
  | bracket
  | array
  | equal
  | valued
  deriving DecidableEq, Repr

structure OpenField where
  field : Field
  stage : FieldStage
  deriving DecidableEq, Repr

namespace OpenField

/-- A field or parameter whose name has just been read. -/
def named (name : List Char) (visibility : Option Visibility) (place : Place) : OpenField :=
  ⟨{ name := String.ofList name, visibility, place }, .named⟩

/-- The lexemes that belong to the field itself. -/
def shift? : OpenField → (t : Terminal) → Option (Shift OpenField t)
  | ⟨f, .named⟩, .colon => some fun _ _ => ⟨f, .colon⟩
  | ⟨f, .named⟩, .equal => some fun _ _ => ⟨f, .equal⟩
  | ⟨f, .colon⟩, .name =>
    some fun (word : List Char) _ => ⟨{ f with valueType := some (String.ofList word) }, .typed⟩
  | ⟨f, .typed⟩, .leftBracket => some fun _ _ => ⟨f, .bracket⟩
  | ⟨f, .typed⟩, .equal => some fun _ _ => ⟨f, .equal⟩
  | ⟨f, .bracket⟩, .rightBracket =>
    some fun _ _ => ⟨{ f with valueType := f.valueType.map (· ++ "[]") }, .array⟩
  | ⟨f, .array⟩, .equal => some fun _ _ => ⟨f, .equal⟩
  | ⟨f, .equal⟩, .name =>
    some fun (word : List Char) _ => ⟨{ f with defaultValue := some (String.ofList word) }, .valued⟩
  | _, _ => none

def complete? : OpenField → Option Field
  | ⟨_, .colon⟩ => none
  | ⟨_, .bracket⟩ => none
  | ⟨_, .equal⟩ => none
  | ⟨f, _⟩ => some f

end OpenField

/-- How far a class body has come since its last complete member. -/
inductive BodyPart where
  /-- A member may begin or the body end. -/
  | between
  /-- A visibility marker has been read. -/
  | marked (visibility : Visibility) (place : Place)
  /-- A field is under way; while it is only a name, it may turn out to be a method. -/
  | field (part : OpenField)
  /-- A parameter of the method may begin or the list end. -/
  | parameters (method : Method)
  /-- A parameter of the method is under way. -/
  | parameter (method : Method) (part : OpenField)
  /-- The parameters of the method are closed. -/
  | signature (method : Method)
  /-- The colon before the return type has been read. -/
  | returns (method : Method)
  /-- The return type has been read; it may be an array. -/
  | returned (method : Method)
  /-- The opening bracket after the return type has been read. -/
  | returnBracket (method : Method)
  deriving DecidableEq, Repr

structure OpenClass where
  declaration : ClassDeclaration
  part : BodyPart
  deriving DecidableEq, Repr

namespace OpenClass

def add (c : ClassDeclaration) (m : Member) : ClassDeclaration :=
  { c with members := c.members ++ [m] }

def begin? (c : ClassDeclaration) : (t : Terminal) → Option (Shift OpenClass t)
  | .visibility => some fun (v : Visibility) place => ⟨c, .marked v place⟩
  | .name => some fun (word : List Char) place => ⟨c, .field (.named word none place)⟩
  | _ => none

/-- The lexemes that may follow when a list of parameters goes on after a complete parameter. -/
def nextParameter? (c : ClassDeclaration) (m : Method) :
    (t : Terminal) → Option (Shift OpenClass t)
  | .name => some fun (word : List Char) place => ⟨c, .parameter m (.named word none place)⟩
  | .rightParenthesis => some fun _ _ => ⟨c, .signature m⟩
  | _ => none

def addParameter (m : Method) (f : Field) : Method :=
  { m with parameters := m.parameters ++ [f] }

/-- The lexemes that belong to the body, its closing brace apart. -/
def shift? : OpenClass → (t : Terminal) → Option (Shift OpenClass t)
  | ⟨c, .between⟩, t => begin? c t
  | ⟨c, .marked v place⟩, .name =>
    some fun (word : List Char) _ => ⟨c, .field (.named word (some v) place)⟩
  | ⟨c, .field ⟨f, .named⟩⟩, .leftParenthesis =>
    some fun _ _ =>
      ⟨c, .parameters { name := f.name, visibility := f.visibility, place := f.place }⟩
  | ⟨c, .field part⟩, t =>
    match part.shift? t with
    | some next => some fun content place => ⟨c, .field (next content place)⟩
    | none => part.complete?.bind fun f => begin? (add c (.field f)) t
  | ⟨c, .parameters m⟩, t => nextParameter? c m t
  | ⟨c, .parameter m part⟩, t =>
    match part.shift? t with
    | some next => some fun content place => ⟨c, .parameter m (next content place)⟩
    | none =>
      match part.complete?, t with
      | none, _ => none
      | some f, .comma => some fun _ _ => ⟨c, .parameters (addParameter m f)⟩
      | some f, t => nextParameter? c (addParameter m f) t
  | ⟨c, .signature m⟩, .colon => some fun _ _ => ⟨c, .returns m⟩
  | ⟨c, .signature m⟩, t => begin? (add c (.method m)) t
  | ⟨c, .returns m⟩, .name =>
    some fun (word : List Char) _ =>
      ⟨c, .returned { m with returnType := some (String.ofList word) }⟩
  | ⟨c, .returned m⟩, .leftBracket => some fun _ _ => ⟨c, .returnBracket m⟩
  | ⟨c, .returned m⟩, t => begin? (add c (.method m)) t
  | ⟨c, .returnBracket m⟩, .rightBracket =>
    some fun _ _ =>
      ⟨add c (.method { m with returnType := m.returnType.map (· ++ "[]") }), .between⟩
  | _, _ => none

def complete? : OpenClass → Option ClassDeclaration
  | ⟨c, .between⟩ => some c
  | ⟨c, .field part⟩ => part.complete?.map fun f => add c (.field f)
  | ⟨c, .signature m⟩ => some (add c (.method m))
  | ⟨c, .returned m⟩ => some (add c (.method m))
  | _ => none

/-- Whether the last lexeme was the name of a type, which brackets may follow. -/
def afterTypeName : OpenClass → Bool
  | ⟨_, .field part⟩ => part.stage == .typed
  | ⟨_, .parameter _ part⟩ => part.stage == .typed
  | ⟨_, .returned _⟩ => true
  | _ => false

end OpenClass

/-- How far a document has come since its last complete entity. -/
inductive DocumentPart where
  /-- An entity may begin or the document end. -/
  | between
  /-- The word `class` has been read. -/
  | classWord (place : Place)
  /-- A class has its name, and may get a body. -/
  | className (declaration : ClassDeclaration)
  /-- The body of a class is under way. -/
  | body (part : OpenClass)
  /-- The word `interface` has been read. -/
  | interfaceWord (place : Place)
  /-- A relationship has its source, and perhaps its left label. -/
  | source (name : List Char) (left : Option (List Char)) (place : Place)
  /-- A relationship has its operator, and perhaps its right label. -/
  | operator (source : List Char) (left : Option (List Char)) (place : Place) (operator : Operator)
      (right : Option (List Char))
  /-- A relationship has its target, and may get a middle label. -/
  | target (declaration : Relationship)
  /-- The colon before the middle label has been read. -/
  | middle (declaration : Relationship)

/-- The text of a string without its first and its last character, which are its quotes, and with
its escapes resolved.  A backslash that ends the text stands for itself. -/
def unquote (raw : List Char) : List Char :=
  resolve raw.tail.dropLast
where
  resolve : List Char → List Char
    | [] => []
    | [c] => [c]
    | c :: d :: rest =>
      if c = '\\' then Label.unescape d :: resolve rest else c :: resolve (d :: rest)

/-- A document under way: the complete entities, and what has been read since. -/
structure State where
  done : List Entity
  part : DocumentPart

namespace State

def start : State := ⟨[], .between⟩

def begin? (done : List Entity) : (t : Terminal) → Option (Shift State t)
  | .classWord => some fun _ place => ⟨done, .classWord place⟩
  | .interfaceWord => some fun _ place => ⟨done, .interfaceWord place⟩
  | .name => some fun (word : List Char) place => ⟨done, .source word none place⟩
  | _ => none

def relate (source : List Char) (left : Option (List Char)) (place : Place) (operator : Operator)
    (right : Option (List Char)) (target : List Char) : Relationship :=
  { name := Relationship.nameOf (String.ofList source) operator.text (String.ofList target)
    source := String.ofList source
    target := String.ofList target
    kind := operator.kind
    operator := operator.text
    leftLabel := left.map fun raw => String.ofList (unquote raw)
    rightLabel := right.map fun raw => String.ofList (unquote raw)
    place }

def shift? : State → (t : Terminal) → Option (Shift State t)
  | ⟨done, .between⟩, t => begin? done t
  | ⟨done, .classWord place⟩, .name =>
    some fun (word : List Char) _ => ⟨done, .className { name := String.ofList word, place }⟩
  | ⟨done, .className c⟩, .leftBrace => some fun _ _ => ⟨done, .body ⟨c, .between⟩⟩
  | ⟨done, .className c⟩, t => begin? (done ++ [.classDeclaration c]) t
  | ⟨done, .body part⟩, .rightBrace =>
    part.complete?.map fun c _ _ => ⟨done ++ [.classDeclaration c], .between⟩
  | ⟨done, .body part⟩, t =>
    (part.shift? t).map fun next content place => ⟨done, .body (next content place)⟩
  | ⟨done, .interfaceWord place⟩, .name =>
    some fun (word : List Char) _ =>
      ⟨done ++ [.interfaceDeclaration { name := String.ofList word, place }], .between⟩
  | ⟨done, .source name none place⟩, .string =>
    some fun (raw : List Char) _ => ⟨done, .source name (some raw) place⟩
  | ⟨done, .source name left place⟩, .operator =>
    some fun (o : Operator) _ => ⟨done, .operator name left place o none⟩
  | ⟨done, .operator source left place o none⟩, .string =>
    some fun (raw : List Char) _ => ⟨done, .operator source left place o (some raw)⟩
  | ⟨done, .operator source left place o right⟩, .name =>
    some fun (word : List Char) _ => ⟨done, .target (relate source left place o right word)⟩
  | ⟨done, .target r⟩, .colon => some fun _ _ => ⟨done, .middle r⟩
  | ⟨done, .target r⟩, t => begin? (done ++ [.relationship r]) t
  | ⟨done, .middle r⟩, .string =>
    some fun (raw : List Char) _ =>
      ⟨done ++ [.relationship { r with middleLabel := some (String.ofList (unquote raw)) }],
        .between⟩
  | _, _ => none

def complete? : State → Option Diagram
  | ⟨done, .between⟩ => some { entities := done }
  | ⟨done, .className c⟩ => some { entities := done ++ [.classDeclaration c] }
  | ⟨done, .target r⟩ => some { entities := done ++ [.relationship r] }
  | _ => none

/-- Whether the terminal may come next; the one for the end of the text, whether the document may
end. -/
def accepts (s : State) (t : Terminal) : Bool :=
  match t with
  | .endOfText => s.complete?.isSome
  | t => (s.shift? t).isSome

/-- Whether the last lexeme was the name of a type, which brackets may follow. -/
def afterTypeName (s : State) : Bool :=
  match s.part with
  | .body part => part.afterTypeName
  | _ => false

/-- The terminals that follow the type of some field, parameter or method. -/
def followsType : Terminal → Bool
  | .equal | .name | .rightBrace | .visibility | .comma | .rightParenthesis => true
  | _ => false

/-- The terminals to suggest instead of the unwelcome terminal `found`: those that may come next.
If `found` follows types elsewhere, a type that has just been named is taken to be complete, and
its brackets are no longer suggested. -/
def expected (s : State) (found : Terminal) : List Terminal :=
  Terminal.all.filter fun t =>
    s.accepts t && !(t == .leftBracket && s.afterTypeName && followsType found)

end State

end ClassDiagram.Grammar
