import ClassDiagram.Token.Rule

/-!
# The rules of class diagrams

One rule for each construct:

* a document is a sequence of entities;
* a class is `class NAME`, with a body of members between braces if one follows;
* an interface is `interface NAME`;
* a relationship is `SOURCE "left"? OPERATOR "right"? TARGET (: "middle")?`;
* a member is a name, perhaps after a visibility marker, followed by the rest of a method if a
  parenthesis opens and by the rest of a field otherwise;
* the rest of a field is `(: TYPE)? (= DEFAULT)?`, the rest of a method `( parameters ) (: TYPE)?`;
* a type is `NAME` or `NAME[]`.

A comma is optional after every parameter, the last one included.
-/

namespace ClassDiagram.Rule

/-- A type: a name, or a name and a pair of brackets. -/
def typeName (within : String) : Rule String := do
  let name ← expect .identifier "type name after ':'" within
  let suffix ← after .leftBracket (expect .rightBracket "']' after '['" within)
  return if suffix.isSome then name.value ++ "[]" else name.value

/-- A colon and a type, if a colon comes next. -/
def ascription (within : String) : Rule (Option String) := after .colon (typeName within)

/-- An equals sign and a default value, if an equals sign comes next. -/
def defaultValue (within : String) : Rule (Option String) :=
  after .equals (Token.value <$> expect .identifier "default value after '='" within)

/-- The rest of a field whose declaration began at `place` and that has the given name. -/
def fieldRest (name : String) (visibility : Option Visibility) (place : Place) : Rule Field := do
  let valueType ← ascription ("field " ++ name)
  let value ← defaultValue ("field " ++ name)
  return { name, visibility, valueType, defaultValue := value, place }

/-- A parameter, and the comma after it if there is one. -/
def parameter (within : String) : Rule Field := do
  let name ← expect .identifier "parameter name or ')'" within
  let field ← fieldRest name.value none name.place
  let _ ← accept .comma
  return field

theorem advancing_expect_identifier (what within : String) :
    Advancing (expect .identifier what within) :=
  advancing_expect (by decide) what within

theorem steady_typeName (within : String) : Steady (typeName within) :=
  (steady_expect _ _ _).bind fun _ =>
    (steady_after _ (steady_expect _ _ _)).bind fun _ => steady_pure _

theorem advancing_typeName (within : String) : Advancing (typeName within) :=
  (advancing_expect_identifier _ _).bind fun _ =>
    (steady_after _ (steady_expect _ _ _)).bind fun _ => steady_pure _

theorem steady_ascription (within : String) : Steady (ascription within) :=
  steady_after _ (steady_typeName within)

theorem steady_defaultValue (within : String) : Steady (defaultValue within) :=
  steady_after _ ((steady_expect _ _ _).map _)

theorem steady_fieldRest (name : String) (visibility : Option Visibility) (place : Place) :
    Steady (fieldRest name visibility place) :=
  (steady_ascription _).bind fun _ => (steady_defaultValue _).bind fun _ => steady_pure _

theorem steady_parameter (within : String) : Steady (parameter within) :=
  (steady_expect _ _ _).bind fun _ => (steady_fieldRest _ _ _).bind fun _ =>
    (steady_accept _).bind fun _ => steady_pure _

theorem advancing_parameter (within : String) : Advancing (parameter within) :=
  (advancing_expect_identifier _ _).bind fun _ => (steady_fieldRest _ _ _).bind fun _ =>
    (steady_accept _).bind fun _ => steady_pure _

/-- The kinds of tokens at which a list of parameters stops. -/
def endsParameters (kind : Token.Kind) : Bool := kind == .rightParenthesis || kind == .endOfText

/-- The rest of a method whose declaration began at `place` and that has the given name. -/
def methodRest (name : String) (visibility : Option Visibility) (place : Place) : Rule Method := do
  let within := "method " ++ name
  let _ ← expect .leftParenthesis "'('" within
  let parameters ← many endsParameters (parameter within) (advancing_parameter within)
  let _ ← expect .rightParenthesis "')' after parameters" within
  let returnType ← ascription within
  return { name, visibility, parameters, returnType, place }

theorem steady_methodRest (name : String) (visibility : Option Visibility) (place : Place) :
    Steady (methodRest name visibility place) :=
  (steady_expect _ _ _).bind fun _ => (steady_many _ (steady_parameter _)).bind fun _ =>
    (steady_expect _ _ _).bind fun _ => (steady_ascription _).bind fun _ => steady_pure _

theorem advancing_methodRest (name : String) (visibility : Option Visibility) (place : Place) :
    Advancing (methodRest name visibility place) :=
  (advancing_expect (by decide) _ _).bind fun _ =>
    (steady_many _ (steady_parameter _)).bind fun _ =>
      (steady_expect _ _ _).bind fun _ => (steady_ascription _).bind fun _ => steady_pure _

def marker : Rule (Option Visibility) := fun c =>
  match c.current.kind.visibility? with
  | some v => .ok (some v) c.advance
  | none => .ok none c

theorem steady_marker : Steady marker := by
  intro c
  simp only [marker]
  split
  · exact c.left_advance_le
  · exact Nat.le_refl _

/-- The rest of a member: of a method if a parenthesis opens, and of a field otherwise. -/
def memberRest (name : String) (visibility : Option Visibility) (place : Place) : Rule Member := do
  if ← check .leftParenthesis then Member.method <$> methodRest name visibility place
  else Member.field <$> fieldRest name visibility place

def member : Rule Member := do
  let start ← current
  let visibility ← marker
  let name ← expect .identifier "member name" "class body"
  memberRest name.value visibility start.place

theorem steady_memberRest (name : String) (visibility : Option Visibility) (place : Place) :
    Steady (memberRest name visibility place) := by
  refine (steady_check _).bind fun opens => ?_
  cases opens
  · exact (steady_fieldRest _ _ _).map _
  · exact (steady_methodRest _ _ _).map _

theorem steady_member : Steady member :=
  steady_current.bind fun _ => steady_marker.bind fun _ => (steady_expect _ _ _).bind fun _ =>
    steady_memberRest _ _ _

theorem advancing_member : Advancing member :=
  steady_current.bind_advancing fun _ => steady_marker.bind_advancing fun _ =>
    (advancing_expect_identifier _ _).bind fun _ => steady_memberRest _ _ _

/-- The kinds of tokens at which a list of members stops. -/
def endsBody (kind : Token.Kind) : Bool := kind == .rightBrace || kind == .endOfText

/-- The members of the class `name` after the opening brace, and the closing brace. -/
def bodyRest (name : String) : Rule (List Member) := do
  let members ← many endsBody member advancing_member
  let _ ← expect .rightBrace ("'\x7d' to close class " ++ name) "class body"
  return members

def classDeclaration : Rule ClassDeclaration := do
  let start ← expect .classWord "'class'" "class declaration"
  let name ← expect .identifier "class name" "class declaration"
  let members ← after .leftBrace (bodyRest name.value)
  return { name := name.value, members := members.getD [], place := start.place }

def interfaceDeclaration : Rule InterfaceDeclaration := do
  let start ← expect .interfaceWord "'interface'" "interface declaration"
  let name ← expect .identifier "interface name" "interface declaration"
  return { name := name.value, place := start.place }

def label : Rule (Option String) := (·.map Token.value) <$> accept .quotation

def operator : Rule (Token × RelationshipKind) := fun c =>
  match c.current.kind.relationship? with
  | some kind => .ok (c.current, kind) c.advance
  | none => .error ⟨c.current, .expected "relationship operator" "relationship"⟩ c

def relationship : Rule Relationship := do
  let source ← expect .identifier "source class name" "relationship"
  let leftLabel ← label
  let (operator, kind) ← operator
  let rightLabel ← label
  let target ← expect .identifier "target class name" "relationship"
  let middleLabel ← after .colon
    (Token.value <$> expect .quotation "quoted label after ':'" "relationship")
  return {
    name := Relationship.nameOf source.value operator.value target.value
    source := source.value
    target := target.value
    kind
    operator := operator.value
    leftLabel
    middleLabel
    rightLabel
    place := source.place }

theorem steady_operator : Steady operator := by
  intro c
  simp only [operator]
  split
  · exact c.left_advance_le
  · exact Nat.le_refl _

theorem steady_label : Steady label := (steady_accept _).map _

theorem steady_bodyRest (name : String) : Steady (bodyRest name) :=
  (steady_many _ steady_member).bind fun _ => (steady_expect _ _ _).bind fun _ => steady_pure _

theorem advancing_classDeclaration : Advancing classDeclaration :=
  (advancing_expect (by decide) _ _).bind fun _ => (steady_expect _ _ _).bind fun _ =>
    (steady_after _ (steady_bodyRest _)).bind fun _ => steady_pure _

theorem advancing_interfaceDeclaration : Advancing interfaceDeclaration :=
  (advancing_expect (by decide) _ _).bind fun _ => (steady_expect _ _ _).bind fun _ => steady_pure _

theorem advancing_relationship : Advancing relationship :=
  (advancing_expect_identifier _ _).bind fun _ => steady_label.bind fun _ =>
    steady_operator.bind fun _ => steady_label.bind fun _ => (steady_expect _ _ _).bind fun _ =>
      (steady_after _ ((steady_expect _ _ _).map _)).bind fun _ => steady_pure _

/-- An entity that begins with a token of the given kind. -/
def entityOfKind : Token.Kind → Rule Entity
  | .classWord => Entity.classDeclaration <$> classDeclaration
  | .interfaceWord => Entity.interfaceDeclaration <$> interfaceDeclaration
  | .identifier => Entity.relationship <$> relationship
  | _ => blame .unexpected

/-- An entity; its first token tells which. -/
def entity : Rule Entity := do
  let start ← current
  entityOfKind start.kind

theorem advancing_entityOfKind (kind : Token.Kind) : Advancing (entityOfKind kind) := by
  unfold entityOfKind
  split
  · exact advancing_classDeclaration.map _
  · exact advancing_interfaceDeclaration.map _
  · exact advancing_relationship.map _
  · exact advancing_blame _

theorem advancing_entity : Advancing entity :=
  steady_current.bind_advancing fun _ => advancing_entityOfKind _

/-- A whole document: entities up to the end of the text. -/
def diagram : Rule Diagram := do
  let entities ← many (· == .endOfText) entity advancing_entity
  return { entities }

end ClassDiagram.Rule

namespace ClassDiagram

/-- Why a sequence of tokens gives no diagram: it is not closed, or a rule is broken. -/
inductive TokensError where
  | unclosed
  | broken (error : ParseError)
  deriving DecidableEq, Repr

def TokensError.message : TokensError → String
  | unclosed => "token sequence must end with an EOF token"
  | broken error => error.message

/-- What is raised for a sequence of tokens that gives no diagram. -/
def TokensError.raised : TokensError → Raised TokensError
  | unclosed => .error .unclosed
  | broken error => error.token.place.raise (.broken error)

namespace Diagram

/-- The diagram that a closed sequence of tokens stands for. -/
def ofClosedTokens (tokens : List Token) (closed : Token.Closed tokens) :
    Except ParseError Diagram :=
  match Rule.diagram (Cursor.ofTokens tokens closed) with
  | .ok d _ => .ok d
  | .error e _ => .error e

/-- The diagram that a sequence of tokens stands for. -/
def ofTokens (tokens : List Token) : Except TokensError Diagram :=
  if closed : Token.Closed tokens then (ofClosedTokens tokens closed).mapError .broken
  else .error .unclosed

/-- The diagram that tokens stand for whose places may be anything, or what is raised. -/
def readTokens (tokens : List Token) : Except (Raised TokensError) Diagram :=
  (ofTokens tokens).mapError TokensError.raised

end Diagram

end ClassDiagram
