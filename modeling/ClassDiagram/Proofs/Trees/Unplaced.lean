import ClassDiagram.Proofs.Trees.Moved

/-!
# Trees without their places

Tokens and declarations remember where they stand.  What they say does not depend on it: a run of
tokens that is a phrase stays one when all places are forgotten, and then says the same.
-/

namespace ClassDiagram

def Token.unplaced (t : Token) : Token := { t with place := .nowhere }

def Field.unplaced (f : Field) : Field := { f with place := .nowhere }

def Method.unplaced (m : Method) : Method :=
  { m with parameters := m.parameters.map Field.unplaced, place := .nowhere }

def Member.unplaced : Member → Member
  | field f => .field f.unplaced
  | method m => .method m.unplaced

def ClassDeclaration.unplaced (c : ClassDeclaration) : ClassDeclaration :=
  { c with members := c.members.map Member.unplaced, place := .nowhere }

def InterfaceDeclaration.unplaced (i : InterfaceDeclaration) : InterfaceDeclaration :=
  { i with place := .nowhere }

def Relationship.unplaced (r : Relationship) : Relationship := { r with place := .nowhere }

def Entity.unplaced : Entity → Entity
  | classDeclaration c => .classDeclaration c.unplaced
  | interfaceDeclaration i => .interfaceDeclaration i.unplaced
  | relationship r => .relationship r.unplaced

/-- The diagram with every place in it forgotten. -/
def Diagram.unplaced (d : Diagram) : Diagram :=
  { d with entities := d.entities.map Entity.unplaced }

@[simp] theorem Token.kind_unplaced (t : Token) : t.unplaced.kind = t.kind := rfl

@[simp] theorem Field.unplaced_unplaced (f : Field) : f.unplaced.unplaced = f.unplaced := rfl

@[simp] theorem Method.unplaced_unplaced (m : Method) : m.unplaced.unplaced = m.unplaced := by
  simp [unplaced]

@[simp] theorem Member.unplaced_unplaced (m : Member) : m.unplaced.unplaced = m.unplaced := by
  cases m <;> simp [unplaced]

@[simp] theorem ClassDeclaration.unplaced_unplaced (c : ClassDeclaration) :
    c.unplaced.unplaced = c.unplaced := by
  simp [unplaced]

@[simp] theorem Entity.unplaced_unplaced (e : Entity) : e.unplaced.unplaced = e.unplaced := by
  cases e with
  | classDeclaration c => simp [unplaced]
  | interfaceDeclaration i => rfl
  | relationship r => rfl

@[simp] theorem Diagram.unplaced_unplaced (d : Diagram) : d.unplaced.unplaced = d.unplaced := by
  simp [unplaced]

/-! To forget all places is to move everything nowhere. -/

theorem Member.unplaced_eq_moved : unplaced = moved fun _ => .nowhere := by
  funext m
  cases m <;> rfl

theorem Entity.unplaced_eq_moved : unplaced = moved fun _ => .nowhere := by
  funext e
  cases e with
  | classDeclaration c =>
      rw [unplaced, ClassDeclaration.unplaced, Member.unplaced_eq_moved]
      rfl
  | interfaceDeclaration i => rfl
  | relationship r => rfl

theorem Diagram.unplaced_eq_moved (d : Diagram) : d.unplaced = d.moved fun _ => .nowhere := by
  rw [unplaced, Entity.unplaced_eq_moved]
  rfl

/-! Wherever everything has been moved, it can be forgotten. -/

section

variable (f : Place → Place)

@[simp] theorem Field.unplaced_moved (d : Field) : (d.moved f).unplaced = d.unplaced := rfl

@[simp] theorem Method.unplaced_moved (m : Method) : (m.moved f).unplaced = m.unplaced := by
  simp [unplaced, moved]

@[simp] theorem Member.unplaced_moved (m : Member) : (m.moved f).unplaced = m.unplaced := by
  cases m <;> simp [unplaced, moved]

@[simp] theorem ClassDeclaration.unplaced_moved (c : ClassDeclaration) :
    (c.moved f).unplaced = c.unplaced := by
  simp [unplaced, moved]

@[simp] theorem Entity.unplaced_moved (e : Entity) : (e.moved f).unplaced = e.unplaced := by
  cases e with
  | classDeclaration c => simp [unplaced, moved]
  | interfaceDeclaration i => rfl
  | relationship r => rfl

@[simp] theorem Diagram.unplaced_moved (d : Diagram) : (d.moved f).unplaced = d.unplaced := by
  simp [unplaced, moved]

end

/-- A document stays one when places are forgotten, and says the same without them. -/
theorem DocumentPhrase.unplaced {run : List Token} {d : Diagram} (h : DocumentPhrase run d) :
    DocumentPhrase (run.map Token.unplaced) d.unplaced := by
  rw [d.unplaced_eq_moved]
  exact h.moved (f := fun _ => .nowhere)

end ClassDiagram
